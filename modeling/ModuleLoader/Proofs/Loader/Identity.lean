import Mathlib.Data.List.Pairwise
import ModuleLoader.Proofs.Loader.History
import ModuleLoader.Proofs.Loader.Runs

/-! # One blob for each module

However often modules are loaded until everything is forgotten, and in whatever ways specifiers name
them, a module has one source, one blob and one module object. So specifiers are replaced by the
same blob exactly if they lead to the same module.

* **`Loader.Coherent.eq_of_blobUrl`** says that different modules have different blobs.
* **`Loader.identity_of_run`** puts these together for a whole run. -/

namespace ModuleLoader.Loader

variable {ω : Type} {server : Server ω} {l : Loader} {s s' : Session}
variable {m m' t t' : Url} {specifier blobUrl : String} {w w' : World Session ω}

/-! ## Blobs and modules -/

/-- Different modules have different blobs. -/
theorem Coherent.eq_of_blobUrl (h : l.Coherent s)
    (ht : s.cache.compiled.get? t = some (.ready blobUrl))
    (ht' : s.cache.compiled.get? t' = some (.ready blobUrl)) : t = t' := by
  by_contra hne
  have hnodup := h.numbered.nodup
  rw [h.live, Cache.blobUrls, Memo.values, List.filterMap_map, List.Nodup,
    List.pairwise_filterMap] at hnodup
  have hdiffer : s.cache.compiled.entries.Pairwise
      fun e e' => ∀ b, e.2 = .ready b → e'.2 ≠ .ready b := by
    refine hnodup.imp fun {e e'} h b hb hb' => h b ?_ b ?_ rfl
    · rw [Function.comp_apply, hb, Artifact.blobUrl?]
    · rw [Function.comp_apply, hb', Artifact.blobUrl?]
  have hsymm : Std.Symm fun e e' : Url × Artifact => ∀ b, e.2 = .ready b → e'.2 ≠ .ready b :=
    ⟨fun _ _ h b hb hb' => h b hb' hb⟩
  exact hdiffer.forall (Memo.mem_entries_of_get? ht) (Memo.mem_entries_of_get? ht')
    (fun heq => hne (Prod.mk.inj heq).1) blobUrl rfl rfl

/-! ## Whole runs -/

/-- Calls go on from wherever calls have led, for as long as nothing is forgotten. Two specifiers
that are replaced on the way, in whatever modules and calls, are replaced by the same blob exactly
if they lead to the same module. The transformer is called on no module twice, nor on one that has
been compiled before. Sources, blobs and imported modules stay as they are, and each imported module
is that of the blob of its URL. -/
theorem identity_of_run (hw : l.Reached server (fun _ => True) w)
    {trace : List (World Session ω × World Session ω)}
    (hrun : l.Run server (· ≠ .cleanup) w trace w') :
    (∀ v₁ v₂ v₁' v₂' m m' specifier specifier' t t' blobUrl blobUrl', (v₁, v₂) ∈ trace →
      (v₁', v₂') ∈ trace → l.Replaces v₁.state v₂.state m specifier t blobUrl →
      l.Replaces v₁'.state v₂'.state m' specifier' t' blobUrl' → (blobUrl = blobUrl' ↔ t = t')) ∧
    (∃ calls, w'.state.compilations = w.state.compilations ++ calls ∧
      ∀ m, calls.countP (fun c => c.url = m) ≤ 1 ∧
        (w.state.cache.isCompiled m = true → calls.countP (fun c => c.url = m) = 0)) ∧
    (∀ v₁ v₂, (v₁, v₂) ∈ trace → w.state.Continues v₁.state ∧ v₁.state.Continues v₂.state ∧
      v₂.state.Continues w'.state) ∧
    ∀ m x, w'.state.cache.modules.get? m = some x →
      w'.state.cache.compiled.get? m = some (.ready x.blobUrl) := by
  have hcoherent : l.Coherent w'.state := (coherent_of_reached (hrun.reached hw)).1
  have hends : ∀ {v₁ v₂ m specifier t blobUrl}, (v₁, v₂) ∈ trace →
      l.Replaces v₁.state v₂.state m specifier t blobUrl →
      w'.state.cache.compiled.get? t = some (.ready blobUrl) := by
    intro v₁ v₂ m specifier t blobUrl hmem h
    obtain ⟨-, -, hstep, hafter⟩ := hrun.split (fun _ => id) hw hmem
    exact (hstep.trans hafter).compiled t _ h.compiled
  refine ⟨?_, ?_, fun v₁ v₂ hmem => (hrun.split (fun _ => id) hw hmem).2, hcoherent.imported⟩
  -- both blobs are still those of the targets in the end
  · intro v₁ v₂ v₁' v₂' m m' specifier specifier' t t' blobUrl blobUrl' hmem hmem' h h'
    have ht := hends hmem h
    have ht' := hends hmem' h'
    constructor
    · rintro rfl
      exact hcoherent.eq_of_blobUrl ht ht'
    · rintro rfl
      exact (Artifact.ready.inj (Option.some.inj (ht.symm.trans ht')))
  · exact (hrun.continues fun _ => id).countP_calls_le_one

/-- The source of a module that imports another in two ways. -/
def twice : String := "import \"./util\";\nimport \"/lib/../util.js\";\n"

/-- That module and the other. -/
def importingTwice : List (String × String) :=
  [("main.js", twice), ("util.js", "export const u = 1;\n")]

-- irreducible, lest the calls are run wherever two worlds are compared
/-- What comes of building the graph of the first module and compiling the second. -/
@[irreducible]
def prepareTwice : Option Unit × World Session Unit :=
  (byLines.performAll [.buildGraph 3 (fileUrl "main.js"), .compileModules [fileUrl "util.js"]]).run
    (Server.ofModules importingTwice) (byLines.start ())

/-- What comes of compiling the first module then. -/
@[irreducible]
def compileImporting : World Session Unit :=
  { prepareTwice.2 with
    state := (byLines.register (fileUrl "main.js") twice prepareTwice.2.state).2 }

/-- Calls lead there through the step in which the first module is compiled, and both specifiers are
replaced in it. -/
theorem replaces_compileImporting :
    byLines.Reached (Server.ofModules importingTwice) (fun _ => True) prepareTwice.2 ∧
      (∃ trace, byLines.Run (Server.ofModules importingTwice) (· ≠ .cleanup) prepareTwice.2 trace
        compileImporting ∧ (prepareTwice.2, compileImporting) ∈ trace) ∧
      ∀ specifier ∈ ["./util", "/lib/../util.js"], ∃ blobUrl,
        byLines.Replaces prepareTwice.2.state compileImporting.state (fileUrl "main.js") specifier
          (fileUrl "util.js") blobUrl := by
  obtain ⟨hends, hnew, hsource, hspecifiers⟩ :
      prepareTwice.1 = some () ∧
      prepareTwice.2.state.cache.compiled.get? (fileUrl "main.js") = none ∧
      prepareTwice.2.state.cache.sources.get? (fileUrl "main.js") = some twice ∧
      ∀ specifier ∈ ["./util", "/lib/../util.js"],
        specifier ∈
          (byLines.transformation prepareTwice.2.state (fileUrl "main.js") twice).asked ∧
        byLines.specifierTarget? prepareTwice.2.state.cache (fileUrl "main.js") specifier =
          some (fileUrl "util.js") ∧
        (byLines.redirectSpecifier prepareTwice.2.state.cache (fileUrl "main.js")
          specifier).isSome := by
    decide +kernel
  refine ⟨?_, ?_, fun specifier hspecifier => ?_⟩
  · unfold prepareTwice at hends ⊢
    exact Reached.performAll (.start ()) (fun _ _ => trivial) (Op.steps_of_fst_run hends)
  · unfold compileImporting
    exact exists_run_register (by simp) hnew hsource
  · obtain ⟨hasked, htarget, hblob⟩ := hspecifiers specifier hspecifier
    obtain ⟨blobUrl, hblob⟩ := Option.isSome_iff_exists.1 hblob
    refine ⟨blobUrl, ⟨_, hsource, ?_, hasked⟩, htarget, hblob⟩
    unfold compileImporting
    rfl

/-- Both specifiers are replaced by the same blob, as they lead to the same module. -/
theorem identity_of_run_importingTwice :
    ∃ (w w' v₁ v₂ : World Session Unit) (trace : List (World Session Unit × World Session Unit))
      (blobUrl : String),
      byLines.Reached (Server.ofModules importingTwice) (fun _ => True) w ∧
      byLines.Run (Server.ofModules importingTwice) (· ≠ .cleanup) w trace w' ∧
      (v₁, v₂) ∈ trace ∧
      byLines.Replaces v₁.state v₂.state (fileUrl "main.js") "./util" (fileUrl "util.js") blobUrl ∧
      byLines.Replaces v₁.state v₂.state (fileUrl "main.js") "/lib/../util.js" (fileUrl "util.js")
        blobUrl := by
  obtain ⟨hreached, ⟨trace, hrun, hmem⟩, hreplaced⟩ := replaces_compileImporting
  obtain ⟨blobUrl, h⟩ := hreplaced "./util" (by simp)
  obtain ⟨blobUrl', h'⟩ := hreplaced "/lib/../util.js" (by simp)
  obtain rfl : blobUrl = blobUrl' :=
    ((identity_of_run hreached hrun).1 _ _ _ _ _ _ _ _ _ _ _ _ hmem hmem h h').2 rfl
  exact ⟨_, _, _, _, trace, blobUrl, hreached, hrun, hmem, h, h'⟩

end ModuleLoader.Loader
