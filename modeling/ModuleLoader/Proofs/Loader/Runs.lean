import ModuleLoader.Proofs.Loader.Coherence

/-! # Between two times of forgetting

Until everything is forgotten together, calls only add to a state: what is remembered stays, blobs
can be read as before, and the transformer is not called again on a module that has been compiled.
A call imports no module but the one that it is for.

* **`Session.Continues`** is a state that has come from another by additions, **`Session.Adds`** one
  in which moreover no module was imported but a given one.
* **`Loader.adds_perform`** says that every call adds, but for the one that forgets everything.
* **`Loader.Run`** is a sequence of calls with the worlds before and after each of their steps;
  `Loader.Run.split` says what holds around each of these.
* **`Loader.Replaces`** is a step in which a specifier is replaced. -/

namespace ModuleLoader

open Relation

/-- The module that a call imports, if it comes to that. -/
def Call.target? : Call → Option Url
  | .load _ entry => (Url.parse entry).toOption
  | .loadModule _ url | .importCompiled url => some url
  | .buildGraph _ _ | .fetchSource _ | .compileModules _ | .cleanup => none

namespace Session

variable {l : Loader} {s s' s'' : Session} {target : Option Url}

/-! ## Additions -/

/-- The second state has come from the first by additions. -/
structure Continues (s s' : Session) : Prop extends s.Grows s' where
  /-- Blobs can be read as before. -/
  blobs : ∀ blobUrl b, s.blobs.get? blobUrl = some b → s'.blobs.get? blobUrl = some b
  /-- The transformer has been called on some new modules, once on each. -/
  calls : ∃ calls : List Compilation, s'.compilations = s.compilations ++ calls ∧
    (calls.map Compilation.url).Nodup ∧
    ∀ c ∈ calls, s.cache.compiled.get? c.url = none ∧ s'.cache.isCompiled c.url = true

namespace Continues

theorem refl (s : Session) : s.Continues s where
  toGrows := .refl s
  blobs := fun _ _ h => h
  calls := ⟨[], (List.append_nil _).symm, List.nodup_nil, by simp⟩

theorem trans (h : s.Continues s') (h' : s'.Continues s'') : s.Continues s'' where
  toGrows := h.toGrows.trans h'.toGrows
  blobs := fun blobUrl b hb => h'.blobs blobUrl b (h.blobs blobUrl b hb)
  calls := by
    obtain ⟨calls, heq, hnodup, hnew⟩ := h.calls
    obtain ⟨calls', heq', hnodup', hnew'⟩ := h'.calls
    refine ⟨calls ++ calls', by rw [heq', heq, List.append_assoc], ?_, fun c hc => ?_⟩
    -- the modules of the earlier calls have been compiled when the later ones come
    · rw [List.map_append]
      refine hnodup.append hnodup' fun m hm hm' => ?_
      obtain ⟨c, hc, rfl⟩ := List.mem_map.1 hm
      obtain ⟨c', hc', heq⟩ := List.mem_map.1 hm'
      have hcompiled := (hnew c hc).2
      rw [← heq, Cache.isCompiled, Memo.contains, (hnew' c' hc').1] at hcompiled
      cases hcompiled
    · rcases List.mem_append.1 hc with hc | hc
      · exact ⟨(hnew c hc).1, h'.toGrows.isCompiled (hnew c hc).2⟩
      · refine ⟨Option.eq_none_iff_forall_not_mem.2 fun a ha => ?_, (hnew' c hc).2⟩
        have hold := h.compiled c.url a ha
        rw [(hnew' c hc).1] at hold
        cases hold

/-- The transformer is called at most once on a module, and not if the module has been compiled
before. -/
theorem countP_calls_le_one (h : s.Continues s') :
    ∃ calls, s'.compilations = s.compilations ++ calls ∧
      ∀ m, calls.countP (fun c => c.url = m) ≤ 1 ∧
        (s.cache.isCompiled m = true → calls.countP (fun c => c.url = m) = 0) := by
  obtain ⟨calls, heq, hnodup, hnew⟩ := h.calls
  refine ⟨calls, heq, fun m => ⟨?_, fun hm => List.countP_eq_zero.2 fun c hc hurl => ?_⟩⟩
  · have hcount : calls.countP (fun c => c.url = m) = (calls.map Compilation.url).count m := by
      rw [List.count, List.countP_map]
      exact List.countP_congr fun c _ => by simp
    rw [hcount]
    exact List.nodup_iff_count_le_one.1 hnodup m
  · obtain rfl : c.url = m := of_decide_eq_true hurl
    rw [Cache.isCompiled, Memo.contains, (hnew c hc).1] at hm
    cases hm

end Continues

/-- The second state has come from the first by additions, and no module but one was imported. -/
structure Adds (s s' : Session) (target : Option Url) : Prop extends s.Continues s' where
  /-- No other module was imported. -/
  sameModules : ∀ v, target ≠ some v → s'.cache.modules.get? v = s.cache.modules.get? v

theorem Adds.refl (s : Session) (target : Option Url) : s.Adds s target :=
  ⟨.refl s, fun _ _ => rfl⟩

theorem Adds.trans (h : s.Adds s' target) (h' : s'.Adds s'' target) : s.Adds s'' target :=
  ⟨h.toContinues.trans h'.toContinues, fun v hv => (h'.sameModules v hv).trans (h.sameModules v hv)⟩

/-- What changes neither blobs nor calls of the transformer adds. -/
theorem Grows.continues (h : s.Grows s') (hblobs : s'.blobs = s.blobs)
    (hcompilations : s'.compilations = s.compilations) : s.Continues s' where
  toGrows := h
  blobs := by
    rw [hblobs]
    exact fun _ _ => id
  calls := ⟨[], by rw [hcompilations, List.append_nil], List.nodup_nil, by simp⟩

/-- Importing a module adds it, if the blobs are left as they are. -/
theorem Imports.adds {url : Url} (h : s.Imports s' url) (hblobs : s'.blobs = s.blobs) :
    s.Adds s' (some url) :=
  ⟨h.toGrows.continues hblobs h.sameCompilations,
    fun v hv => h.sameModules v fun heq => hv (heq ▸ rfl)⟩

end Session

namespace Loader

variable {ω : Type} {server : Server ω} {l : Loader} {s s' : Session} {target : Option Url}
variable {kind : Call → Prop} {w w' w₁ w₂ : World Session ω} {m t : Url}
variable {specifier blobUrl : String}

/-- Building a graph adds, and imports nothing. -/
theorem Prepares.adds (h : l.Prepares s s') (target : Option Url) : s.Adds s' target :=
  ⟨h.toGrows.continues h.sameBlobs h.sameCompilations, fun _ _ => by rw [h.sameModules]⟩

/-- Searching adds, and imports nothing. -/
theorem adds_of_searches (h : s.Searches s') (target : Option Url) : s.Adds s' target :=
  (prepares_of_searches (l := default) h).adds target

/-- Registering a module that has not been compiled adds, and imports nothing. -/
theorem Registers.adds {m : Url} (h : l.Registers s m s') (hnew : s.cache.compiled.get? m = none)
    (target : Option Url) : s.Adds s' target := by
  obtain ⟨a, hc, -⟩ := h.compiles
  have hdone := h.isCompiled
  cases h with
  | source source hsource =>
    refine ⟨⟨hc.grows, fun _ _ => get?_blobs_register l m source, ?_⟩, fun _ _ => by
      rw [hc.sameModules]⟩
    exact ⟨_, compilations_register l m source s, List.nodup_singleton _,
      fun c hcall => List.mem_singleton.1 hcall ▸ ⟨hnew, hdone⟩⟩
  | failure cause =>
    exact ⟨hc.grows.continues rfl rfl, fun _ _ => by rw [hc.sameModules]⟩

/-- Importing a compiled module leaves the blobs as they are. -/
theorem blobs_importEager (url : Url) (graph : Option Graph) (a : Artifact) (s : Session) :
    (Session.importEager url graph a s).2.blobs = s.blobs := by
  rcases importEager_cases url graph a s with ⟨blobUrl, -, -, heq⟩ | ⟨f, u, cause, heq⟩
  · rw [heq]
    cases hread : s.readBlob blobUrl with
    | error reason => rw [Session.importBlob_of_error hread]
    | ok m => rw [Session.importBlob_of_ok hread]
  · rw [heq]
    rfl

/-- Importing a compiled module adds that module at most. -/
theorem adds_importEager (url : Url) (graph : Option Graph) (a : Artifact) (s : Session) :
    s.Adds (Session.importEager url graph a s).2 (some url) :=
  (Session.imports_importEager url graph a s).adds (blobs_importEager url graph a s)

/-- Importing the entry of a load adds that module at most. -/
theorem adds_importEntry (entry : Url) (g : Graph) (s : Session) :
    s.Adds (importEntry entry g s).2 (some entry) := by
  cases h : s.cache.compiled.get? entry with
  | none =>
    rw [importEntry_of_notCompiled h]
    exact .refl s _
  | some a =>
    rw [importEntry_of_compiled h]
    exact adds_importEager entry (some g) a s

/-- So does importing a module on its own. -/
theorem adds_importCompiled (url : Url) (s : Session) :
    s.Adds (importCompiled url s).2 (some url) := by
  rcases importCompiled_cases url s with heq | ⟨a, -, heq⟩
  · rw [heq]
    exact .refl s _
  · rw [heq]
    exact adds_importEager url _ a s

/-! ## Calls -/

/-- What a call promises: to add, and to import no module but its own. -/
def adding (target : Option Url) (w w' : World Session ω) : Prop := w.state.Adds w'.state target

/-- To add for some steps is to add. -/
theorem adds_of_adding (h : ReflTransGen (adding target) w w') : w.state.Adds w'.state target := by
  induction h with
  | refl => exact .refl _ _
  | tail _ h ih => exact ih.trans h

/-- Compiling modules adds. -/
theorem adds_compileModules (l : Loader) (order : List Url) (target : Option Url)
    (w : World Session ω) :
    (l.compileModules order).Keeps server (adding target) (fun _ _ => True) w := by
  refine keeps_compileModules (fun _ _ => True) (fun front m rest w₁ _ _ => ?_) trivial
  exact Op.keeps_one ((keeps_compileModule m (fun _ _ h => adds_of_searches h target)
    fun _ _ _ hnew hreg => hreg.adds hnew target).imp fun _ _ _ _ _ => trivial)

/-- A load adds. -/
theorem adds_loadModule (l : Loader) (limit : Nat) (url : Url) (w : World Session ω) :
    (l.loadModule limit url).Keeps server (adding (some url)) (fun _ _ => True) w := by
  unfold loadModule
  refine Op.keeps_look (.refl _ _) ?_
  cases w.state.cache.modules.get? url with
  | some m =>
    have hreport := Session.searches_report (.moduleHit url) w.state
    exact Op.keeps_bind (Op.keeps_act (adds_of_searches hreport _) trivial)
  | none =>
    refine Op.keeps_bind (((keeps_buildGraph l limit url w).mono fun _ _ h => h.adds _).imp
      fun g w₁ _ => ?_)
    cases g.topologicalSort with
    | error circle => trivial
    | ok order =>
      refine Op.keeps_bind ((adds_compileModules l order _ w₁).imp fun _ w₂ _ => ?_)
      exact Op.keeps_act (adds_importEntry url g w₂.state) trivial

/-- Every call but the one that forgets everything adds, and imports no module but its own. -/
theorem adds_perform (l : Loader) {c : Call} (hc : c ≠ .cleanup) (w : World Session ω) :
    (l.perform c).Keeps server (adding c.target?) (fun _ _ => True) w := by
  cases c with
  | load limit entry =>
    change (l.perform (.load limit entry)).Keeps server (adding (Url.parse entry).toOption) _ w
    refine Op.keeps_bind ?_
    unfold load
    cases Url.parse entry with
    | error e => trivial
    | ok url => exact (adds_loadModule l limit url w).imp fun _ _ _ => trivial
  | loadModule limit url =>
    exact Op.keeps_bind ((adds_loadModule l limit url w).imp fun _ _ _ => trivial)
  | buildGraph limit entry =>
    exact Op.keeps_bind (((keeps_buildGraph l limit entry w).mono fun _ _ h => h.adds _).imp
      fun _ _ _ => trivial)
  | fetchSource url =>
    exact Op.keeps_bind (Op.keeps_one (((keeps_fetchSource url [] w).alone.mono (fun _ _ h => h)
      fun _ _ h => adds_of_searches h _).imp fun _ _ _ _ _ => trivial))
  | compileModules order => exact adds_compileModules l order _ w
  | importCompiled url =>
    exact Op.keeps_bind (Op.keeps_act (adds_importCompiled url w.state) trivial)
  | cleanup => exact absurd rfl hc

/-! ## Runs -/

/-- Calls of some kind, one after the other, with the worlds before and after each of their steps.
A call may have been given up on the way. -/
inductive Run (l : Loader) (server : Server ω) (kind : Call → Prop) (w : World Session ω) :
    List (World Session ω × World Session ω) → World Session ω → Prop
  /-- No call. -/
  | refl : Run l server kind w [] w
  /-- One more call has gone on for some steps. -/
  | call {trace steps : List (World Session ω × World Session ω)} {w₁ w₂ : World Session ω}
      {c : Call} {op : Op Session Unit} (h : Run l server kind w trace w₁) (hc : kind c)
      (hp : Op.Path server (l.perform c, w₁) steps (op, w₂)) :
      Run l server kind w (trace ++ steps) w₂

namespace Run

variable {trace : List (World Session ω × World Session ω)}

/-- Where a run leads is a world that calls lead to. -/
theorem reached (h : l.Run server kind w trace w') (hw : l.Reached server (fun _ => True) w) :
    l.Reached server (fun _ => True) w' := by
  induction h with
  | refl => exact hw
  | call _ _ hp ih => exact .call ih trivial hp.steps

/-- A run in which nothing is forgotten adds. -/
theorem continues (h : l.Run server kind w trace w') (hkind : ∀ c, kind c → c ≠ .cleanup) :
    w.state.Continues w'.state := by
  induction h with
  | refl => exact .refl _
  | call _ hc hp ih =>
    exact ih.trans (adds_of_adding ((adds_perform l (hkind _ hc) _).steps hp.steps).1).toContinues

/-- Each step of a run in which nothing is forgotten adds, and so do those before and after it. -/
theorem split (h : l.Run server kind w trace w') (hkind : ∀ c, kind c → c ≠ .cleanup)
    (hw : l.Reached server (fun _ => True) w) (hmem : (w₁, w₂) ∈ trace) :
    l.Reached server (fun _ => True) w₁ ∧ w.state.Continues w₁.state ∧
      w₁.state.Continues w₂.state ∧ w₂.state.Continues w'.state := by
  induction h with
  | refl => cases hmem
  | @call trace steps w₀ w' c op h hc hp ih =>
    have hcall : (l.perform c).Keeps server (adding c.target?) (fun _ _ => True) w₀ :=
      adds_perform l (hkind c hc) w₀
    rcases List.mem_append.1 hmem with hmem | hmem
    · obtain ⟨hreached, hbefore, hstep, hafter⟩ := ih hmem
      exact ⟨hreached, hbefore, hstep,
        hafter.trans (adds_of_adding (hcall.steps hp.steps).1).toContinues⟩
    -- the call has come to the step, takes it, and goes on
    · obtain ⟨op₁, op₂, hto, hstep, hfrom⟩ := hp.split hmem
      obtain ⟨hmoved, hrest⟩ := hcall.steps hto
      obtain ⟨hmove, hrest⟩ := hrest.step hstep
      have hadds : w₁.state.Continues w₂.state := by
        rcases hmove with rfl | hadds
        · exact .refl _
        · exact hadds.toContinues
      exact ⟨.call (h.reached hw) trivial hto,
        (h.continues hkind).trans (adds_of_adding hmoved).toContinues, hadds,
        (adds_of_adding (hrest.steps hfrom).1).toContinues⟩

end Run

/-- Compiling a new module with a source that is remembered leads to the step in which what comes of
the source is registered, and changes nothing before that. -/
theorem steps_compileModule {m : Url} {source : String}
    (hnew : w.state.cache.compiled.get? m = none)
    (hsource : w.state.cache.sources.get? m = some source) :
    ReflTransGen (Task.Step server) (l.compileModule m, w)
      (Task.act (l.register m source), w) := by
  have hdone : ¬ w.state.cache.isCompiled m = true := by
    rw [Cache.isCompiled, Memo.contains, hnew]
    exact Bool.false_ne_true
  unfold compileModule fetchSource
  -- two looks at the state: the module is new, and its source is there
  refine .head (Task.step_look _ w) ?_
  rw [if_neg hdone]
  refine .head ((Task.step_look _ w).bind _) ?_
  rw [hsource]
  exact .refl

/-- So a call that compiles such a module runs through that step, and changes nothing else. -/
theorem exists_run_register {m : Url} {source : String} (hc : kind (.compileModules [m]))
    (hnew : w.state.cache.compiled.get? m = none)
    (hsource : w.state.cache.sources.get? m = some source) :
    ∃ trace, l.Run server kind w trace { w with state := (l.register m source w.state).2 } ∧
      (w, { w with state := (l.register m source w.state).2 }) ∈ trace := by
  have hsteps : Op.Steps server (l.perform (.compileModules [m]), w)
      (.call (Task.act (l.register m source)) fun _ => l.compileModules [], w) :=
    Op.steps_call (fun _ => l.compileModules []) (steps_compileModule hnew hsource)
  obtain ⟨steps, hpath⟩ := hsteps.exists_path
  -- the step itself, and the one that finds no more modules to compile
  have hregister := (hpath.tail (.call _ (.access _ _ w))).tail (.ended () _ _)
  exact ⟨_, .call .refl hc hregister, by simp⟩

/-! ## Replaced specifiers -/

/-- In the step between two states the transformer is called on the source of a module and asks for
a specifier, which leads to a target and is replaced by a blob. -/
structure Replaces (l : Loader) (s s' : Session) (m : Url) (specifier : String) (t : Url)
    (blobUrl : String) : Prop where
  /-- The transformer is called on the source of the module, and asks for the specifier. -/
  asked : ∃ source, s.cache.sources.get? m = some source ∧ s' = (l.register m source s).2 ∧
    specifier ∈ (l.transformation s m source).asked
  /-- The specifier leads to the target. -/
  target : l.specifierTarget? s.cache m specifier = some t
  /-- It is replaced by the blob. -/
  replaced : l.redirectSpecifier s.cache m specifier = some blobUrl

/-- A specifier is replaced by the blob of its target. -/
theorem Replaces.compiled (h : l.Replaces s s' m specifier t blobUrl) :
    s.cache.compiled.get? t = some (.ready blobUrl) := by
  have hreplaced := h.replaced
  rw [redirectSpecifier, h.target, Option.bind_some, Cache.blobUrl?] at hreplaced
  obtain ⟨a, ha, hblob⟩ := Option.bind_eq_some_iff.1 hreplaced
  cases a with
  | ready b => exact Option.some.inj hblob ▸ ha
  | failed u cause => cases hblob

end Loader

end ModuleLoader
