import ModuleLoader.Proofs.Loader.Outcome

/-! # Loads do not depend on what was loaded before

With a server that always answers a URL the same way, a load comes to the same whatever has been
loaded, compiled, imported, given up or forgotten before: the graph is the same, each module has
been compiled from the same source in the same way, and what comes of the entry is the same. Only
the names of blobs differ.

* **`Loader.IsRegular`** is a transformer that asks for nothing but what is scanned, and that does
  not go by the names of blobs.
* **`Loader.TreatedAlike`** says that a module has been compiled in the same way in two states, and
  **`Loader.treatedAlike_of_isCompiled`** that every module is.
* **`Loader.sameLoad_of_reached`** compares the loads of an entry after any two histories. -/

namespace ModuleLoader

open Relation

variable {ω : Type} {server : Server ω} {f : Url → Answer} {l : Loader}
variable {s s' t t' : Session} {m url : Url} {g : Graph}

/-- What came of a module but for the name of its blob: the failure, if there is one. -/
def Artifact.failure? : Artifact → Option (Url × Failure)
  | .ready _ => none
  | .failed u cause => some (u, cause)

/-- What came of a module is the same in two states but for the name of its blob. -/
def Session.FaresAlike (s t : Session) (m : Url) : Prop :=
  ∃ a b, s.cache.compiled.get? m = some a ∧ t.cache.compiled.get? m = some b ∧
    a.failure? = b.failure?

/-- The first of some modules that has failed is the same in two states if they fare alike. -/
theorem Session.firstFailed_eq_of_faresAlike {deps : List Url} (h : ∀ m ∈ deps, s.FaresAlike t m) :
    firstFailed s.cache deps = firstFailed t.cache deps := by
  induction deps with
  | nil => rfl
  | cons m deps ih =>
    rw [List.forall_mem_cons] at h
    obtain ⟨a, b, ha, hb, hab⟩ := h.1
    rw [firstFailed, firstFailed, ha, hb, ih h.2]
    cases a with
    | ready blobUrl =>
      cases b with
      | ready blobUrl' => rfl
      | failed u cause => cases hab
    | failed u cause =>
      cases b with
      | ready blobUrl => cases hab
      | failed u' cause' =>
        cases hab
        rfl

namespace Loader

/-! ## Regular transformers -/

/-- What a transformer may ask for in the source of a module: what is bare or has been scanned. -/
inductive MayAsk (l : Loader) (m : Url) (source specifier : String) : Prop
  /-- It is bare. -/
  | bare (h : isBare specifier = true)
  /-- It has been scanned. -/
  | scanned (r : Reference) (hr : r ∈ (scan l.config.scanMode source m.pathText).references)
      (h : r.specifier = specifier)

/-- The transformer asks for nothing else in the modules of a server, and what it asks for and why
it fails does not depend on what stands for a specifier, but only on whether something does. -/
structure IsRegular (l : Loader) (f : Url → Answer) : Prop where
  /-- It asks for nothing but what is bare or scanned. -/
  asks : ∀ m source redirect, (f m).moduleBody? = some source →
    ∀ specifier ∈ (l.transformer m source redirect).asked, l.MayAsk m source specifier
  /-- It does not go by names. -/
  nameless : ∀ m source redirect redirect', (f m).moduleBody? = some source →
    (∀ specifier, l.MayAsk m source specifier →
      (redirect specifier).isSome = (redirect' specifier).isSome) →
    (l.transformer m source redirect).asked = (l.transformer m source redirect').asked ∧
      ∀ cause, (l.transformer m source redirect).outcome = .error cause ↔
        (l.transformer m source redirect').outcome = .error cause

/-! ## Modules that are treated alike -/

/-- A specifier is replaced in two states by the blob of the same module, or in neither. -/
inductive ReplacedAlike (l : Loader) (f : Url → Answer) (s t : Session) (m : Url)
    (redirect redirect' : String → Option String) (specifier : String) : Prop
  /-- It stays. -/
  | stays (h : redirect specifier = none) (h' : redirect' specifier = none)
  /-- It is replaced. -/
  | replaced (u : Url) (blobUrl blobUrl' : String) (hu : resolve? specifier m = some u)
      (hs : s.cache.compiled.get? (l.targetOf f u) = some (.ready blobUrl))
      (ht : t.cache.compiled.get? (l.targetOf f u) = some (.ready blobUrl'))
      (h : redirect specifier = some blobUrl) (h' : redirect' specifier = some blobUrl')

/-- A module has been compiled in two states in the same way. -/
inductive TreatedAlike (l : Loader) (f : Url → Answer) (s t : Session) (m : Url) : Prop
  /-- There is no source, for the same reason. -/
  | missing (cause : Failure) (hsource : (f m).source m = .error cause)
      (hs : s.cache.compiled.get? m = some (.failed m cause))
      (ht : t.cache.compiled.get? m = some (.failed m cause))
  /-- There is, and the transformer was called on it with the same specifiers replaced by the blobs
  of the same modules, and came to the same. -/
  | transformed (source : String) (redirect redirect' : String → Option String) (a b : Artifact)
      (hsource : (f m).source m = .ok source)
      (hs : s.cache.compiled.get? m = some a) (ht : t.cache.compiled.get? m = some b)
      (h : l.Transformed f s m source redirect a) (h' : l.Transformed f t m source redirect' b)
      (hasked : (l.transformer m source redirect).asked =
        (l.transformer m source redirect').asked)
      (hreplaced : ∀ specifier ∈ (l.transformer m source redirect).asked,
        l.ReplacedAlike f s t m redirect redirect' specifier)
      (hab : a.failure? = b.failure?)

/-- A module that is treated alike fares alike. -/
theorem TreatedAlike.faresAlike (h : l.TreatedAlike f s t m) : s.FaresAlike t m := by
  cases h with
  | missing cause _ hs ht => exact ⟨_, _, hs, ht, rfl⟩
  | transformed source redirect redirect' a b _ hs ht _ _ _ _ hab => exact ⟨a, b, hs, ht, hab⟩

/-- A specifier that the transformer may ask for is replaced alike if what the module leads to fares
alike. -/
theorem replacedAlike_of_mayAsk {source specifier : String}
    {redirect redirect' : String → Option String} (hbody : (f m).moduleBody? = some source)
    (h : l.Redirects f s m redirect) (h' : l.Redirects f t m redirect')
    (htargets : ∀ u, l.LeadsTo f m u → s.FaresAlike t u) (hask : l.MayAsk m source specifier) :
    l.ReplacedAlike f s t m redirect redirect' specifier := by
  cases hu : resolve? specifier m with
  | none => exact .stays (h.unnamed specifier hu) (h'.unnamed specifier hu)
  | some u =>
    obtain ⟨hbare, hjoin⟩ := resolve?_eq_some_iff.1 hu
    cases hask with
    | bare hb =>
      rw [hbare] at hb
      cases hb
    | scanned r hr heq =>
      subst heq
      have hnames : l.Names f m r u := ⟨⟨source, hbody, hr⟩, hbare, hjoin⟩
      have hs := h.named r u hnames
      have ht := h'.named r u hnames
      obtain ⟨a, b, ha, hb, hab⟩ := htargets _ ⟨r, u, hnames, rfl⟩
      rw [Cache.blobUrl?, ha] at hs
      rw [Cache.blobUrl?, hb] at ht
      cases a with
      | ready blobUrl =>
        cases b with
        | ready blobUrl' => exact .replaced u blobUrl blobUrl' hu ha hb hs ht
        | failed v cause => cases hab
      | failed v cause =>
        cases b with
        | ready blobUrl => cases hab
        | failed v' cause' => exact .stays hs ht

/-- A specifier that is replaced alike is replaced in both states or in neither. -/
theorem ReplacedAlike.isSome_eq {redirect redirect' : String → Option String} {specifier : String}
    (h : l.ReplacedAlike f s t m redirect redirect' specifier) :
    (redirect specifier).isSome = (redirect' specifier).isSome := by
  cases h with
  | stays h h' => rw [h, h']
  | replaced _ _ _ _ _ _ h h' => rw [h, h']; rfl

/-- What came of calling the transformer is the same if it failed in both states for the same
reason or in neither. -/
theorem Yields.failure?_eq {outcome outcome' : Except Failure Compiled} {a b : Artifact}
    (h : l.Yields s m outcome a) (h' : l.Yields t m outcome' b)
    (hcause : ∀ cause, outcome = .error cause ↔ outcome' = .error cause) :
    a.failure? = b.failure? := by
  cases h with
  | code _ _ =>
    cases h' with
    | code _ _ => rfl
    | failure _ => cases (hcause _).2 rfl
  | failure _ =>
    cases h' with
    | code _ _ => cases (hcause _).1 rfl
    | failure _ =>
      cases (hcause _).1 rfl
      rfl

/-- A module that has been compiled in two states is treated alike if what it leads to fares
alike. -/
theorem treatedAlike_of_fated (hr : l.IsRegular f) {a b : Artifact}
    (hs : s.cache.compiled.get? m = some a) (ht : t.cache.compiled.get? m = some b)
    (h : l.Fated f s m a) (h' : l.Fated f t m b)
    (htargets : ∀ u, l.LeadsTo f m u → s.FaresAlike t u) : l.TreatedAlike f s t m := by
  -- there is a source in both states or in neither, as the answer is the same
  cases h with
  | missing cause hcause ha =>
    subst ha
    cases h' with
    | missing cause' hcause' hb =>
      rw [hcause] at hcause'
      cases hcause'
      exact .missing cause hcause hs (hb ▸ ht)
    | transformed source _ hbody _ =>
      rw [(Answer.moduleBody?_eq_some_iff _ m source).1 hbody] at hcause
      cases hcause
  | transformed source redirect hbody h =>
    have hsource := (Answer.moduleBody?_eq_some_iff _ m source).1 hbody
    cases h' with
    | missing cause hcause _ =>
      rw [hsource] at hcause
      cases hcause
    | transformed source' redirect' hbody' h' =>
      rw [hbody] at hbody'
      cases hbody'
      have hreplaced : ∀ specifier, l.MayAsk m source specifier →
          l.ReplacedAlike f s t m redirect redirect' specifier := fun specifier =>
        replacedAlike_of_mayAsk hbody h.redirects h'.redirects htargets
      obtain ⟨hasked, hcause⟩ := hr.nameless m source redirect redirect' hbody
        fun specifier hask => (hreplaced specifier hask).isSome_eq
      exact .transformed source redirect redirect' a b hsource hs ht h h' hasked
        (fun specifier hmem => hreplaced specifier (hr.asks m source redirect hbody specifier hmem))
        (h.yields.failure?_eq h'.yields hcause)

/-- A module that has been compiled after two histories has been compiled in the same way. -/
theorem treatedAlike_of_isCompiled (hr : l.IsRegular f) (h : l.Consistent f s)
    (h' : l.Consistent f t) (hs : s.cache.isCompiled m = true) (ht : t.cache.isCompiled m = true) :
    l.TreatedAlike f s t m := by
  -- the induction is on how many modules were compiled before it
  suffices ∀ n front m a back, front.length = n → s.cache.compiled.entries = front ++ (m, a) :: back →
      t.cache.isCompiled m = true → l.TreatedAlike f s t m by
    obtain ⟨front, a, back, heq⟩ := Consistent.exists_split hs
    exact this _ front m a back rfl heq ht
  intro n
  induction n using Nat.strongRecOn with
  | ind n ih =>
    intro front m a back hlength heq ht
    have hs : s.cache.isCompiled m = true := by
      rw [Cache.isCompiled, Memo.contains_iff_mem_keys, Memo.keys, heq]
      simp
    obtain ⟨a', ha'⟩ := Option.isSome_iff_exists.1 hs
    obtain ⟨b, hb⟩ := Option.isSome_iff_exists.1 ht
    refine treatedAlike_of_fated hr ha' hb (h.fated m a' ha') (h'.fated m b hb) fun u hu => ?_
    obtain ⟨⟨_, c⟩, he, rfl⟩ := List.mem_map.1 (h.behind front _ back heq u hu)
    obtain ⟨before, after, rfl⟩ := List.append_of_mem he
    refine (ih before.length ?_ before _ c (after ++ (m, a) :: back) rfl ?_
      (h'.isCompiled_of_reach ht (.single hu))).faresAlike
    · rw [List.length_append, List.length_cons] at hlength
      omega
    · rw [heq, List.append_assoc]
      rfl

/-! ## Loads that come to the same -/

/-- What comes of an entry after two loads that have compiled all modules of its graph, or have both
found a circle in it. -/
inductive SameResult (g : Graph) (url : Url) (s s' t t' : Session) :
    Except Failure Module → Except Failure Module → Prop
  /-- The graph has a circle, and nothing was compiled. -/
  | circular (circle : Graph.Cycle) (hsort : g.topologicalSort = .error circle)
      (hs : s'.cache.compiled = s.cache.compiled) (ht : t'.cache.compiled = t.cache.compiled) :
      SameResult g url s s' t t' (.error (.circularDependency circle.closing circle.path))
        (.error (.circularDependency circle.closing circle.path))
  /-- The entry was handed on to be run. -/
  | executed (order : List Url) (r r' : Except Failure Module)
      (hsort : g.topologicalSort = .ok order) (hs : ∀ m ∈ g.urls, s'.cache.isCompiled m = true)
      (ht : ∀ m ∈ g.urls, t'.cache.isCompiled m = true) (h : s'.Executes url r)
      (h' : t'.Executes url r') : SameResult g url s s' t t' r r'
  /-- The same failure came of it. -/
  | failed (order : List Url) (u : Url) (cause : Failure)
      (hsort : g.topologicalSort = .ok order) (hs : ∀ m ∈ g.urls, s'.cache.isCompiled m = true)
      (ht : ∀ m ∈ g.urls, t'.cache.isCompiled m = true) :
      SameResult g url s s' t t' (.error (.failed u cause)) (.error (.failed u cause))

/-- Two loads of an entry have come to the same: the first led from `s` to `s'`, the second from `t`
to `t'`. -/
structure SameLoad (l : Loader) (f : Url → Answer) (url : Url) (g : Graph) (s s' t t' : Session)
    (r r' : Except Failure Module) : Prop where
  /-- The graph is that of all that the entry leads to. -/
  closure : l.IsClosure f url g
  /-- The first load built it, unless the entry had been imported. -/
  graph : s.cache.modules.get? url = none → s'.cache.graphs.get? url = some g
  /-- So did the second. -/
  graph' : t.cache.modules.get? url = none → t'.cache.graphs.get? url = some g
  /-- Modules that have been compiled have been compiled in the same way. -/
  alike : ∀ m, s'.cache.isCompiled m = true → t'.cache.isCompiled m = true →
    l.TreatedAlike f s' t' m
  /-- The same came of the entry. -/
  result : SameResult g url s s' t t' r r'

/-- Where all modules of the graph fare alike, the same comes of the entry. -/
theorem sameResult_of_leaves {r r' : Except Failure Module} (hg : g.WellFormed)
    (hurl : url ∈ g.urls) (h : Leaves g url s s' r) (h' : Leaves g url t t' r')
    (halike : ∀ m, s'.cache.isCompiled m = true → t'.cache.isCompiled m = true →
      s'.FaresAlike t' m) : SameResult g url s s' t t' r r' := by
  cases h with
  | circular circle hsort hs =>
    cases h' with
    | circular circle' hsort' ht =>
      rw [hsort] at hsort'
      cases hsort'
      exact .circular circle hsort hs ht
    | concluded order _ hsort' _ _ =>
      rw [hsort] at hsort'
      cases hsort'
  | concluded order r hsort hs hr =>
    cases h' with
    | circular circle hsort' _ =>
      rw [hsort] at hsort'
      cases hsort'
    | concluded order' r' hsort' ht hr' =>
      -- what failed first is the same
      have hfirst : s'.obstacle? g url = t'.obstacle? g url := by
        refine Session.firstFailed_eq_of_faresAlike fun m hm => ?_
        have hmem : m ∈ g.urls := by
          rcases List.mem_cons.1 hm with rfl | hm
          · exact hurl
          · exact hg.mem_urls_of_mem_eagerDependencies hm
        exact halike m (hs m hmem) (ht m hmem)
      cases hr with
      | executed _ hclear h =>
        cases hr' with
        | executed _ _ h' => exact .executed order r r' hsort hs ht h h'
        | failed v u cause hfailed =>
          rw [← hfirst, hclear] at hfailed
          cases hfailed
      | failed v u cause hfailed =>
        cases hr' with
        | executed _ hclear _ =>
          rw [← hfirst, hfailed] at hclear
          cases hclear
        | failed v' u' cause' hfailed' =>
          rw [← hfirst, hfailed] at hfailed'
          cases hfailed'
          exact .failed order u cause hsort hs ht

/-- The call does not compile modules in an order that the caller has chosen. -/
def keepsOrder : Call → Bool
  | .compileModules _ => false
  | _ => true

/-- With a server that always answers a URL the same way and a transformer that asks for nothing but
what is scanned and does not go by the names of blobs, a load does not depend on what was called
before, be it finished or given up. When a load of an entry has come to an end after one history, it
does so after every other, if there may be waves enough; and then the two have come to the same. A
history may be empty. -/
theorem sameLoad_of_reached (hf : server.AnswersBy f) (hr : l.IsRegular f)
    {w₁ w₂ w₁' : World Session ω} (hw₁ : l.Reached server (keepsOrder ·) w₁)
    (hw₂ : l.Reached server (keepsOrder ·) w₂) {limit₁ : Nat} {r₁ : Except Failure Module}
    (h₁ : Op.Steps server (l.loadModule limit₁ url, w₁) (.done r₁, w₁')) :
    (∃ n, ∀ limit, n ≤ limit → Op.Terminates server (l.loadModule limit url, w₂)) ∧
      ∀ limit r₂ w₂', Op.Steps server (l.loadModule limit url, w₂) (.done r₂, w₂') →
        ∃ g, l.SameLoad f url g w₁.state w₁'.state w₂.state w₂'.state r₁ r₂ := by
  have hkind : ∀ order, ¬ keepsOrder (.compileModules order) = true := fun _ h => nomatch h
  have hs₁ := consistent_of_reached hf hkind hw₁
  have hs₂ := consistent_of_reached hf hkind hw₂
  obtain ⟨hs₁', g, hgraph, hg₁, hleaves₁⟩ :=
    leaves_of_loadModule hf (sound_of_reached hw₁) hs₁ h₁
  refine ⟨?_, fun limit r₂ w₂' h₂ => ⟨g, ?_⟩⟩
  · obtain ⟨n, hn, -⟩ := hgraph
    exact ⟨n, fun limit hlimit =>
      terminates_loadModule hf hs₂.toFaithful (Discovery.rounds_eq_of_le hn hlimit ▸ hn)⟩
  · obtain ⟨hs₂', g₂, hgraph₂, hg₂, hleaves₂⟩ :=
      leaves_of_loadModule hf (sound_of_reached hw₂) hs₂ h₂
    obtain rfl := hgraph₂.eq hgraph
    have halike : ∀ m, w₁'.state.cache.isCompiled m = true → w₂'.state.cache.isCompiled m = true →
        l.TreatedAlike f w₁'.state w₂'.state m :=
      fun m => treatedAlike_of_isCompiled hr hs₁' hs₂'
    exact ⟨isClosure_of_isGraphOf hgraph, hg₁, hg₂, halike,
      sameResult_of_leaves (hgraph.recorded (l.nodup_dependenciesAt f)).wellFormed
        (hgraph.mem_urls_iff.2 .refl) hleaves₁ hleaves₂
        fun m hm hm' => (halike m hm hm').faresAlike⟩

/-! ## A module that was compiled for another load -/

/-- What is asked for in a line does not depend on what stands for a specifier. -/
theorem exists_asked_redirect (line : List Char) : ∃ new, ∀ redirect (a : Transformer.Lines),
    (a.redirect redirect line).asked = a.asked ++ new := by
  cases hform : Transformer.importForms.findSome? fun form =>
      (Transformer.between? form.1 form.2 line).map fun s => (form.1, s, form.2) with
  | none =>
    refine ⟨[], fun redirect a => ?_⟩
    rw [Transformer.Lines.redirect, hform, List.append_nil]
  | some e =>
    obtain ⟨opening, specifier, closing⟩ := e
    refine ⟨[String.ofList specifier], fun redirect a => ?_⟩
    rw [Transformer.Lines.redirect, hform]
    dsimp only
    cases redirect (String.ofList specifier) <;> rfl

/-- What is asked for line by line, and which line is the last, does not depend on what stands for a
specifier. -/
theorem asked_redirectAll (redirect redirect' : String → Option String) (lines : List (List Char))
    {a b : Transformer.Lines} (h : a.asked = b.asked) :
    (a.redirectAll redirect lines).1.asked = (b.redirectAll redirect' lines).1.asked ∧
      (a.redirectAll redirect lines).2 = (b.redirectAll redirect' lines).2 := by
  induction lines generalizing a b with
  | nil => exact ⟨h, rfl⟩
  | cons line rest ih =>
    by_cases hlast : ∃ reason, line = '!' :: '!' :: reason
    · obtain ⟨reason, rfl⟩ := hlast
      exact ⟨h, rfl⟩
    · have hnext : ∀ redirect (a : Transformer.Lines), a.redirectAll redirect (line :: rest) =
          (a.redirect redirect line).redirectAll redirect rest := by
        intro redirect a
        rw [Transformer.Lines.redirectAll]
        exact fun reason heq => hlast ⟨reason, heq⟩
      obtain ⟨new, hnew⟩ := exists_asked_redirect line
      rw [hnext, hnext]
      exact ih (by rw [hnew, hnew, h])

/-- Replacing line by line does not go by what stands for a specifier. -/
theorem nameless_lines (m : Url) (source : String) (redirect redirect' : String → Option String) :
    (Transformer.lines m source redirect).asked = (Transformer.lines m source redirect').asked ∧
      ∀ cause, (Transformer.lines m source redirect).outcome = .error cause ↔
        (Transformer.lines m source redirect').outcome = .error cause := by
  have hall := asked_redirectAll redirect redirect' (Syntax.Dialect.splitAt '\n' source.toList)
    (rfl : (⟨[], 0, []⟩ : Transformer.Lines).asked = (⟨[], 0, []⟩ : Transformer.Lines).asked)
  unfold Transformer.lines
  cases hfirst : Transformer.Lines.redirectAll redirect ⟨[], 0, []⟩
    (Syntax.Dialect.splitAt '\n' source.toList) with
  | mk a last =>
    cases hsecond : Transformer.Lines.redirectAll redirect' ⟨[], 0, []⟩
      (Syntax.Dialect.splitAt '\n' source.toList) with
    | mk b last' =>
      rw [hfirst, hsecond] at hall
      obtain ⟨hasked, rfl⟩ := hall
      cases last with
      | none => exact ⟨hasked, fun cause => ⟨fun h => (nomatch h), fun h => (nomatch h)⟩⟩
      | some reason => exact ⟨hasked, fun cause => .rfl⟩

/-- Replacing line by line is regular for a server of a few modules if what it asks for in each of
them is scanned there. -/
theorem isRegular_lines (c : Config) {modules : List (String × String)}
    (h : ∀ e ∈ modules, ∀ specifier ∈ (Transformer.lines (fileUrl e.1) e.2 fun _ => none).asked,
      specifier ∈ specifiers (scan c.scanMode e.2 (fileUrl e.1).pathText).references) :
    IsRegular ⟨c, Transformer.lines⟩ (answerOf modules) where
  asks := by
    intro m source redirect hbody specifier hasked
    obtain ⟨e, he, rfl, rfl⟩ := exists_mem_of_moduleBody? hbody
    have hnone := (nameless_lines (fileUrl e.1) e.2 redirect fun _ => none).1
    obtain ⟨r, hr, heq⟩ := List.mem_map.1 (h e he specifier (hnone ▸ hasked))
    exact .scanned r hr heq
  nameless := fun m source redirect redirect' _ _ => nameless_lines m source redirect redirect'

/-- A loader that replaces specifiers line by line. -/
def byLines : Loader := ⟨.default, Transformer.lines⟩

/-- Two modules, the first of which imports the second. -/
def linked : List (String × String) :=
  [("main.js", "import \"./util.js\";\n"), ("util.js", "export const u = 1;\n")]

/-- Calls lead on from where calls have led, one after the other. -/
theorem Reached.performAll {kind : Call → Prop} {calls : List Call} {w w' : World Session ω}
    {op : Op Session Unit} (hw : l.Reached server kind w) (hcalls : ∀ c ∈ calls, kind c)
    (hsteps : Op.Steps server (l.performAll calls, w) (op, w')) : l.Reached server kind w' := by
  induction calls generalizing w with
  | nil =>
    rcases hsteps.cases_head with heq | ⟨d, hstep, -⟩
    · exact (Prod.mk.inj heq).2 ▸ hw
    · cases hstep
  | cons c rest ih =>
    rw [List.forall_mem_cons] at hcalls
    rcases Op.steps_bind hsteps with ⟨x', w₁, heq, hfirst⟩ | ⟨u, w₁, hfirst, hrest⟩
    · exact (Prod.mk.inj heq).2 ▸ .call hw hcalls.1 hfirst
    · exact ih (.call hw hcalls.1 hfirst) hcalls.2 hrest

/-- A load of an entry has come to an end after a history, and so has one with a new loader. -/
structure LoadsBoth (l : Loader) (server : Server Unit) (url : Url) (w w' w₀ : World Session Unit)
    (r r₀ : Except Failure Module) : Prop where
  /-- Calls have led to the first world. -/
  reached : l.Reached server (keepsOrder ·) w
  /-- A load comes to an end from there. -/
  steps : Op.Steps server (l.loadModule 3 url, w) (.done r, w')
  /-- So does one with a new loader. -/
  steps₀ : Op.Steps server (l.loadModule 3 url, l.start ()) (.done r₀, w₀)

/-- When requests are answered at once, some calls end, then a load of an entry does, and one with a
new loader; and the states after the calls and after the two loads pass a check. -/
def bothEnd (l : Loader) (server : Server Unit) (calls : List Call) (url : Url)
    (check : Session → Session → Session → Bool) : Bool :=
  let before := (l.performAll calls).run server (l.start ())
  let load := (l.loadModule 3 url).run server before.2
  let fresh := (l.loadModule 3 url).run server (l.start ())
  before.1.isSome && load.1.isSome && fresh.1.isSome &&
    check before.2.state load.2.state fresh.2.state

/-- Loads that end when their requests are answered at once have come to an end. -/
theorem exists_loadsBoth {l : Loader} {server : Server Unit} {calls : List Call} {url : Url}
    {check : Session → Session → Session → Bool} (hcalls : ∀ c ∈ calls, keepsOrder c = true)
    (h : l.bothEnd server calls url check = true) :
    ∃ w w' w₀ r r₀, l.LoadsBoth server url w w' w₀ r r₀ ∧
      check w.state w'.state w₀.state = true := by
  simp only [bothEnd, Bool.and_eq_true, Option.isSome_iff_exists] at h
  obtain ⟨⟨⟨⟨⟨⟩, hends⟩, r, hr⟩, r₀, hr₀⟩, hcheck⟩ := h
  exact ⟨_, _, _, r, r₀, ⟨Reached.performAll (.start ()) hcalls (Op.steps_of_fst_run hends),
    Op.steps_of_fst_run hr, Op.steps_of_fst_run hr₀⟩, hcheck⟩

/-- When the imported module has been loaded before, a load of the other comes to the same as with a
new loader. -/
theorem sameLoad_of_reached_linked :
    ∃ w w' w₀ r r₀ g,
      byLines.LoadsBoth (Server.ofModules linked) (fileUrl "main.js") w w' w₀ r r₀ ∧
      w.state.cache.isCompiled (fileUrl "util.js") = true ∧
      byLines.SameLoad (answerOf linked) (fileUrl "main.js") g w.state w'.state
        (byLines.start ()).state w₀.state r r₀ := by
  have hends : byLines.bothEnd (Server.ofModules linked) [.loadModule 3 (fileUrl "util.js")]
      (fileUrl "main.js") (fun s _ _ => s.cache.isCompiled (fileUrl "util.js")) = true := by
    decide +kernel
  obtain ⟨w, w', w₀, r, r₀, h, hcompiled⟩ := exists_loadsBoth (by decide) hends
  obtain ⟨g, hg⟩ := (sameLoad_of_reached (answersBy_ofModules linked)
    (isRegular_lines .default (by decide +kernel)) h.reached (.start ()) h.steps).2 3 r₀ w₀ h.steps₀
  exact ⟨w, w', w₀, r, r₀, g, h, hcompiled, hg⟩

/-! ## What does depend on it -/

/-- An entry has the same graph in two states, and the same came of each of its modules but for the
names of blobs, or nothing came of it in both. -/
def SameModules (url : Url) (s t : Session) : Prop :=
  s.cache.graphs.get? url = t.cache.graphs.get? url ∧
    ∀ m ∈ (s.cache.graphs.get? url).elim [] Graph.urls,
      (s.cache.compiled.get? m).map Artifact.failure? =
        (t.cache.compiled.get? m).map Artifact.failure?

instance (url : Url) (s t : Session) : Decidable (SameModules url s t) :=
  inferInstanceAs (Decidable (_ ∧ _))

/-- A module that imports itself, and another. -/
def selfImporting : List (String × String) :=
  [("a.js", "import \"./a.js\";\nimport \"./util.js\";\n"), ("util.js", "export const u = 1;\n")]

/-- A module that imports another, and one that has nothing to do with them. -/
def unrelated : List (String × String) := ("other.js", "export default 1;\n") :: linked

/-- A transformer that fails when a specifier is replaced by the second blob. -/
def choosy : Transformer := fun url source redirect =>
  let t := Transformer.lines url source redirect
  if t.asked.any (fun specifier => redirect specifier = some "blob:null/00000002") then
    .failed url t.asked "not this one"
  else t

/-- It asks for nothing but what is scanned. -/
theorem mayAsk_of_mem_asked_choosy {modules : List (String × String)}
    (h : byLines.IsRegular (answerOf modules)) {source specifier : String}
    {redirect : String → Option String} (hbody : (answerOf modules m).moduleBody? = some source)
    (hasked : specifier ∈ (choosy m source redirect).asked) :
    Loader.MayAsk ⟨.default, choosy⟩ m source specifier := by
  have hsame : (choosy m source redirect).asked = (Transformer.lines m source redirect).asked := by
    unfold choosy
    dsimp only
    split <;> rfl
  cases h.asks m source redirect hbody specifier (hsame ▸ hasked) with
  | bare hbare => exact .bare hbare
  | scanned r hr heq => exact .scanned r hr heq

/-- A load may leave something else behind than with a new loader: a module beside a circle has code
that had been compiled before; a transformer that goes by the names of blobs fails when these are
others; and a module that has been imported on its own has no graph. -/
theorem not_sameModules_of_history :
    (byLines.IsRegular (answerOf selfImporting) ∧ ∃ w w' w₀ r r₀,
      byLines.LoadsBoth (Server.ofModules selfImporting) (fileUrl "a.js") w w' w₀ r r₀ ∧
      ¬ SameModules (fileUrl "a.js") w'.state w₀.state) ∧
    ((∀ m source redirect, (answerOf unrelated m).moduleBody? = some source →
        ∀ specifier ∈ (choosy m source redirect).asked,
          Loader.MayAsk ⟨.default, choosy⟩ m source specifier) ∧ ∃ w w' w₀ r r₀,
      Loader.LoadsBoth ⟨.default, choosy⟩ (Server.ofModules unrelated) (fileUrl "main.js") w w' w₀
        r r₀ ∧
      ¬ SameModules (fileUrl "main.js") w'.state w₀.state) ∧
    (byLines.IsRegular (answerOf linked) ∧ ∃ w w' w₀ r r₀,
      byLines.LoadsBoth (Server.ofModules linked) (fileUrl "util.js") w w' w₀ r r₀ ∧
      ¬ SameModules (fileUrl "util.js") w'.state w₀.state) := by
  refine ⟨⟨isRegular_lines .default (by decide +kernel), ?_⟩, ⟨?_, ?_⟩,
    ⟨isRegular_lines .default (by decide +kernel), ?_⟩⟩
  · have hends : byLines.bothEnd (Server.ofModules selfImporting)
        [.loadModule 3 (fileUrl "util.js")] (fileUrl "a.js")
        (fun _ s s₀ => !decide (SameModules (fileUrl "a.js") s s₀)) = true := by
      decide +kernel
    obtain ⟨w, w', w₀, r, r₀, h, hnot⟩ := exists_loadsBoth (by decide) hends
    exact ⟨w, w', w₀, r, r₀, h, by simpa using hnot⟩
  · have hregular : byLines.IsRegular (answerOf unrelated) :=
      isRegular_lines .default (by decide +kernel)
    exact fun m source redirect hbody specifier => mayAsk_of_mem_asked_choosy hregular hbody
  · have hends : Loader.bothEnd ⟨.default, choosy⟩ (Server.ofModules unrelated)
        [.loadModule 3 (fileUrl "other.js")] (fileUrl "main.js")
        (fun _ s s₀ => !decide (SameModules (fileUrl "main.js") s s₀)) = true := by
      decide +kernel
    obtain ⟨w, w', w₀, r, r₀, h, hnot⟩ := exists_loadsBoth (by decide) hends
    exact ⟨w, w', w₀, r, r₀, h, by simpa using hnot⟩
  · have hends : byLines.bothEnd (Server.ofModules linked)
        [.loadModule 3 (fileUrl "main.js"), .importCompiled (fileUrl "util.js")] (fileUrl "util.js")
        (fun _ s s₀ => !decide (SameModules (fileUrl "util.js") s s₀)) = true := by
      decide +kernel
    obtain ⟨w, w', w₀, r, r₀, h, hnot⟩ := exists_loadsBoth (by decide) hends
    exact ⟨w, w', w₀, r, r₀, h, by simpa using hnot⟩

end Loader

end ModuleLoader
