import ModuleLoader.Loader.Load
import ModuleLoader.Proofs.Graph.Closure
import ModuleLoader.Proofs.Loader.Growth

/-! # What importing depends on

A compiled module is imported exactly if it and the modules that are evaluated along with it all
have code. Else the failure of one of them is what comes of it, and nothing is imported.

* **`Session.IsReady`** is a module that has been compiled to code.
* **`Session.firstFailed_eq_none_iff`** says when none of some modules has failed.
* **`Session.CanEvaluate`** is a module that has code, with all that is evaluated along with it.
* **`Loader.importEntry_cases`** says what comes of the entry of a load. -/

namespace ModuleLoader

namespace Session

variable {s s' : Session}

/-- The module has been compiled to code. -/
def IsReady (s : Session) (m : Url) : Prop :=
  ∃ blobUrl, s.cache.compiled.get? m = some (.ready blobUrl)

/-- A module that has code keeps it. -/
theorem Grows.isReady (h : s.Grows s') {m : Url} (hm : s.IsReady m) : s'.IsReady m :=
  hm.imp fun _ hb => h.compiled m _ hb

/-- The module can be evaluated with all that is evaluated along with it. -/
def CanEvaluate (s : Session) (g : Graph) (url : Url) : Prop :=
  s.IsReady url ∧ ∀ dep ∈ g.eagerDependencies url, s.IsReady dep

/-- What can be evaluated stays so. -/
theorem Grows.canEvaluate (h : s.Grows s') {g : Graph} {url : Url} (hc : s.CanEvaluate g url) :
    s'.CanEvaluate g url :=
  ⟨h.isReady hc.1, fun dep hdep => h.isReady (hc.2 dep hdep)⟩

/-! ## Modules that have failed -/

/-- None of some modules has failed exactly if each of them that has been compiled has code. -/
theorem firstFailed_eq_none_iff {c : Cache Module} {deps : List Url} :
    firstFailed c deps = none ↔
      ∀ dep ∈ deps, ∀ a, c.compiled.get? dep = some a → a.isFailed = false := by
  induction deps with
  | nil => simp [firstFailed]
  | cons dep deps ih =>
    rw [firstFailed, List.forall_mem_cons, ← ih]
    cases hdep : c.compiled.get? dep with
    | none => simp
    | some a => cases a <;> simp [Artifact.isFailed]

/-- The first of some modules that has failed is one of them. -/
theorem of_firstFailed {c : Cache Module} {deps : List Url} {dep : Url} {a : Artifact}
    (h : firstFailed c deps = some (dep, a)) :
    dep ∈ deps ∧ c.compiled.get? dep = some a ∧ a.isFailed = true := by
  induction deps with
  | nil => cases h
  | cons d deps ih =>
    have hrest : firstFailed c deps = some (dep, a) →
        dep ∈ d :: deps ∧ c.compiled.get? dep = some a ∧ a.isFailed = true :=
      fun h => ⟨List.mem_cons_of_mem d (ih h).1, (ih h).2⟩
    rw [firstFailed] at h
    cases hd : c.compiled.get? d with
    | none =>
      rw [hd] at h
      exact hrest h
    | some b =>
      rw [hd] at h
      by_cases hb : b.isFailed = true
      · simp only [hb, if_true, Option.some.injEq, Prod.mk.injEq] at h
        obtain ⟨rfl, rfl⟩ := h
        exact ⟨List.mem_cons_self, hd, hb⟩
      · simp only [hb] at h
        exact hrest h

/-- None of the modules before the first that has failed has failed. -/
theorem exists_append_of_firstFailed {c : Cache Module} {deps : List Url} {dep : Url} {a : Artifact}
    (h : firstFailed c deps = some (dep, a)) :
    ∃ front back, deps = front ++ dep :: back ∧ firstFailed c front = none := by
  induction deps with
  | nil => cases h
  | cons d deps ih =>
    rw [firstFailed] at h
    cases hd : c.compiled.get? d with
    | none =>
      rw [hd] at h
      obtain ⟨front, back, rfl, hfront⟩ := ih h
      exact ⟨d :: front, back, rfl, by rw [firstFailed, hd]; exact hfront⟩
    | some b =>
      rw [hd] at h
      by_cases hb : b.isFailed = true
      · simp only [hb, if_true, Option.some.injEq, Prod.mk.injEq] at h
        obtain ⟨rfl, -⟩ := h
        exact ⟨[], deps, rfl, rfl⟩
      · simp only [hb] at h
        obtain ⟨front, back, rfl, hfront⟩ := ih h
        exact ⟨d :: front, back, rfl, by rw [firstFailed, hd]; simpa [hb] using hfront⟩

/-- The first of some modules that has failed comes with a failure. -/
theorem exists_failed_of_firstFailed {c : Cache Module} {deps : List Url} {dep : Url}
    {a : Artifact} (h : firstFailed c deps = some (dep, a)) : ∃ u cause, a = .failed u cause := by
  cases a with
  | ready blobUrl => cases (of_firstFailed h).2.2
  | failed u cause => exact ⟨u, cause, rfl⟩

/-! ## Blobs -/

/-- A change of the state that looks at it goes on with what it sees. -/
theorem look_bind {α : Type} (f : Session → StateM Session α) (s : Session) :
    (get >>= f) s = f s s :=
  rfl

/-- A blob that cannot be imported leaves all as it was. -/
theorem importBlob_of_error {url : Url} {blobUrl reason : String}
    (h : s.readBlob blobUrl = .error reason) :
    importBlob url blobUrl s = (.error (.importing url reason), s) := by
  rw [importBlob, look_bind, h]
  rfl

/-- A blob that is imported is remembered for its module. -/
theorem importBlob_of_ok {url : Url} {blobUrl : String} {m : Module}
    (h : s.readBlob blobUrl = .ok m) :
    importBlob url blobUrl s =
      (.ok (s.cache.insertModule url m).1,
        { s with
          serial := s.serial + 1
          events := s.events ++ [.imported url]
          cache := (s.cache.insertModule url m).2 }) := by
  rw [importBlob, look_bind, h]
  rfl

/-- What importing changes: nothing, or a module is remembered for the URL if it has none yet. -/
structure Imports (s s' : Session) (url : Url) : Prop extends s.Grows s' where
  /-- Nothing is compiled. -/
  sameCompiled : s'.cache.compiled = s.cache.compiled
  /-- No graph is remembered. -/
  sameGraphs : s'.cache.graphs = s.cache.graphs
  /-- No URL is resolved. -/
  sameResolutions : s'.cache.resolutions = s.cache.resolutions
  /-- No transformer is called. -/
  sameCompilations : s'.compilations = s.compilations
  /-- No other module is imported. -/
  sameModules : ∀ v, v ≠ url → s'.cache.modules.get? v = s.cache.modules.get? v

/-- Reporting something imports nothing. -/
theorem imports_report (e : Event) (s : Session) (url : Url) : s.Imports (report e s).2 url where
  toGrows := (searches_report e s).toGrows
  sameCompiled := rfl
  sameGraphs := rfl
  sameResolutions := rfl
  sameCompilations := rfl
  sameModules := fun _ _ => rfl

/-- Importing a blob imports one module at most. -/
theorem imports_importBlob (url : Url) (blobUrl : String) (s : Session) :
    s.Imports (importBlob url blobUrl s).2 url := by
  cases h : s.readBlob blobUrl with
  | error reason =>
    rw [importBlob_of_error h]
    exact ⟨.refl s, rfl, rfl, rfl, rfl, fun _ _ => rfl⟩
  | ok m =>
    rw [importBlob_of_ok h]
    refine ⟨?_, rfl, rfl, rfl, rfl, fun v hv => Memo.get?_insert_of_ne s.cache.modules url v m hv⟩
    exact
      { Grows.refl s with
        modules := Memo.extends_insert s.cache.modules url m
        events := List.prefix_append s.events _ }

/-! ## Compiled modules -/

/-- A module that has code, with none that has failed evaluated along with it, is imported. -/
theorem importEager_of_ready {url : Url} {graph : Option Graph} {blobUrl : String}
    (h : firstFailed s.cache (graph.elim [] (·.eagerDependencies url)) = none) :
    importEager url graph (.ready blobUrl) s = importBlob url blobUrl s := by
  simp only [importEager, consume, pure_bind, look_bind, h]

/-- A module that has failed is not imported. -/
theorem importEager_of_failed (url : Url) (graph : Option Graph) (failedUrl : Url)
    (cause : Failure) (s : Session) :
    importEager url graph (.failed failedUrl cause) s =
      (.error (.failed failedUrl cause), (report (.consumedFailed url cause) s).2) :=
  rfl

/-- A module with one that has failed evaluated along with it is not imported. -/
theorem importEager_of_firstFailed {url : Url} {graph : Option Graph} {blobUrl : String}
    {dep failedUrl : Url} {cause : Failure}
    (h : firstFailed s.cache (graph.elim [] (·.eagerDependencies url)) =
      some (dep, .failed failedUrl cause)) :
    importEager url graph (.ready blobUrl) s =
      (.error (.failed failedUrl cause), (report (.consumedFailed dep cause) s).2) := by
  simp only [importEager, consume, pure_bind, look_bind, h]
  rfl

/-- Importing a compiled module imports one module at most. -/
theorem imports_importEager (url : Url) (graph : Option Graph) (a : Artifact) (s : Session) :
    s.Imports (importEager url graph a s).2 url := by
  cases a with
  | failed failedUrl cause => exact imports_report _ s url
  | ready blobUrl =>
    cases h : firstFailed s.cache (graph.elim [] (·.eagerDependencies url)) with
    | none =>
      rw [importEager_of_ready h]
      exact imports_importBlob url blobUrl s
    | some e =>
      obtain ⟨dep, failed⟩ := e
      obtain ⟨failedUrl, cause, rfl⟩ := exists_failed_of_firstFailed h
      rw [importEager_of_firstFailed h]
      exact imports_report _ s url

end Session

/-! ## Entries -/

namespace Loader

variable {s : Session} {entry : Url} {g : Graph}

/-- An entry that has not been compiled is not imported. -/
theorem importEntry_of_notCompiled (h : s.cache.compiled.get? entry = none) :
    importEntry entry g s = (.error (.importing entry "entry was not compiled"), s) := by
  rw [importEntry, Session.look_bind, h]
  rfl

/-- The entry is imported as any compiled module is, with its graph. -/
theorem importEntry_of_compiled {a : Artifact} (h : s.cache.compiled.get? entry = some a) :
    importEntry entry g s = Session.importEager entry (some g) a s := by
  rw [importEntry, Session.look_bind, h]

/-- When all modules of the graph have been compiled, the entry is imported if it can be evaluated.
Else the entry has failed or, if it has not, one of the modules evaluated along with it, and the
failure that is remembered of that module is what comes of the entry. -/
theorem importEntry_cases (hg : g.WellFormed) (hentry : entry ∈ g.urls)
    (hcompiled : ∀ m ∈ g.urls, s.cache.isCompiled m = true) :
    (s.CanEvaluate g entry ∧ ∃ blobUrl, s.cache.compiled.get? entry = some (.ready blobUrl) ∧
        importEntry entry g s = Session.importBlob entry blobUrl s) ∨
      ∃ f u cause, (f = entry ∨ s.IsReady entry ∧ f ∈ g.eagerDependencies entry) ∧
        s.cache.compiled.get? f = some (.failed u cause) ∧
        importEntry entry g s =
          (.error (.failed u cause), (Session.report (.consumedFailed f cause) s).2) := by
  obtain ⟨a, ha⟩ := Option.isSome_iff_exists.1 (hcompiled entry hentry)
  rw [importEntry_of_compiled ha]
  cases a with
  | failed u cause =>
    exact .inr ⟨entry, u, cause, .inl rfl, ha, Session.importEager_of_failed _ _ _ _ _⟩
  | ready blobUrl =>
    cases hfirst : Session.firstFailed s.cache (g.eagerDependencies entry) with
    | none =>
      refine .inl ⟨⟨⟨blobUrl, ha⟩, fun dep hdep => ?_⟩, blobUrl, ha,
        Session.importEager_of_ready hfirst⟩
      obtain ⟨b, hb⟩ := Option.isSome_iff_exists.1
        (hcompiled dep (hg.mem_urls_of_mem_eagerDependencies hdep))
      have hready := Session.firstFailed_eq_none_iff.1 hfirst dep hdep b hb
      cases b with
      | ready blobUrl => exact ⟨blobUrl, hb⟩
      | failed u cause => cases hready
    | some e =>
      obtain ⟨f, failed⟩ := e
      obtain ⟨u, cause, rfl⟩ := Session.exists_failed_of_firstFailed hfirst
      obtain ⟨hmem, hget, -⟩ := Session.of_firstFailed hfirst
      exact .inr ⟨f, u, cause, .inr ⟨⟨blobUrl, ha⟩, hmem⟩, hget,
        Session.importEager_of_firstFailed hfirst⟩

/-- Importing the entry imports one module at most. -/
theorem imports_importEntry (entry : Url) (g : Graph) (s : Session) :
    s.Imports (importEntry entry g s).2 entry := by
  cases h : s.cache.compiled.get? entry with
  | none =>
    rw [importEntry_of_notCompiled h]
    exact ⟨.refl s, rfl, rfl, rfl, rfl, fun _ _ => rfl⟩
  | some a =>
    rw [importEntry_of_compiled h]
    exact Session.imports_importEager entry (some g) a s

/-- Importing a module on its own leaves all as it was if it has been imported or has not been
compiled. Else it is imported by a graph that has it. -/
theorem importCompiled_cases (url : Url) (s : Session) :
    (importCompiled url s).2 = s ∨ ∃ a, s.cache.compiled.get? url = some a ∧
      importCompiled url s = Session.importEager url (s.cache.graphContaining? url) a s := by
  rw [importCompiled, Session.look_bind]
  cases s.cache.modules.get? url with
  | some m => exact .inl rfl
  | none =>
    cases s.cache.compiled.get? url with
    | none => exact .inl rfl
    | some a => exact .inr ⟨a, rfl, rfl⟩

/-- Importing a compiled module imports one module at most. -/
theorem imports_importCompiled (url : Url) (s : Session) :
    s.Imports (importCompiled url s).2 url := by
  rcases importCompiled_cases url s with heq | ⟨a, -, heq⟩
  · rw [heq]
    exact ⟨.refl s, rfl, rfl, rfl, rfl, fun _ _ => rfl⟩
  · rw [heq]
    exact Session.imports_importEager url _ a s

end Loader

end ModuleLoader
