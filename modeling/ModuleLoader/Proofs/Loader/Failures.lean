import ModuleLoader.Proofs.Loader.Compilation

/-! # Failures stay where they are

What becomes of a module when it is compiled is decided by its own source and its own
transformation. A load comes to something exactly if the entry and the modules that are evaluated
along with it have code.

* **`Loader.finish`** is what a load does once it has the graph.
* **`Loader.fate`** is what becomes of a module at its turn, and **`Loader.Fared`** says so of a
  module in the end.
* **`Loader.Concludes`** says what comes of the entry.
* **`Loader.failures_of_load`** puts these together for a whole load. -/

namespace ModuleLoader.Loader

open Relation

variable {l : Loader} {s s' : Session} {ω : Type} {server : Server ω}

/-! ## What a load does once it has the graph -/

/-- What a load does once it has the graph: it sorts it, compiles its modules and imports the
entry. -/
def finish (l : Loader) (url : Url) (g : Graph) : Op Session (Except Failure Module) :=
  match g.topologicalSort with
  | .error circle => return .error (.circularDependency circle.closing circle.path)
  | .ok order => do
    l.compileModules order
    Op.act (importEntry url g)

/-- A load of a module that has not been imported comes to an end exactly by building the graph and
going on with it. -/
theorem steps_loadModule_iff {limit : Nat} {url : Url} {w w' : World Session ω}
    {r : Except Failure Module} (h : w.state.cache.modules.get? url = none) :
    Op.Steps server (l.loadModule limit url, w) (.done r, w') ↔
      ∃ g w₁, Op.Steps server (l.buildGraph limit url, w) (.done g, w₁) ∧
        Op.Steps server (l.finish url g, w₁) (.done r, w') := by
  rw [← Op.steps_bind_done]
  unfold loadModule
  rw [Op.steps_look_iff, h]
  exact .rfl

/-- Compiling modules is work with one task in every stage. -/
theorem isSequential_compileModules (l : Loader) (order : List Url) :
    (l.compileModules order).IsSequential := by
  induction order with
  | nil => trivial
  | cons m order ih => exact Op.IsSequential.bind (fun _ => trivial) fun _ => ih

/-- What a load does with the graph is work with one task in every stage. -/
theorem isSequential_finish (l : Loader) (url : Url) (g : Graph) :
    (l.finish url g).IsSequential := by
  unfold finish
  cases g.topologicalSort with
  | error circle => trivial
  | ok order => exact (isSequential_compileModules l order).bind fun _ => fun _ => trivial

/-! ## The turn of a module -/

/-- Fetching a source is searching, and a failure to get it is about the module. -/
theorem searches_run_fetchSource (server : Server ω) (m : Url) (w : World Session ω) :
    w.state.Searches ((fetchSource m).run server w).2.state :=
  searches_of_searching (keeps_fetchSource m [] w).alone.run.1

/-- What keeps an answer from being the source of a module is about that module. -/
theorem url?_of_source {a : Answer} {m : Url} {cause : Failure} (h : a.source m = .error cause) :
    cause.url? = some m := by
  cases a with
  | unanswered reasons =>
    cases h
    rfl
  | response r =>
    rw [Answer.source, Response.source] at h
    split at h
    · cases h
      rfl
    · split at h
      · cases h
        rfl
      · cases h

/-- Fetching a source that is remembered comes to that. -/
theorem run_fetchSource_of_some {m : Url} {w : World Session ω} {source : String}
    (h : w.state.cache.sources.get? m = some source) :
    (fetchSource m).run server w = (.ok source, w) := by
  rw [fetchSource, Task.run_look, h]
  rfl

/-- Fetching a source that is not remembered comes to what the answer stands for, and a source is
remembered then. -/
theorem run_fetchSource_of_none {m : Url} {w : World Session ω}
    (h : w.state.cache.sources.get? m = none) :
    (fetchSource m).run server w =
      match (World.ask server ⟨m, .source⟩ w).1.source m with
      | .error cause => (.error cause, (World.ask server ⟨m, .source⟩ w).2)
      | .ok text => (.ok text, { (World.ask server ⟨m, .source⟩ w).2 with
          state := { w.state with cache :=
            { w.state.cache with sources := w.state.cache.sources.insert m text } } }) := by
  rw [fetchSource, Task.run_look, h]
  dsimp only
  rw [Task.run_ask]
  cases (World.ask server ⟨m, .source⟩ w).1.source m with
  | error cause => rfl
  | ok text =>
    have hget : (w.state.cache.sources.insert m text).get? m = some text := by
      rw [Memo.get?_insert_self, h]
      rfl
    exact congrArg (fun t : Option String => (Except.ok (t.getD text), _)) hget

/-- The source of a module cannot be had only for a failure that is about the module. -/
theorem url?_of_run_fetchSource {m : Url} {w : World Session ω} {cause : Failure}
    (h : ((fetchSource m).run server w).1 = .error cause) : cause.url? = some m := by
  cases hsource : w.state.cache.sources.get? m with
  | some source =>
    rw [run_fetchSource_of_some hsource] at h
    cases h
  | none =>
    rw [run_fetchSource_of_none hsource] at h
    cases hanswer : (World.ask server ⟨m, .source⟩ w).1.source m with
    | error e =>
      rw [hanswer] at h
      cases h
      exact url?_of_source hanswer
    | ok text =>
      rw [hanswer] at h
      cases h

/-- What becomes of a module at its turn: what came of fetching its source or, when that could be
had, of the transformation. -/
def fate (l : Loader) (server : Server ω) (m : Url) (w : World Session ω) :
    Except Failure Compiled :=
  match (fetchSource m).run server w with
  | (.error cause, _) => .error cause
  | (.ok source, w) => (l.transformation w.state m source).outcome

/-- What comes of a transformation depends on the blobs alone. -/
theorem artifactOf_eq {m : Url} {outcome : Except Failure Compiled} (h : s'.blobs = s.blobs) :
    artifactOf s' m outcome = artifactOf s m outcome := by
  cases outcome with
  | ok compiled => rw [artifactOf, artifactOf, h]
  | error cause => rfl

/-- At its turn, a module that has not been compiled is compiled to its fate. -/
theorem compiled_run_compileModule (l : Loader) (server : Server ω) (m : Url)
    (w : World Session ω) :
    ((l.compileModule m).run server w).2.state.cache.compiled =
      w.state.cache.compiled.insert m (artifactOf w.state m (l.fate server m w)) := by
  rw [compileModule, Task.run_look]
  by_cases hm : w.state.cache.isCompiled m = true
  -- writing what has been compiled before would change nothing
  · obtain ⟨a, ha⟩ := Option.isSome_iff_exists.1 hm
    rw [if_pos hm, Memo.insert_of_get?_some _ m _ a ha]
    rfl
  · rw [if_neg hm, Task.run_bind]
    have hsearches := searches_run_fetchSource server m w
    rw [fate]
    cases hfetch : (fetchSource m).run server w with
    | mk r w₁ =>
      rw [hfetch] at hsearches
      cases r with
      | ok source =>
        have h := (compiles_register l m source w₁.state).compiled
        rw [hsearches.sameCompiled] at h
        rw [artifactOf_eq hsearches.sameBlobs] at h
        exact h
      | error cause =>
        have h := (compiles_registerFailure m cause w₁.state).compiled
        rw [hsearches.sameCompiled] at h
        exact h

/-! ## All turns -/

/-- The world when some modules have been compiled in their order. -/
def afterCompiling (l : Loader) (server : Server ω) (order : List Url) (w : World Session ω) :
    World Session ω :=
  ((l.compileModules order).run server w).2

/-- Compiling some modules always ends. -/
theorem run_compileModules (l : Loader) (server : Server ω) (order : List Url)
    (w : World Session ω) :
    (l.compileModules order).run server w = (some (), l.afterCompiling server order w) := by
  induction order generalizing w with
  | nil => rfl
  | cons m order ih => exact ih ((l.compileModule m).run server w).2

/-- The first module has its turn before the others. -/
theorem afterCompiling_cons (l : Loader) (server : Server ω) (m : Url) (order : List Url)
    (w : World Session ω) :
    l.afterCompiling server (m :: order) w =
      l.afterCompiling server order ((l.compileModule m).run server w).2 :=
  rfl

/-- Some modules have their turns before the others. -/
theorem afterCompiling_append (l : Loader) (server : Server ω) (front back : List Url)
    (w : World Session ω) :
    l.afterCompiling server (front ++ back) w =
      l.afterCompiling server back (l.afterCompiling server front w) := by
  induction front generalizing w with
  | nil => rfl
  | cons m front ih => exact ih ((l.compileModule m).run server w).2

/-- What has been compiled stays. -/
theorem extends_afterCompiling (l : Loader) (server : Server ω) (order : List Url)
    (w : World Session ω) :
    w.state.cache.compiled.Extends (l.afterCompiling server order w).state.cache.compiled := by
  induction order generalizing w with
  | nil => exact .refl _
  | cons m order ih =>
    rw [afterCompiling_cons]
    refine Memo.Extends.trans ?_ (ih _)
    rw [compiled_run_compileModule]
    exact Memo.extends_insert _ m _

/-- A module whose turn does not come is left as it is. -/
theorem compiled_afterCompiling_of_notMem (l : Loader) (server : Server ω) {order : List Url}
    {v : Url} (hv : v ∉ order) (w : World Session ω) :
    (l.afterCompiling server order w).state.cache.compiled.get? v =
      w.state.cache.compiled.get? v := by
  induction order generalizing w with
  | nil => rfl
  | cons m order ih =>
    rw [List.mem_cons, not_or] at hv
    rw [afterCompiling_cons, ih hv.2, compiled_run_compileModule,
      Memo.get?_insert_of_ne _ m v _ hv.1]

/-- A module that had not been compiled is compiled to its fate, whatever becomes of the others. -/
theorem compiled_afterCompiling (l : Loader) (server : Server ω) {front : List Url} {m : Url}
    (hm : m ∉ front) (back : List Url) {w : World Session ω}
    (hnew : w.state.cache.compiled.get? m = none) :
    (l.afterCompiling server (front ++ m :: back) w).state.cache.compiled.get? m =
      some (artifactOf (l.afterCompiling server front w).state m
        (l.fate server m (l.afterCompiling server front w))) := by
  rw [afterCompiling_append, afterCompiling_cons]
  refine extends_afterCompiling l server back _ m _ ?_
  rw [compiled_run_compileModule, Memo.get?_insert_self,
    compiled_afterCompiling_of_notMem l server hm, hnew]
  rfl

/-- All modules have been compiled in the end. -/
theorem isCompiled_afterCompiling (l : Loader) (server : Server ω) {order : List Url} {m : Url}
    (hm : m ∈ order) (w : World Session ω) :
    (l.afterCompiling server order w).state.cache.isCompiled m = true := by
  obtain ⟨front, back, rfl⟩ := List.append_of_mem hm
  rw [afterCompiling_append, afterCompiling_cons]
  refine (extends_afterCompiling l server back _).contains ?_
  rw [compiled_run_compileModule]
  exact Memo.contains_insert _ m _

/-- A sound state stays sound when modules are compiled. -/
theorem sound_afterCompiling (server : Server ω) (order : List Url) {w : World Session ω}
    (hs : l.Sound w.state) :
    l.Sound (l.afterCompiling server order w).state :=
  sound_of_staying ((keeps_perform (.compileModules order) hs).steps
    (Op.steps_of_run (run_compileModules l server order w))).1 hs

/-- What a load does with a graph that it can sort ends in one way. -/
theorem steps_finish_iff {url : Url} {g : Graph} {order : List Url}
    (hsort : g.topologicalSort = .ok order) {w w' : World Session ω}
    {r : Except Failure Module} :
    Op.Steps server (l.finish url g, w) (.done r, w') ↔
      r = (importEntry url g (l.afterCompiling server order w).state).1 ∧
        w' = { l.afterCompiling server order w with
          state := (importEntry url g (l.afterCompiling server order w).state).2 } := by
  have hrun : (l.finish url g).run server w =
      (some (importEntry url g (l.afterCompiling server order w).state).1,
        { l.afterCompiling server order w with
          state := (importEntry url g (l.afterCompiling server order w).state).2 }) := by
    rw [finish, hsort]
    exact Op.run_bind (run_compileModules l server order w)
  rw [Op.steps_done_iff (isSequential_finish l url g), hrun, Prod.mk.injEq, Option.some.injEq]
  constructor <;> rintro ⟨rfl, rfl⟩ <;> exact ⟨rfl, rfl⟩

/-! ## The outcome -/

/-- What comes of a blob is no failure of a module. -/
theorem importBlob_ne_failed (url u : Url) (blobUrl : String) (cause : Failure) (s : Session) :
    (Session.importBlob url blobUrl s).1 ≠ .error (.failed u cause) := by
  cases h : s.readBlob blobUrl with
  | error reason =>
    rw [Session.importBlob_of_error h]
    exact fun h => nomatch h
  | ok m =>
    rw [Session.importBlob_of_ok h]
    exact fun h => nomatch h

/-- A module can be evaluated exactly if it and all that it reaches by edges that are not lazy have
code. -/
theorem canEvaluate_iff {g : Graph} {url : Url} :
    s.CanEvaluate g url ↔ ∀ m, ReflTransGen g.ImportsEagerly url m → s.IsReady m := by
  constructor
  · rintro ⟨hurl, hdeps⟩ m hm
    rcases reflTransGen_iff_eq_or_transGen.1 hm with rfl | hm
    · exact hurl
    · exact hdeps m ((g.mem_eagerDependencies_iff url m).2 hm)
  · intro h
    refine ⟨h url .refl, fun dep hdep => h dep ?_⟩
    exact ((g.mem_eagerDependencies_iff url dep).1 hdep).to_reflTransGen

/-- The first of some modules that has failed is the same wherever they have fared the same. -/
theorem firstFailed_congr {c c' : Cache Module} {deps : List Url}
    (h : ∀ dep ∈ deps, c'.compiled.get? dep = c.compiled.get? dep) :
    Session.firstFailed c' deps = Session.firstFailed c deps := by
  induction deps with
  | nil => rfl
  | cons dep deps ih =>
    rw [List.forall_mem_cons] at h
    rw [Session.firstFailed, Session.firstFailed, h.1, ih h.2]

/-- What comes of the entry depends on what was compiled only as far as the entry and the modules
evaluated along with it go. -/
theorem importEntry_congr {url : Url} {g : Graph} (hblobs : s'.blobs = s.blobs)
    (hserial : s'.serial = s.serial) (hmodules : s'.cache.modules = s.cache.modules)
    (h : ∀ m, ReflTransGen g.ImportsEagerly url m →
      s'.cache.compiled.get? m = s.cache.compiled.get? m) :
    (importEntry url g s').1 = (importEntry url g s).1 := by
  have hurl := h url .refl
  have hfirst : Session.firstFailed s'.cache (g.eagerDependencies url) =
      Session.firstFailed s.cache (g.eagerDependencies url) :=
    firstFailed_congr fun dep hdep =>
      h dep ((g.mem_eagerDependencies_iff url dep).1 hdep).to_reflTransGen
  -- reading a blob does not look at what was compiled at all
  have hblob : ∀ blobUrl,
      (Session.importBlob url blobUrl s').1 = (Session.importBlob url blobUrl s).1 := by
    intro blobUrl
    have hread : s'.readBlob blobUrl = s.readBlob blobUrl := by
      rw [Session.readBlob, Session.readBlob, hblobs, hserial]
    cases hr : s.readBlob blobUrl with
    | error reason =>
      rw [Session.importBlob_of_error hr, Session.importBlob_of_error (hread.trans hr)]
    | ok m =>
      rw [Session.importBlob_of_ok hr, Session.importBlob_of_ok (hread.trans hr)]
      dsimp only [Cache.insertModule]
      rw [hmodules]
  cases ha : s.cache.compiled.get? url with
  | none =>
    rw [importEntry_of_notCompiled ha, importEntry_of_notCompiled (hurl.trans ha)]
  | some a =>
    rw [importEntry_of_compiled ha, importEntry_of_compiled (hurl.trans ha)]
    cases a with
    | failed u cause => rfl
    | ready blobUrl =>
      cases hf : Session.firstFailed s.cache (g.eagerDependencies url) with
      | none =>
        have hnew : Session.importEager url (some g) (.ready blobUrl) s' = _ :=
          Session.importEager_of_ready (hfirst.trans hf)
        have hold : Session.importEager url (some g) (.ready blobUrl) s = _ :=
          Session.importEager_of_ready hf
        rw [hnew, hold]
        exact hblob blobUrl
      | some e =>
        obtain ⟨dep, failed⟩ := e
        obtain ⟨u, cause, rfl⟩ := Session.exists_failed_of_firstFailed hf
        have hnew : Session.importEager url (some g) (.ready blobUrl) s' = _ :=
          Session.importEager_of_firstFailed (hfirst.trans hf)
        have hold : Session.importEager url (some g) (.ready blobUrl) s = _ :=
          Session.importEager_of_firstFailed hf
        rw [hnew, hold]

/-- A failure to compile a module is about that module, when it is that of a request or of the
compiler. -/
theorem url?_of_compiler {j : JsxConfig} {m : Url} {source : String}
    {redirect : String → Option String} {cause : Failure}
    (h : (Transformer.compiler j m source redirect).outcome = .error cause) :
    cause.url? = some m := by
  unfold Transformer.compiler at h
  dsimp only at h
  split at h
  · cases h
    rfl
  · split at h
    · cases h
      rfl
    · cases h

/-- The fate of a module is a failure exactly if its source cannot be had or the transformer fails
on it. -/
theorem fate_eq_error_iff {m : Url} {w : World Session ω} {cause : Failure} :
    l.fate server m w = .error cause ↔
      ((fetchSource m).run server w).1 = .error cause ∨
        ∃ source, ((fetchSource m).run server w).1 = .ok source ∧
          (l.transformation ((fetchSource m).run server w).2.state m source).outcome =
            .error cause := by
  rw [fate]
  cases (fetchSource m).run server w with
  | mk r w₁ => cases r <;> simp

/-- What became of a module whose turn came in the world `w`. -/
structure Fared (l : Loader) (server : Server ω) (m : Url) (w : World Session ω) (s : Session) :
    Prop where
  /-- It has failed exactly if its own source could not be had or the transformer failed on it, and
  the failure is its own. -/
  failed_iff : ∀ u cause, s.cache.compiled.get? m = some (.failed u cause) ↔
    u = m ∧ (((fetchSource m).run server w).1 = .error cause ∨
      ∃ source, ((fetchSource m).run server w).1 = .ok source ∧
        (l.transformation ((fetchSource m).run server w).2.state m source).outcome =
          .error cause)
  /-- It has code otherwise. -/
  ready_or_failed : s.IsReady m ∨ ∃ cause, s.cache.compiled.get? m = some (.failed m cause)
  /-- What keeps its source from being had is about the module. -/
  url_of_fetch : ∀ cause, ((fetchSource m).run server w).1 = .error cause → cause.url? = some m
  /-- What the compiler fails with is about the module. -/
  url_of_compiler : ∀ j cause, l.transformer = Transformer.compiler j →
    s.cache.compiled.get? m = some (.failed m cause) → cause.url? = some m

/-- A module that had not been compiled has fared as its turn went. -/
theorem fared_afterCompiling (l : Loader) (server : Server ω) {front : List Url} {m : Url}
    (hm : m ∉ front) (back : List Url) {w : World Session ω}
    (hnew : w.state.cache.compiled.get? m = none) :
    l.Fared server m (l.afterCompiling server front w)
      (l.afterCompiling server (front ++ m :: back) w).state := by
  have hturn := compiled_afterCompiling l server hm back hnew
  -- a failure that is registered for a module is about it, so nothing is left to choose for `u`
  have hfate : ∀ u cause, (l.afterCompiling server (front ++ m :: back) w).state.cache.compiled.get?
        m = some (.failed u cause) ↔
      u = m ∧ l.fate server m (l.afterCompiling server front w) = .error cause := by
    intro u cause
    rw [hturn, Option.some.injEq]
    cases l.fate server m (l.afterCompiling server front w) with
    | ok compiled => simp [artifactOf]
    | error e => simp [artifactOf, eq_comm]
  refine ⟨fun u cause => ?_, ?_, fun cause => url?_of_run_fetchSource, fun j cause hj hfailed => ?_⟩
  · rw [hfate, fate_eq_error_iff]
  · cases hresult : l.fate server m (l.afterCompiling server front w) with
    | ok compiled =>
      rw [hresult] at hturn
      exact .inl ⟨_, hturn⟩
    | error cause => exact .inr ⟨cause, (hfate m cause).2 ⟨rfl, hresult⟩⟩
  · rcases fate_eq_error_iff.1 ((hfate m cause).1 hfailed).2 with hfetch | ⟨source, -, houtcome⟩
    · exact url?_of_run_fetchSource hfetch
    · rw [transformation, hj] at houtcome
      exact url?_of_compiler houtcome

/-- What comes of the entry of a graph in a state in which all its modules have been compiled. -/
structure Concludes (g : Graph) (entry : Url) (s : Session) : Prop where
  /-- The entry is imported exactly if it and all that is evaluated along with it have code. -/
  imported_iff : (∃ blobUrl, s.cache.compiled.get? entry = some (.ready blobUrl) ∧
      importEntry entry g s = Session.importBlob entry blobUrl s) ↔
    ∀ m, ReflTransGen g.ImportsEagerly entry m → s.IsReady m
  /-- Otherwise the entry has failed or, if it has code, a module that is evaluated along with it
  has, and that failure is what comes of the entry. -/
  failed : (∃ m, ReflTransGen g.ImportsEagerly entry m ∧ ¬ s.IsReady m) →
    ∃ f cause, (f = entry ∨ s.IsReady entry ∧ TransGen g.ImportsEagerly entry f) ∧
      s.cache.compiled.get? f = some (.failed f cause) ∧
      importEntry entry g s =
        (.error (.failed f cause), (Session.report (.consumedFailed f cause) s).2)
  /-- What became of modules that are not evaluated along with the entry does not matter. -/
  result_eq : ∀ s' : Session, s'.blobs = s.blobs → s'.serial = s.serial →
    s'.cache.modules = s.cache.modules →
    (∀ m, ReflTransGen g.ImportsEagerly entry m →
      s'.cache.compiled.get? m = s.cache.compiled.get? m) →
    (importEntry entry g s').1 = (importEntry entry g s).1

/-- When all modules of a graph have been compiled, its entry comes to a conclusion. -/
theorem concludes_of_isCompiled {entry : Url} {g : Graph} (hs : l.Sound s) (hg : g.WellFormed)
    (hentry : entry ∈ g.urls) (hcompiled : ∀ m ∈ g.urls, s.cache.isCompiled m = true) :
    Concludes g entry s := by
  have hcases := importEntry_cases hg hentry hcompiled
  refine ⟨⟨?_, fun hready => ?_⟩, ?_, fun s' hblobs hserial hmodules h =>
    importEntry_congr hblobs hserial hmodules h⟩
  · rintro ⟨blobUrl, -, himport⟩
    rcases hcases with ⟨hcan, -⟩ | ⟨f, u, cause, -, -, hfailed⟩
    · exact canEvaluate_iff.1 hcan
    · rw [hfailed] at himport
      exact absurd (congrArg Prod.fst himport).symm
        (importBlob_ne_failed entry u blobUrl cause s)
  · rcases hcases with ⟨-, hblob⟩ | ⟨f, u, cause, hf, hfailed, -⟩
    · exact hblob
    · obtain ⟨blobUrl, hblob⟩ : s.IsReady f := by
        rcases hf with rfl | ⟨-, hf⟩
        · exact hready f .refl
        · exact hready f ((g.mem_eagerDependencies_iff entry f).1 hf).to_reflTransGen
      rw [hfailed] at hblob
      cases hblob
  · rintro ⟨m, hm, hnot⟩
    rcases hcases with ⟨hcan, -⟩ | ⟨f, u, cause, hf, hfailed, himport⟩
    · exact absurd (canEvaluate_iff.1 hcan m hm) hnot
    · obtain rfl := hs.failed f u cause hfailed
      refine ⟨u, cause, hf.imp_right fun h => ⟨h.1, ?_⟩, hfailed, himport⟩
      exact (g.mem_eagerDependencies_iff entry u).1 h.2

/-- A graph that was built and can be sorted has no circle. -/
theorem acyclic_of_buildGraph {w w₁ : World Session ω} {limit : Nat} {url : Url} {g : Graph}
    (hs : l.Sound w.state)
    (hbuild : Op.Steps server (l.buildGraph limit url, w) (.done g, w₁))
    (hsort : ∃ order, g.topologicalSort = .ok order) : g.Acyclic := by
  obtain ⟨hmoved, hend⟩ := (keeps_buildGraph l limit url w).steps hbuild
  have hd := (sound_of_preparing hmoved hs).described url g hend
  exact (Graph.exists_topologicalSort_iff hd.wellFormed).1 hsort

/-- When a module that has not been imported is loaded, the load builds a graph and ends with what
it does with that. If the graph has no circle, the load does come to an end, and to one only. All
modules of the graph are compiled then, each that had not been compiled before has fared as its own
turn went, and what comes of the entry is decided by it and by what is evaluated along with it. -/
theorem failures_of_load {kind : Call → Prop} {w w₁ : World Session ω} {limit : Nat} {url : Url}
    {g : Graph} (hw : l.Reached server kind w) (hmodule : w.state.cache.modules.get? url = none)
    (hbuild : Op.Steps server (l.buildGraph limit url, w) (.done g, w₁)) (hg : g.Acyclic) :
    (∀ r w', Op.Steps server (l.loadModule limit url, w) (.done r, w') ↔
        ∃ g w₁, Op.Steps server (l.buildGraph limit url, w) (.done g, w₁) ∧
          Op.Steps server (l.finish url g, w₁) (.done r, w')) ∧
      ∃ order w₂, g.topologicalSort = .ok order ∧ (∀ m, m ∈ order ↔ m ∈ g.urls) ∧
        w₂ = l.afterCompiling server order w₁ ∧
        (∀ r w', Op.Steps server (l.finish url g, w₁) (.done r, w') ↔
          r = (importEntry url g w₂.state).1 ∧
            w' = { w₂ with state := (importEntry url g w₂.state).2 }) ∧
        (∀ m ∈ g.urls, w₂.state.cache.isCompiled m = true) ∧
        (∀ front m back, order = front ++ m :: back → w.state.cache.compiled.get? m = none →
          l.Fared server m (l.afterCompiling server front w₁) w₂.state) ∧
        Concludes g url w₂.state := by
  obtain ⟨hmoved, hend⟩ := (keeps_buildGraph l limit url w).steps hbuild
  have hs₁ := sound_of_preparing hmoved (sound_of_reached hw)
  have hd := hs₁.described url g hend
  obtain ⟨order, hsort⟩ := (Graph.exists_topologicalSort_iff hd.wellFormed).2 hg
  obtain ⟨hsorted, hmem⟩ := Graph.sorted_of_topologicalSort hd.wellFormed hsort
  have hcompiled : ∀ m ∈ g.urls,
      (l.afterCompiling server order w₁).state.cache.isCompiled m = true :=
    fun m hm => isCompiled_afterCompiling l server ((hmem m).2 hm) w₁
  refine ⟨fun r w' => steps_loadModule_iff hmodule, order, _, hsort, hmem, rfl,
    fun r w' => steps_finish_iff hsort, hcompiled, ?_,
    concludes_of_isCompiled (sound_afterCompiling server order hs₁) hd.wellFormed hd.entry_mem
      hcompiled⟩
  rintro front m back rfl hnew
  -- building the graph has compiled nothing
  have hnew₁ : w₁.state.cache.compiled.get? m = none := by
    rw [compiled_of_preparing hmoved]
    exact hnew
  -- the turn is the only one of the module
  have hfront : m ∉ front :=
    fun h => (List.nodup_append.1 hsorted.nodup).2.2 m h m List.mem_cons_self rfl
  exact fared_afterCompiling l server hfront back hnew₁

/-- A module that imports another, and one that there is not when it is wanted. -/
def importingLazily : List (String × String) :=
  [("main.js", "import \x7b u \x7d from \"./util.js\";\nimport(\"./gone.js\");\n"),
    ("util.js", "export const u = 1;\n")]

/-- The graph of the module has the one that there is not, and a load compiles that, too. -/
theorem failures_of_load_importingLazily :
    ∃ g w₁ order w₂,
      Op.Steps (Server.ofModules importingLazily)
        (default.buildGraph 3 (fileUrl "main.js"), default.start ()) (.done g, w₁) ∧
      g.Acyclic ∧ g.topologicalSort = .ok order ∧ fileUrl "gone.js" ∈ g.urls ∧
      w₂ = default.afterCompiling (Server.ofModules importingLazily) order w₁ ∧
      w₂.state.cache.isCompiled (fileUrl "gone.js") = true := by
  have hrun : ((default.buildGraph 3 (fileUrl "main.js")).run (Server.ofModules importingLazily)
      (default.start ())).1.any (fun g =>
        g.topologicalSort.isOk && decide (fileUrl "gone.js" ∈ g.urls)) = true := by
    decide +kernel
  obtain ⟨g, hg, hgraph⟩ := (Option.any_eq_true _ _).1 hrun
  rw [Bool.and_eq_true, decide_eq_true_eq] at hgraph
  obtain ⟨hok, hgone⟩ := hgraph
  have hbuild := Op.steps_of_fst_run hg
  have hacyclic : g.Acyclic := by
    refine acyclic_of_buildGraph (sound_start default) hbuild ?_
    cases hsort : g.topologicalSort with
    | error circle =>
      rw [hsort] at hok
      cases hok
    | ok order => exact ⟨order, rfl⟩
  have hstart : default.Reached (Server.ofModules importingLazily) (fun _ => True)
      (default.start ()) := .start ()
  obtain ⟨-, order, w₂, hsort, -, hw₂, -, hcompiled, -⟩ :=
    failures_of_load hstart rfl hbuild hacyclic
  exact ⟨g, _, order, w₂, hbuild, hacyclic, hsort, hgone, hw₂, hcompiled _ hgone⟩

end ModuleLoader.Loader
