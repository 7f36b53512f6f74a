import ModuleLoader.Proofs.Loader.Outcome
import ModuleLoader.Proofs.Loader.Seeding

/-! # Reusing what probes bring

Remembering the sources that probes bring saves requests and nothing else: a load comes to the same
as one that drops them and fetches every module, remembers the same, and leaves the same blobs.

* **`Loader.loadBy`** is a load that finds extensions in whatever way.
* **`Loader.Saves.finish`** says that a load goes on in the same way once it has its graph.
* **`Loader.reuses_of_load`** compares whole loads, in whatever orders their answers come. -/

namespace ModuleLoader.Loader

open Relation

variable {ω : Type} {server : Server ω} {f : Url → Answer}
variable {l : Loader} {s t : Session} {w w' v v' : World Session ω}

/-! ## Loads that drop the sources of probes -/

/-- Loads the module at a URL, with a way to find what URLs without extension stand for. -/
def loadModuleBy (l : Loader) (find : Url → Task Session Unit) (limit : Nat) (url : Url) :
    Op Session (Except Failure Module) := do
  match (← Op.act get).cache.modules.get? url with
  | some m => do
    Op.act (Session.report (.moduleHit url))
    return .ok m
  | none => do
    let graph ← l.buildGraphBy find limit url
    match graph.topologicalSort with
    | .error circle => return .error (.circularDependency circle.closing circle.path)
    | .ok order => do
      l.compileModules order
      Op.act (importEntry url graph)

/-- Loads the module that an absolute URL names, with a way to find what URLs without extension
stand for. -/
def loadBy (l : Loader) (find : Url → Task Session Unit) (limit : Nat) (entry : String) :
    Op Session (Except Failure Module) :=
  match Url.parse entry with
  | .error e => return .error (.invalidUrl entry e.message)
  | .ok url => l.loadModuleBy find limit url

/-- A loader loads by remembering the sources. -/
theorem loadModuleBy_infer (l : Loader) (limit : Nat) (url : Url) :
    l.loadModuleBy l.infer limit url = l.loadModule limit url := by
  have hbuild : l.buildGraphBy l.infer = l.buildGraph :=
    funext fun limit => funext fun entry => buildGraphBy_infer l limit entry
  rw [loadModuleBy, hbuild]
  rfl

/-- So it does when the module is named by a text. -/
theorem loadBy_infer (l : Loader) (limit : Nat) (entry : String) :
    l.loadBy l.infer limit entry = l.load limit entry := by
  unfold loadBy load
  cases Url.parse entry with
  | error e => rfl
  | ok url => exact loadModuleBy_infer l limit url

/-- A load of a module that has not been imported comes to an end exactly by building the graph and
going on with it, however extensions are found. -/
theorem steps_loadModuleBy_iff {find : Url → Task Session Unit} {limit : Nat} {url : Url}
    {r : Except Failure Module} (h : w.state.cache.modules.get? url = none) :
    Op.Steps server (l.loadModuleBy find limit url, w) (.done r, w') ↔
      ∃ g w₁, Op.Steps server (l.buildGraphBy find limit url, w) (.done g, w₁) ∧
        Op.Steps server (l.finish url g, w₁) (.done r, w') := by
  rw [← Op.steps_bind_done]
  unfold loadModuleBy
  rw [Op.steps_look_iff, h]
  exact .rfl

/-! ## Compiling -/

/-- The transformer is asked to replace specifiers by the same. -/
theorem SameButSources.redirectSpecifier (h : SameButSources s t) (importer : Url) :
    l.redirectSpecifier s.cache importer = l.redirectSpecifier t.cache importer := by
  funext specifier
  have hblob : s.cache.blobUrl? = t.cache.blobUrl? := by
    funext u
    rw [Cache.blobUrl?, Cache.blobUrl?, h.compiled]
  rw [Loader.redirectSpecifier, Loader.redirectSpecifier, specifierTarget?, specifierTarget?,
    h.lookupTarget, hblob]

/-- What came of a module is remembered, and the same is remembered still. -/
theorem SameInAll.insertCompiled (h : SameInAll s t) (u : Url) {a b : Artifact} (hab : a = b) :
    SameInAll (Session.remember (fun c => ((), c.insertCompiled u a)) s).2
      (Session.remember (fun c => ((), c.insertCompiled u b)) t).2 :=
  ⟨{ h.toSameButSources with compiled := hab ▸ congrArg (Memo.insert · u a) h.compiled }, h.sources⟩

/-- Reports make no difference. -/
theorem SameInAll.reportAll (h : SameInAll s t) (es es' : List Event) :
    SameInAll (Session.reportAll es s).2 (Session.reportAll es' t).2 :=
  ⟨h.toSameButSources.reportAll es es', h.sources⟩

/-- A module without code is remembered in the same way. -/
theorem SameInAll.registerFailure (h : SameInAll s t) (u : Url) (cause : Failure) :
    SameInAll (registerFailure u cause s).2 (registerFailure u cause t).2 :=
  (h.reportAll [.compileFailed u cause] [.compileFailed u cause]).insertCompiled u rfl

/-- The code of a module is put into the same blob. -/
theorem SameInAll.registerCode (h : SameInAll s t) (u : Url) (code : String) :
    SameInAll (l.registerCode u code s).2 (l.registerCode u code t).2 := by
  have hcreate : s.blobs.create code l.config.blobMimeType =
      t.blobs.create code l.config.blobMimeType := by rw [h.blobs]
  have hblobs : SameInAll { s with blobs := (s.blobs.create code l.config.blobMimeType).2 }
      { t with blobs := (t.blobs.create code l.config.blobMimeType).2 } :=
    ⟨{ h.toSameButSources with blobs := congrArg Prod.snd hcreate }, h.sources⟩
  refine (hblobs.reportAll [.registered u _] [.registered u _]).insertCompiled u ?_
  rw [h.blobs]

/-- A source is compiled in the same way. -/
theorem SameInAll.register (h : SameInAll s t) (u : Url) (source : String) :
    SameInAll (l.register u source s).2 (l.register u source t).2 := by
  have htransformation : l.transformation s u source = l.transformation t u source := by
    rw [transformation, transformation, h.redirectSpecifier]
  have hcalled : SameInAll (l.called s u source) (l.called t u source) := by
    refine ⟨{ h.toSameButSources with compilations := ?_ }, h.sources⟩
    change s.compilations ++ _ = t.compilations ++ _
    rw [h.compilations, htransformation]
  rw [register_eq, register_eq, htransformation]
  cases (l.transformation t u source).outcome with
  | ok compiled => exact hcalled.registerCode u compiled.code
  | error cause => exact hcalled.registerFailure u cause

/-- Fetching a source comes to the same, and saves what it saved. -/
theorem Saves.fetchSource (hf : server.AnswersBy f) (h : Saves w v) (m : Url) :
    ((fetchSource m).run server w).1 = ((fetchSource m).run server v).1 ∧
      Saves ((fetchSource m).run server w).2 ((fetchSource m).run server v).2 := by
  cases hsource : w.state.cache.sources.get? m with
  | some source =>
    rw [run_fetchSource_of_some hsource,
      run_fetchSource_of_some ((h.state.sources m).symm.trans hsource)]
    exact ⟨rfl, h⟩
  | none =>
    rw [run_fetchSource_of_none hsource,
      run_fetchSource_of_none ((h.state.sources m).symm.trans hsource), hf.ask, hf.ask]
    have hasked : (World.ask server ⟨m, .source⟩ w).2.requests.Subperm
        (World.ask server ⟨m, .source⟩ v).2.requests :=
      h.requests.append (List.Subperm.refl [(⟨m, .source⟩ : Request)])
    cases (f m).source m with
    | error cause => exact ⟨rfl, h.state, hasked⟩
    | ok text =>
      have hsame := h.state.toSameButSources
      refine ⟨rfl, ⟨⟨hsame.resolutions, hsame.compiled, hsame.modules, hsame.graphs, hsame.blobs,
        hsame.serial, hsame.compilations⟩, fun u => ?_⟩, hasked⟩
      change (w.state.cache.sources.insert m text).get? u =
        (v.state.cache.sources.insert m text).get? u
      by_cases hu : u = m
      · subst hu
        rw [Memo.get?_insert_self, Memo.get?_insert_self, h.state.sources]
      · rw [Memo.get?_insert_of_ne _ m u text hu, Memo.get?_insert_of_ne _ m u text hu,
          h.state.sources]

/-- Compiling a module saves what was saved. -/
theorem Saves.compileModule (hf : server.AnswersBy f) (h : Saves w v) (m : Url) :
    Saves ((l.compileModule m).run server w).2 ((l.compileModule m).run server v).2 := by
  have hcompiled : w.state.cache.isCompiled m = v.state.cache.isCompiled m := by
    rw [Cache.isCompiled, Cache.isCompiled, h.state.compiled]
  rw [Loader.compileModule, Task.run_look, Task.run_look, hcompiled]
  split
  · exact h
  · rw [Task.run_bind, Task.run_bind]
    obtain ⟨hsame, hfetched⟩ := h.fetchSource hf m
    rw [hsame]
    cases ((Loader.fetchSource m).run server v).1 with
    | ok source => exact ⟨hfetched.state.register m source, hfetched.requests⟩
    | error cause => exact ⟨hfetched.state.registerFailure m cause, hfetched.requests⟩

/-- Compiling modules in their order saves what was saved. -/
theorem Saves.afterCompiling (hf : server.AnswersBy f) (h : Saves w v) (order : List Url) :
    Saves (l.afterCompiling server order w) (l.afterCompiling server order v) := by
  induction order generalizing w v with
  | nil => exact h
  | cons m order ih => exact ih (h.compileModule hf m)

/-! ## Importing -/

/-- A blob is imported in the same way. -/
theorem SameInAll.importBlob (h : SameInAll s t) (u : Url) (blobUrl : String) :
    (Session.importBlob u blobUrl s).1 = (Session.importBlob u blobUrl t).1 ∧
      SameInAll (Session.importBlob u blobUrl s).2 (Session.importBlob u blobUrl t).2 := by
  have hread : s.readBlob blobUrl = t.readBlob blobUrl := by
    rw [Session.readBlob, Session.readBlob, h.blobs, h.serial]
  cases hblob : s.readBlob blobUrl with
  | error reason =>
    rw [Session.importBlob_of_error hblob, Session.importBlob_of_error (hread ▸ hblob)]
    exact ⟨rfl, h⟩
  | ok m =>
    rw [Session.importBlob_of_ok hblob, Session.importBlob_of_ok (hread ▸ hblob)]
    have hmodules : s.cache.modules.insert u m = t.cache.modules.insert u m := by rw [h.modules]
    refine ⟨?_, ⟨{ h.toSameButSources with
      modules := hmodules, serial := congrArg (· + 1) h.serial }, h.sources⟩⟩
    rw [Cache.insertModule, Cache.insertModule, h.modules]

/-- A compiled module is imported in the same way. -/
theorem SameInAll.importEager (h : SameInAll s t) (u : Url) (graph : Option Graph) (a : Artifact) :
    (Session.importEager u graph a s).1 = (Session.importEager u graph a t).1 ∧
      SameInAll (Session.importEager u graph a s).2 (Session.importEager u graph a t).2 := by
  have hfirst : Session.firstFailed s.cache (graph.elim [] (·.eagerDependencies u)) =
      Session.firstFailed t.cache (graph.elim [] (·.eagerDependencies u)) :=
    firstFailed_congr fun dep _ => by rw [h.compiled]
  cases a with
  | failed failedUrl cause => exact ⟨rfl, h.reportAll [_] [_]⟩
  | ready blobUrl =>
    cases hs : Session.firstFailed s.cache (graph.elim [] (·.eagerDependencies u)) with
    | none =>
      rw [Session.importEager_of_ready hs, Session.importEager_of_ready (hfirst ▸ hs)]
      exact h.importBlob u blobUrl
    | some e =>
      obtain ⟨dep, failed⟩ := e
      obtain ⟨failedUrl, cause, rfl⟩ := Session.exists_failed_of_firstFailed hs
      rw [Session.importEager_of_firstFailed hs, Session.importEager_of_firstFailed (hfirst ▸ hs)]
      exact ⟨rfl, h.reportAll [_] [_]⟩

/-- The entry of a graph is imported in the same way. -/
theorem SameInAll.importEntry (h : SameInAll s t) (entry : Url) (g : Graph) :
    (Loader.importEntry entry g s).1 = (Loader.importEntry entry g t).1 ∧
      SameInAll (Loader.importEntry entry g s).2 (Loader.importEntry entry g t).2 := by
  have hget : s.cache.compiled.get? entry = t.cache.compiled.get? entry := by rw [h.compiled]
  cases ha : s.cache.compiled.get? entry with
  | none =>
    rw [importEntry_of_notCompiled ha, importEntry_of_notCompiled (hget ▸ ha)]
    exact ⟨rfl, h⟩
  | some a =>
    rw [importEntry_of_compiled ha, importEntry_of_compiled (hget ▸ ha)]
    exact h.importEager entry (some g) a

/-- Once it has its graph, a load comes to the same, and saves what was saved. -/
theorem Saves.finish (hf : server.AnswersBy f) (h : Saves w v) {url : Url} {g : Graph}
    {r r' : Except Failure Module}
    (hw : Op.Steps server (l.finish url g, w) (.done r, w'))
    (hv : Op.Steps server (l.finish url g, v) (.done r', v')) : r = r' ∧ Saves w' v' := by
  cases hsort : g.topologicalSort with
  | error circle =>
    have hrun := (Op.steps_done_iff (isSequential_finish l url g)).1 hw
    have hrun' := (Op.steps_done_iff (isSequential_finish l url g)).1 hv
    rw [Loader.finish, hsort] at hrun hrun'
    cases hrun
    cases hrun'
    exact ⟨rfl, h⟩
  | ok order =>
    obtain ⟨rfl, rfl⟩ := (steps_finish_iff hsort).1 hw
    obtain ⟨rfl, rfl⟩ := (steps_finish_iff hsort).1 hv
    have hcompiled := h.afterCompiling (l := l) hf order
    obtain ⟨hresult, himported⟩ := hcompiled.state.importEntry url g
    exact ⟨hresult, himported, hcompiled.requests⟩

/-! ## Whole loads -/

/-- A load that remembers the sources of probes and one that drops them come to the same and
remember the same, and the first has sent no request that the second has not. -/
theorem saves_of_loadModule (hf : server.AnswersBy f) (limit : Nat) (url : Url)
    {r r' : Except Failure Module}
    (hw : Op.Steps server (l.loadModule limit url, w) (.done r, w'))
    (hv : Op.Steps server (l.loadModuleBy l.inferDropping limit url, w) (.done r', v')) :
    r = r' ∧ Saves w' v' := by
  cases hmodule : w.state.cache.modules.get? url with
  | some x =>
    obtain ⟨rfl, rfl⟩ := eq_of_steps_loadModule hmodule hw
    rw [loadModuleBy, Op.steps_look_iff, hmodule] at hv
    have hends := Op.steps_act_iff.1 hv
    obtain ⟨rfl, rfl⟩ := Op.eq_of_steps_done hends
    exact ⟨rfl, ⟨.refl _, fun _ => rfl⟩, List.Subperm.refl _⟩
  | none =>
    obtain ⟨g, w₁, hbuild, hfinish⟩ := (steps_loadModule_iff hmodule).1 hw
    obtain ⟨g', v₁, hbuild', hfinish'⟩ := (steps_loadModuleBy_iff hmodule).1 hv
    obtain ⟨hsame, hsaves⟩ := saves_of_attempt hf limit url w hbuild.attempt hbuild'.attempt
    obtain rfl := Option.some.inj hsame
    exact (hsaves rfl).finish hf hfinish hfinish'

/-- Either of the two graphs is built whatever order the answers come in if the other can be. -/
theorem terminates_buildGraph_iff (hf : server.AnswersBy f) (l : Loader) (limit : Nat)
    (entry : Url) (w : World Session ω) :
    Op.Terminates server (l.buildGraph limit entry, w) ↔
      Op.Terminates server (l.buildGraphBy l.inferDropping limit entry, w) := by
  -- a run that came to a point where it never ends would not agree with one that ends
  constructor
  · intro h
    obtain ⟨g, w₁, hdone⟩ := h.exists_done .refl
    refine Op.terminates_of_ne_endless ?_
    rintro ⟨op, v⟩ hv rfl
    cases (saves_of_attempt hf limit entry w hdone.attempt hv.attempt).1
  · intro h
    obtain ⟨g, v₁, hdone⟩ := h.exists_done .refl
    refine Op.terminates_of_ne_endless ?_
    rintro ⟨op, v⟩ hv rfl
    cases (saves_of_attempt hf limit entry w hv.attempt hdone.attempt).1

/-- A load of a module that has not been imported ends exactly if its graph is built, however
extensions are found. -/
theorem terminates_loadModuleBy_iff (find : Url → Task Session Unit) (limit : Nat) {url : Url}
    (h : w.state.cache.modules.get? url = none) :
    Op.Terminates server (l.loadModuleBy find limit url, w) ↔
      Op.Terminates server (l.buildGraphBy find limit url, w) := by
  have hlook : Op.Steps server _ _ := Op.steps_look (fun s : Session =>
    match s.cache.modules.get? url with
    | some m => do
      Op.act (Session.report (.moduleHit url))
      return .ok m
    | none => l.buildGraphBy find limit url >>= l.finish url) w
  constructor
  · intro hload
    have hrest := hload.of_steps hlook
    rw [h] at hrest
    refine Op.terminates_of_ne_endless ?_
    rintro ⟨op, v⟩ hv rfl
    exact hrest.ne_endless (hv.bind (l.finish url)) rfl
  · intro hbuild
    refine Op.Terminates.look ?_
    rw [h]
    exact hbuild.bind fun g v _ => terminates_finish l server url g v

/-- Either of the two loads ends whatever order the answers come in if the other does. -/
theorem terminates_loadModule_iff (hf : server.AnswersBy f) (l : Loader) (limit : Nat) (url : Url)
    (w : World Session ω) :
    Op.Terminates server (l.loadModule limit url, w) ↔
      Op.Terminates server (l.loadModuleBy l.inferDropping limit url, w) := by
  cases hmodule : w.state.cache.modules.get? url with
  | some x =>
    have hends : ∀ find, Op.Terminates server (l.loadModuleBy find limit url, w) := by
      intro find
      refine Op.Terminates.look ?_
      rw [hmodule]
      exact Op.terminates_of_run (fun _ => trivial) rfl
    rw [← loadModuleBy_infer]
    exact ⟨fun _ => hends _, fun _ => hends _⟩
  | none =>
    rw [← loadModuleBy_infer, terminates_loadModuleBy_iff l.infer limit hmodule,
      terminates_loadModuleBy_iff l.inferDropping limit hmodule, buildGraphBy_infer]
    exact terminates_buildGraph_iff hf l limit url w

/-- With a server that always answers a URL the same way, it makes no difference to a load whether
the sources that probes bring are remembered or dropped, so that every module is fetched. Whatever
orders their answers come in, the two loads come to the same result and remember the same graphs,
resolutions and sources; the same came of the same modules, in blobs with the same contents, and the
load that remembers the sources has sent no request that the other has not, nor any more often. If
one of them ends in every order, so does the other. -/
theorem reuses_of_load (hf : server.AnswersBy f) (l : Loader) (limit : Nat) (entry : String)
    (w : World Session ω) :
    l.loadBy l.infer limit entry = l.load limit entry ∧
      (Op.Terminates server (l.load limit entry, w) ↔
        Op.Terminates server (l.loadBy l.inferDropping limit entry, w)) ∧
      ∀ r r' w' v', Op.Steps server (l.load limit entry, w) (.done r, w') →
        Op.Steps server (l.loadBy l.inferDropping limit entry, w) (.done r', v') →
        r = r' ∧ Saves w' v' := by
  refine ⟨loadBy_infer l limit entry, ?_⟩
  unfold load loadBy
  cases Url.parse entry with
  | error e =>
    refine ⟨.rfl, fun r r' w' v' hw hv => ?_⟩
    have hdone : Op.IsSequential (Op.done (.error (.invalidUrl entry e.message)) :
      Op Session (Except Failure Module)) := trivial
    cases (Op.steps_done_iff hdone).1 hw
    cases (Op.steps_done_iff hdone).1 hv
    exact ⟨rfl, ⟨.refl _, fun _ => rfl⟩, List.Subperm.refl _⟩
  | ok url =>
    exact ⟨terminates_loadModule_iff hf l limit url w,
      fun r r' w' v' hw hv => saves_of_loadModule hf limit url hw hv⟩

/-- A module that imports another both with and without its extension, and that imports it back. -/
def importingBothWays : List (String × String) :=
  [("main.js", "import \"./util\";\nimport \"./more/../util.js\";\n"),
    ("util.js", "import(\"./main\");\n")]

/-- Loading it saves one request: the source of the other module came with the probe. The source of
the module itself had been fetched before a probe brought it. -/
theorem reuses_of_load_importingBothWays :
    ∃ r w' v', Op.Steps (Server.ofModules importingBothWays)
        (default.load 3 "http://slides.test/main.js", default.start ()) (.done r, w') ∧
      Op.Steps (Server.ofModules importingBothWays)
        (default.loadBy default.inferDropping 3 "http://slides.test/main.js", default.start ())
        (.done r, v') ∧
      Saves w' v' ∧ w'.requests.length = 5 ∧ v'.requests.length = 6 := by
  obtain ⟨hcount, hcount', hends, hends'⟩ :
      ((default.load 3 "http://slides.test/main.js").run (Server.ofModules importingBothWays)
          (default.start ())).2.requests.length = 5 ∧
      ((default.loadBy default.inferDropping 3 "http://slides.test/main.js").run
          (Server.ofModules importingBothWays) (default.start ())).2.requests.length = 6 ∧
      ((default.load 3 "http://slides.test/main.js").run (Server.ofModules importingBothWays)
          (default.start ())).1.isSome = true ∧
      ((default.loadBy default.inferDropping 3 "http://slides.test/main.js").run
          (Server.ofModules importingBothWays) (default.start ())).1.isSome = true := by
    decide +kernel
  obtain ⟨r, hrun⟩ := Option.isSome_iff_exists.1 hends
  obtain ⟨r', hrun'⟩ := Option.isSome_iff_exists.1 hends'
  have hsteps := Op.steps_of_fst_run hrun
  have hsteps' := Op.steps_of_fst_run hrun'
  obtain ⟨-, -, hsame⟩ := reuses_of_load (answersBy_ofModules importingBothWays) default 3
    "http://slides.test/main.js" (default.start ())
  obtain ⟨rfl, hsaves⟩ := hsame r r' _ _ hsteps hsteps'
  exact ⟨r, _, _, hsteps, hsteps', hsaves, hcount, hcount'⟩

end ModuleLoader.Loader
