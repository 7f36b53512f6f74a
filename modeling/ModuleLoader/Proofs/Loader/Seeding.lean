import ModuleLoader.Proofs.Loader.ArrivalOrder
import ModuleLoader.Proofs.Loader.Rounds

/-! # Sources that probes bring

A probe that finds a module brings its source. A loader remembers it, so that the module is not
fetched again. A loader that drops it fetches the module like any other, in the wave after the
probe, and knows the same then.

* **`Loader.inferDropping`** finds an extension and drops the source; **`Loader.discoverBy`**,
  **`Loader.buildGraphBy`** are discoveries that find extensions in whatever way.
* **`Loader.Ahead`** is a world that is ahead of another by the sources of some modules of the next
  wave: the step is `Loader.ahead_settle`, the run `Loader.ahead_of_discover`.
* **`Loader.same_of_buildGraph`** says that graphs are built in the same way with and without these
  sources, but for the requests. -/

namespace ModuleLoader

open Relation

variable {ω : Type} {server : Server ω} {f : Url → Answer}

namespace Loader

variable {l : Loader} {s s' t t' : Session} {w w' v v' : World Session ω}

/-! ## Discoveries that drop the sources of probes -/

/-- Finds what a URL without extension stands for and remembers it. If the server has sent a source,
it is dropped. -/
def inferDropping (l : Loader) (requested : Url) : Task Session Unit := do
  let r ← Resolver.infer l.config (fun e => Task.act (Session.report e)) requested
  Task.act (Session.remember fun c => ((), c.insertResolution requested r.url))

/-- Discovers one wave after another, with a way to find what URLs without extension stand for. -/
def discoverBy (l : Loader) (find : Url → Task Session Unit) :
    Nat → Nat → Discovery → Op Session (Graph × Nat)
  | limit, waves, d =>
    match d.pending, limit with
    | [], _ => return (d.graph, waves)
    | _ :: _, 0 => .endless
    | batch@(_ :: _), limit + 1 => do
      Op.act (Session.report (.discovering (waves + 1) batch.length))
      let scans ← Op.together (batch.map l.scanModule)
      let requested := scans.flatten.map Prod.fst
      let c := (← Op.act get).cache
      let _ ← Op.together ((unresolved c requested).map find)
      let d ← Op.act (l.settle d.beginWave (batch.zip scans))
      l.discoverBy find limit (waves + 1) d

/-- Builds the graph of an entry, with a way to find what URLs without extension stand for. -/
def buildGraphBy (l : Loader) (find : Url → Task Session Unit) (limit : Nat) (entry : Url) :
    Op Session Graph := do
  match (← Op.act get).cache.graphs.get? entry with
  | some g => do
    Op.act (Session.report (.graphHit entry))
    return g
  | none => do
    let (graph, waves) ← l.discoverBy find limit 0 (.start entry)
    Op.act (Session.report (.graphBuilt entry graph.size waves))
    Op.act (Session.remember fun c => c.insertGraph entry graph)

/-- One wave, with a way to find what URLs without extension stand for. -/
def waveBy (l : Loader) (find : Url → Task Session Unit) (waves : Nat) (d : Discovery) :
    Op Session Discovery := do
  Op.act (Session.report (.discovering waves d.pending.length))
  let scans ← Op.together (d.pending.map l.scanModule)
  let requested := scans.flatten.map Prod.fst
  let c := (← Op.act get).cache
  let _ ← Op.together ((unresolved c requested).map find)
  Op.act (l.settle d.beginWave (d.pending.zip scans))

section Equations

variable {find : Url → Task Session Unit} {d : Discovery}

/-- A discovery ends when no module is pending. -/
theorem discoverBy_of_nil (limit waves : Nat) (h : d.pending = []) :
    l.discoverBy find limit waves d = .done (d.graph, waves) := by
  cases limit <;> unfold discoverBy <;> rw [h] <;> rfl

/-- A discovery never ends with more waves than there may be. -/
theorem discoverBy_zero (waves : Nat) (h : d.pending ≠ []) :
    l.discoverBy find 0 waves d = .endless := by
  obtain ⟨m, rest, hp⟩ := List.exists_cons_of_ne_nil h
  unfold discoverBy
  rw [hp]

/-- While modules are pending, a discovery does one wave and goes on. -/
theorem discoverBy_succ (limit waves : Nat) (h : d.pending ≠ []) :
    l.discoverBy find (limit + 1) waves d =
      l.waveBy find (waves + 1) d >>= l.discoverBy find limit (waves + 1) := by
  obtain ⟨m, rest, hp⟩ := List.exists_cons_of_ne_nil h
  unfold discoverBy waveBy
  rw [hp]
  rfl

/-- While modules are pending, an attempt does one wave, which ends, and goes on. -/
theorem attempt_discoverBy_succ (limit waves : Nat) (h : d.pending ≠ []) :
    (l.discoverBy find (limit + 1) waves d).attempt =
      l.waveBy find (waves + 1) d >>= fun d => (l.discoverBy find limit (waves + 1) d).attempt := by
  rw [discoverBy_succ limit waves h]
  rfl

end Equations

/-- A loader discovers by remembering the sources. -/
theorem discoverBy_infer (l : Loader) (limit waves : Nat) (d : Discovery) :
    l.discoverBy l.infer limit waves d = l.discover limit waves d := by
  induction limit generalizing waves d with
  | zero =>
    by_cases hp : d.pending = []
    · rw [discoverBy_of_nil 0 waves hp, discover_of_nil 0 waves hp]
    · rw [discoverBy_zero waves hp, discover_zero waves hp]
  | succ limit ih =>
    by_cases hp : d.pending = []
    · rw [discoverBy_of_nil (limit + 1) waves hp, discover_of_nil (limit + 1) waves hp]
    · have hrest : l.discoverBy l.infer limit (waves + 1) = l.discover limit (waves + 1) :=
        funext (ih (waves + 1))
      rw [discoverBy_succ limit waves hp, discover_succ limit waves hp, hrest]
      rfl

/-- A loader builds graphs by remembering the sources. -/
theorem buildGraphBy_infer (l : Loader) (limit : Nat) (entry : Url) :
    l.buildGraphBy l.infer limit entry = l.buildGraph limit entry := by
  have hdiscover : l.discoverBy l.infer = l.discover :=
    funext fun limit => funext fun waves => funext fun d => discoverBy_infer l limit waves d
  rw [buildGraphBy, hdiscover]
  rfl

/-! ## Finding without sources -/

/-- What finding what some URLs stand for leaves behind when sources are dropped. -/
structure FindsAlone (l : Loader) (f : Url → Answer) (us : List Url) (s s' : Session) : Prop
    extends l.FindsIn f us s s' where
  /-- No source is remembered. -/
  sameSources : s'.cache.sources = s.cache.sources

/-- What finding without sources promises. -/
def findingAlone (l : Loader) (f : Url → Answer) (us : List Url) (w w' : World Session ω) : Prop :=
  l.FindsAlone f us w.state w'.state

/-- Searching that remembers no source and no resolution finds nothing. -/
theorem findsAlone_of_searches {us : List Url} (h : s.Searches s')
    (hsources : s'.cache.sources = s.cache.sources)
    (hresolutions : s'.cache.resolutions = s.cache.resolutions) : l.FindsAlone f us s s' :=
  ⟨.of_searches h hsources hresolutions, hsources⟩

/-- Finding without sources for some steps is finding without sources. -/
theorem findsAlone_of_findingAlone {us : List Url}
    (h : ReflTransGen (l.findingAlone f us) w w') : l.FindsAlone f us w.state w'.state := by
  induction h with
  | refl => exact findsAlone_of_searches (.refl _) rfl rfl
  | tail _ h ih => exact ⟨ih.toFindsIn.trans h.toFindsIn, h.sameSources.trans ih.sameSources⟩

/-- Finding what a URL stands for asks for the same candidates when the source is dropped. -/
theorem finds_inferDropping (hf : server.AnswersBy f) {us : List Url} {u : Url} (hu : u ∈ us)
    (w : World Session ω) :
    (l.inferDropping u).Keeps server (l.findingAlone f us) (l.findingAlone f us)
      (fun _ qs w' => w'.state.cache.resolutions.contains u = true ∧ l.probesFrom f u = qs)
      [] w := by
  have hreport : ∀ (e : Event) (w : World Session ω),
      l.findingAlone f us w { w with state := (Session.report e w.state).2 } :=
    fun e w => findsAlone_of_searches (Session.searches_report e w.state) rfl rfl
  refine Task.keeps_bind ((asks_probeAll hf hreport
    (fun _ _ => findsAlone_of_searches (.refl _) rfl rfl) l.config u _ [] w).imp
      fun r qs w₁ hr => ?_)
  obtain ⟨hurl, -, hqs⟩ := hr
  have hstands : r.url = Resolver.standsFor l.config f u := hurl
  rw [hstands]
  refine Task.keeps_act ⟨FindsIn.insertResolution hu _, rfl⟩ fun w₂ hw₂ => ⟨?_, hqs.symm⟩
  exact (findsAlone_of_findingAlone hw₂).resolutions.contains
    (Memo.contains_insert w₁.state.cache.resolutions u _)

/-- However the answers for the candidates come, the same is found when sources are dropped, and the
same requests are sent. -/
theorem findsAlone_of_steps (hf : server.AnswersBy f) {us : List Url} {results : List Unit}
    (h : Op.Steps server (Op.together (us.map l.inferDropping), w) (.done results, w')) :
    l.FindsAlone f us w.state w'.state ∧
      (∀ u ∈ us, w'.state.cache.resolutions.contains u = true) ∧
      w'.requests.Perm (w.requests ++ us.flatMap (l.probesFrom f)) := by
  have hkeeps : (Op.together (us.map l.inferDropping)).Keeps server (l.findingAlone f us)
      (fun _ w' => l.FindsAlone f us w.state w'.state ∧
        (∀ u ∈ us, w'.state.cache.resolutions.contains u = true) ∧
        w'.requests.Perm (w.requests ++ us.flatMap (l.probesFrom f))) w := by
    refine Op.keeps_together (l.findingAlone f us) us l.inferDropping
      (fun u _ qs w' => w'.state.cache.resolutions.contains u = true ∧ l.probesFrom f u = qs)
      (fun _ _ h => h) (fun u hu w₁ _ => finds_inferDropping hf hu w₁) ?_
    intro results w₁ hw₁ hresults hrequests
    obtain ⟨hends, rfl⟩ := eq_map_of_forall₂
      (p := fun u => w₁.state.cache.resolutions.contains u = true)
      (g := fun u => ((), l.probesFrom f u))
      (hresults.imp fun u r hr => ⟨hr.1, Prod.ext rfl hr.2⟩)
    refine ⟨findsAlone_of_findingAlone hw₁, hends, ?_⟩
    rw [List.flatMap_map] at hrequests
    exact hrequests
  exact (hkeeps.steps h).2

/-! ## Being ahead -/

/-- All but sources is the same in two states. -/
structure SameButSources (s t : Session) : Prop where
  /-- URLs without extension stand for the same. -/
  resolutions : ∀ u, s.cache.resolutions.get? u = t.cache.resolutions.get? u
  /-- The same came of compiling modules. -/
  compiled : s.cache.compiled = t.cache.compiled
  /-- The imported modules are the same. -/
  modules : s.cache.modules = t.cache.modules
  /-- The graphs are the same. -/
  graphs : s.cache.graphs = t.cache.graphs
  /-- The blobs are the same, with the same contents. -/
  blobs : s.blobs = t.blobs
  /-- As many modules have been imported. -/
  serial : s.serial = t.serial
  /-- The transformer has been called for the same modules, and the same came of it. -/
  compilations : s.compilations = t.compilations

/-- A state is the same as itself. -/
theorem SameButSources.refl (s : Session) : SameButSources s s :=
  ⟨fun _ => rfl, rfl, rfl, rfl, rfl, rfl, rfl⟩

/-- Searches that resolve the same leave the rest the same. -/
theorem SameButSources.of_searches (h : SameButSources s t) (hs : s.Searches s')
    (ht : t.Searches t')
    (hresolutions : ∀ u, s'.cache.resolutions.get? u = t'.cache.resolutions.get? u) :
    SameButSources s' t' where
  resolutions := hresolutions
  compiled := by rw [hs.sameCompiled, ht.sameCompiled, h.compiled]
  modules := by rw [hs.sameModules, ht.sameModules, h.modules]
  graphs := by rw [hs.sameGraphs, ht.sameGraphs, h.graphs]
  blobs := by rw [hs.sameBlobs, ht.sameBlobs, h.blobs]
  serial := by rw [hs.sameSerial, ht.sameSerial, h.serial]
  compilations := by rw [hs.sameCompilations, ht.sameCompilations, h.compilations]

/-- Reports make no difference. -/
theorem SameButSources.reportAll (h : SameButSources s t) (es es' : List Event) :
    SameButSources (Session.reportAll es s).2 (Session.reportAll es' t).2 :=
  ⟨h.resolutions, h.compiled, h.modules, h.graphs, h.blobs, h.serial, h.compilations⟩

/-- URLs stand for the same. -/
theorem SameButSources.lookupTarget (h : SameButSources s t) :
    l.lookupTarget s.cache = l.lookupTarget t.cache :=
  lookupTarget_congr h.resolutions fun u => by
    rw [Cache.isCompiled, Cache.isCompiled, h.compiled]

/-- The same is remembered of every URL, and nothing else is different but reports. -/
structure SameInAll (s t : Session) : Prop extends SameButSources s t where
  /-- The sources are the same. -/
  sources : ∀ u, s.cache.sources.get? u = t.cache.sources.get? u

/-- The first world is ahead of the second by the sources of some modules of the next wave, and has
sent no request that the second has not. -/
structure Ahead (f : Url → Answer) (d : Discovery) (w v : World Session ω) : Prop
    extends SameButSources w.state v.state where
  /-- A source that is not the same is that of a module of the next wave, as it is answered. -/
  sources : ∀ u, w.state.cache.sources.get? u = v.state.cache.sources.get? u ∨
    u ∈ d.pending ∧ v.state.cache.sources.get? u = none ∧
      w.state.cache.sources.get? u = (f u).moduleBody?
  /-- The sources of the modules that have been scanned are remembered. -/
  scanned : ∀ m ∈ d.processed, Resolver.isModuleAt f m = true →
    v.state.cache.sources.contains m = true
  /-- The requests are among those of the second. -/
  requests : w.requests.Subperm v.requests

/-- At the start nobody is ahead. -/
theorem ahead_start (f : Url → Answer) (entry : Url) (w : World Session ω) :
    Ahead f (.start entry) w w where
  toSameButSources := .refl _
  sources := fun _ => .inl rfl
  scanned := fun _ h => nomatch h
  requests := List.Subperm.refl _

/-- The same is remembered in two worlds, and the requests of the first are among those of the
second. -/
structure Saves (w v : World Session ω) : Prop where
  /-- The same is remembered. -/
  state : SameInAll w.state v.state
  /-- No request has been sent that the second has not. -/
  requests : w.requests.Subperm v.requests

/-- When there is no next wave, the same is remembered. -/
theorem Ahead.saves {d : Discovery} (h : Ahead f d w v) (hd : d.pending = []) : Saves w v where
  state := ⟨h.toSameButSources, fun u => (h.sources u).resolve_right fun hu => by
    rw [hd] at hu
    cases hu.1⟩
  requests := h.requests

/-- The sources that the modules of a wave are found to have are the same. -/
theorem Ahead.sourceFrom_eq {d : Discovery} (h : Ahead f d w v) :
    sourceFrom f w.state = sourceFrom f v.state := by
  funext m
  rcases h.sources m with hsame | ⟨-, hnone, hbody⟩
  · rw [sourceFrom, sourceFrom, hsame]
  · rw [sourceFrom, sourceFrom, hbody, hnone, Option.or_self, Option.none_or]

/-- Who is ahead fetches no source that the other does not. -/
theorem Ahead.fetchesFrom_sublist {d : Discovery} (h : Ahead f d w v) (m : Url) :
    (fetchesFrom w.state m).Sublist (fetchesFrom v.state m) := by
  unfold fetchesFrom
  by_cases hthere : v.state.cache.sources.contains m = true
  · rcases h.sources m with hsame | ⟨-, hnone, -⟩
    · rw [if_pos hthere, if_pos (by rw [Memo.contains, hsame]; exact hthere)]
    · rw [Memo.contains, hnone] at hthere
      cases hthere
  · rw [if_neg hthere]
    split
    · exact List.nil_sublist _
    · exact List.Sublist.refl _

/-- Nor does it fetch more sources of several modules. -/
theorem Ahead.flatMap_fetchesFrom_sublist {d : Discovery} (h : Ahead f d w v) (ms : List Url) :
    (ms.flatMap (fetchesFrom w.state)).Sublist (ms.flatMap (fetchesFrom v.state)) := by
  induction ms with
  | nil => exact List.Sublist.refl _
  | cons m ms ih =>
    rw [List.flatMap_cons, List.flatMap_cons]
    exact (h.fetchesFrom_sublist m).append ih

/-- When both have scanned the wave, the same is remembered, and has been found. -/
theorem Ahead.scan (hf : server.AnswersBy f) {d : Discovery} (h : Ahead f d w v)
    (hd : d.pending.Nodup) {scans scans' : List (List (Url × Bool))}
    (hw : Op.Steps server (Op.together (d.pending.map l.scanModule), w) (.done scans, w'))
    (hv : Op.Steps server (Op.together (d.pending.map l.scanModule), v) (.done scans', v')) :
    scans = scans' ∧ scans = d.pending.map (l.importsFrom f v.state) ∧
      Saves w' v' ∧ ∀ m ∈ d.processed ++ d.pending, Resolver.isModuleAt f m = true →
        v'.state.cache.sources.contains m = true := by
  obtain ⟨rfl, hscans, hrequests⟩ := scans_of_steps hf hd hw
  obtain ⟨rfl, hscans', hrequests'⟩ := scans_of_steps hf hd hv
  have himports : l.importsFrom f w.state = l.importsFrom f v.state := by
    funext m
    rw [importsFrom, importsFrom, h.sourceFrom_eq]
  rw [himports]
  refine ⟨rfl, rfl, ⟨⟨?_, fun u => ?_⟩, ?_⟩, fun m hm hmodule => ?_⟩
  · refine h.toSameButSources.of_searches hscans.toSearches hscans'.toSearches fun u => ?_
    rw [hscans.sameResolutions, hscans'.sameResolutions, h.resolutions]
  · by_cases hu : u ∈ d.pending
    · rw [hscans.found u hu, hscans'.found u hu, h.sourceFrom_eq]
    · rw [hscans.elsewhere u hu, hscans'.elsewhere u hu]
      exact (h.sources u).resolve_right fun hahead => hu hahead.1
  · -- the one that has kept sources fetches some of those that the other does, and no more
    refine hrequests.subperm.trans (List.Subperm.trans ?_ hrequests'.symm.subperm)
    exact h.requests.append (h.flatMap_fetchesFrom_sublist d.pending).subperm
  · rcases List.mem_append.1 hm with hm | hm
    · exact hscans'.sources.contains (h.scanned m hm hmodule)
    · rw [Memo.contains, hscans'.found m hm, sourceFrom]
      rw [Resolver.isModuleAt] at hmodule
      cases v.state.cache.sources.get? m <;> simp [hmodule]

/-! ## From wave to wave -/

/-- A wave adds the same where URLs stand for the same. -/
theorem settle_of_sameButSources (h : SameButSources s t) (d : Discovery)
    (wave : List (Url × List (Url × Bool))) : (l.settle d wave s).1 = (l.settle d wave t).1 := by
  change wave.foldl (fun d e => d.add e.1 (l.localDependencies s.cache e.2)) d =
    wave.foldl (fun d e => d.add e.1 (l.localDependencies t.cache e.2)) d
  rw [localDependencies_congr h.lookupTarget]

/-- A wave adds what its modules import to what has been scanned and what is to be. -/
theorem settle_map_eq (d : Discovery) (imports : Url → List (Url × Bool)) (s : Session) :
    (l.settle d.beginWave (d.pending.zip (d.pending.map imports)) s).1 =
      Discovery.next (fun m => l.localDependencies s.cache (imports m)) d := by
  change (d.pending.zip (d.pending.map imports)).foldl (fun d e =>
    d.add e.1 (l.localDependencies s.cache e.2)) d.beginWave = _
  rw [← List.map_prod_left_eq_zip, List.foldl_map]
  rfl

/-- When both have found what a wave imports without extension, the first is ahead by the sources of
modules that have been found, and these are in the next wave. -/
theorem ahead_settle {d : Discovery} {imports : Url → List (Url × Bool)}
    (h : Saves w v)
    (hscanned : ∀ m ∈ d.processed ++ d.pending, Resolver.isModuleAt f m = true →
      v.state.cache.sources.contains m = true) {us : List Url}
    (hus : us = unresolved v.state.cache ((d.pending.map imports).flatten.map Prod.fst))
    (hw : l.FindsAll f us w.state w'.state) (hv : l.FindsAlone f us v.state v'.state)
    (hvresolved : ∀ u ∈ us, v'.state.cache.resolutions.contains u = true)
    (hwrequests : w'.requests.Perm (w.requests ++ us.flatMap (l.probesFrom f)))
    (hvrequests : v'.requests.Perm (v.requests ++ us.flatMap (l.probesFrom f))) :
    Ahead f (l.settle d.beginWave (d.pending.zip (d.pending.map imports)) v'.state).1 w' v' := by
  have hresolved : ∀ u, w'.state.cache.resolutions.get? u = v'.state.cache.resolutions.get? u := by
    intro u
    rw [hw.resolutions_eq, hv.resolutions_eq hvresolved, h.state.resolutions]
  have hsame := h.state.toSameButSources.of_searches hw.toSearches hv.toSearches hresolved
  rw [settle_map_eq]
  refine ⟨hsame, fun t => ?_, fun m hm hmodule => ?_, ?_⟩
  · rw [hv.sameSources, ← h.state.sources t]
    rcases hw.sourced t with hold | ⟨⟨u, hu, hfound⟩, hnone, hnew⟩
    · exact .inl hold
    · refine .inr ⟨?_, hnone, hnew⟩
      -- the module that has been found is what a module of this wave leads to
      have hmodule : Resolver.isModuleAt f t = true :=
        List.find?_some (l := Resolver.candidates l.config u) hfound
      have hnew : t ∉ d.processed ++ d.pending := by
        intro ht
        have hthere := hscanned t ht hmodule
        rw [Memo.contains, ← h.state.sources t, hnone] at hthere
        cases hthere
      obtain ⟨hmem, hunknown⟩ := mem_unresolved.1 (hus ▸ hu)
      obtain ⟨i, hi, rfl⟩ := List.mem_map.1 hmem
      obtain ⟨_, himports, hi⟩ := List.mem_flatten.1 hi
      obtain ⟨m, hm, rfl⟩ := List.mem_map.1 himports
      have hknown : v'.state.cache.resolutions.get? i.1 = some t := by
        rw [hv.resolutions_eq hvresolved, Memo.contains_eq_false_iff.1 hunknown.2, if_pos hu,
          standsFor_of_found? hfound]
        rfl
      refine (Discovery.mem_pending_next d t).2 ⟨⟨m, hm, ?_⟩, hnew⟩
      refine mem_map_fst_localDependencies.2 ⟨i, hi, ?_⟩
      exact lookupTarget_of_resolution hunknown.1 hknown
  · rw [Discovery.processed_next] at hm
    rw [hv.sameSources]
    exact hscanned m hm hmodule
  · refine hwrequests.subperm.trans (List.Subperm.trans ?_ hvrequests.symm.subperm)
    exact h.requests.append (List.Subperm.refl _)

/-- Reports leave a world as far ahead as it was. -/
theorem Ahead.reportAll {d : Discovery} (h : Ahead f d w v) (es es' : List Event) :
    Ahead f d { w with state := (Session.reportAll es w.state).2 }
      { v with state := (Session.reportAll es' v.state).2 } :=
  ⟨h.toSameButSources.reportAll es es', h.sources, h.scanned, h.requests⟩

/-- Reports do not make worlds differ. -/
theorem Saves.reportAll (h : Saves w v) (es es' : List Event) :
    Saves { w with state := (Session.reportAll es w.state).2 }
      { v with state := (Session.reportAll es' v.state).2 } :=
  ⟨⟨h.state.toSameButSources.reportAll es es', h.state.sources⟩, h.requests⟩

/-- One wave, done with the sources of probes dropped and without, comes to the same in whatever
orders its answers come, and leaves the first discovery ahead. -/
theorem ahead_of_wave (hf : server.AnswersBy f) (waves : Nat) {d d₁ d₂ : Discovery}
    (hd : d.pending.Nodup) (h : Ahead f d w v)
    (hw : Op.Steps server (l.wave waves d, w) (.done d₁, w'))
    (hv : Op.Steps server (l.waveBy l.inferDropping waves d, v) (.done d₂, v')) :
    d₁ = d₂ ∧ d₁.pending.Nodup ∧ Ahead f d₁ w' v' := by
  unfold wave at hw
  unfold waveBy at hv
  rw [Op.steps_act_iff] at hw hv
  obtain ⟨scans, w₁, hscan, hw⟩ := Op.steps_bind_done.1 hw
  obtain ⟨scans', v₁, hscan', hv⟩ := Op.steps_bind_done.1 hv
  obtain ⟨rfl, rfl, h₁, hscanned⟩ := (h.reportAll [.discovering waves d.pending.length]
    [.discovering waves d.pending.length]).scan hf hd hscan hscan'
  rw [Op.steps_look_iff] at hw hv
  obtain ⟨_, w₂, hfind, hw⟩ := Op.steps_bind_done.1 hw
  obtain ⟨_, v₂, hfind', hv⟩ := Op.steps_bind_done.1 hv
  -- the same imports are unresolved, and so both look for the same candidates
  rw [unresolved_congr h₁.state.resolutions] at hfind
  obtain ⟨hfinds, hrequests⟩ := finds_of_steps hf hfind
  obtain ⟨hfinds', hresolved, hrequests'⟩ := findsAlone_of_steps hf hfind'
  have h₂ := ahead_settle h₁ hscanned rfl hfinds hfinds' hresolved hrequests hrequests'
  rw [Op.steps_act_done_iff] at hw hv
  obtain ⟨rfl, rfl⟩ := hw
  obtain ⟨rfl, rfl⟩ := hv
  rw [settle_of_sameButSources h₂.toSameButSources]
  exact ⟨rfl, nodup_pending_settle l _ _ v₂.state List.nodup_nil, h₂.reportAll _ _⟩

/-- Two discoveries, one of which drops the sources of probes, come to the same in whatever orders
their answers come: each wave begins with one of them ahead, and when there is none left the same is
remembered. -/
theorem saves_of_discover (hf : server.AnswersBy f) (limit waves : Nat) {d : Discovery}
    (hd : d.pending.Nodup) (h : Ahead f d w v) {r r' : Option (Graph × Nat)}
    (hw : Op.Steps server ((l.discover limit waves d).attempt, w) (.done r, w'))
    (hv : Op.Steps server ((l.discoverBy l.inferDropping limit waves d).attempt, v)
      (.done r', v')) : r = r' ∧ (r.isSome = true → Saves w' v') := by
  -- by induction on the waves that are left
  induction limit generalizing waves d w v with
  | zero =>
    by_cases hp : d.pending = []
    · rw [attempt_discover_of_nil 0 waves hp] at hw
      rw [discoverBy_of_nil 0 waves hp] at hv
      obtain ⟨rfl, rfl⟩ := Op.eq_of_steps_done hw
      obtain ⟨rfl, rfl⟩ := Op.eq_of_steps_done hv
      exact ⟨rfl, fun _ => h.saves hp⟩
    · rw [attempt_discover_zero waves hp] at hw
      rw [discoverBy_zero waves hp] at hv
      obtain ⟨rfl, rfl⟩ := Op.eq_of_steps_done hw
      obtain ⟨rfl, rfl⟩ := Op.eq_of_steps_done hv
      exact ⟨rfl, fun h => absurd h Bool.false_ne_true⟩
  | succ limit ih =>
    by_cases hp : d.pending = []
    · rw [attempt_discover_of_nil (limit + 1) waves hp] at hw
      rw [discoverBy_of_nil (limit + 1) waves hp] at hv
      obtain ⟨rfl, rfl⟩ := Op.eq_of_steps_done hw
      obtain ⟨rfl, rfl⟩ := Op.eq_of_steps_done hv
      exact ⟨rfl, fun _ => h.saves hp⟩
    · rw [attempt_discover_succ limit waves hp] at hw
      rw [attempt_discoverBy_succ limit waves hp] at hv
      obtain ⟨d₁, w₁, hwave, hw⟩ := Op.steps_bind_done.1 hw
      obtain ⟨d₂, v₁, hwave', hv⟩ := Op.steps_bind_done.1 hv
      obtain ⟨rfl, hd₁, h₁⟩ := ahead_of_wave hf (waves + 1) hd h hwave hwave'
      exact ih (waves + 1) hd₁ h₁ hw hv

/-! ## Building a graph -/

/-- Two attempts to build a graph, one of which drops the sources of probes, come to the same. -/
theorem saves_of_attempt (hf : server.AnswersBy f) (limit : Nat) (entry : Url) (w : World Session ω)
    {r r' : Option Graph}
    (hw : Op.Steps server ((l.buildGraph limit entry).attempt, w) (.done r, w'))
    (hv : Op.Steps server ((l.buildGraphBy l.inferDropping limit entry).attempt, w)
      (.done r', v')) : r = r' ∧ (r.isSome = true → Saves w' v') := by
  unfold buildGraph at hw
  unfold buildGraphBy at hv
  rw [Op.attempt_act_bind, Op.steps_look_iff] at hw hv
  cases hgraph : w.state.cache.graphs.get? entry with
  | some g =>
    -- the graph is remembered, and nothing is asked for
    simp only [hgraph, Op.attempt_act_bind] at hw hv
    rw [Op.steps_act_iff] at hw hv
    obtain ⟨rfl, rfl⟩ := Op.eq_of_steps_done hw
    obtain ⟨rfl, rfl⟩ := Op.eq_of_steps_done hv
    exact ⟨rfl, fun _ => ⟨⟨.refl _, fun _ => rfl⟩, List.Subperm.refl _⟩⟩
  | none =>
    simp only [hgraph, Op.attempt_bind] at hw hv
    obtain ⟨x, w₁, hdiscover, hw⟩ := Op.steps_bind_done.1 hw
    obtain ⟨x', v₁, hdiscover', hv⟩ := Op.steps_bind_done.1 hv
    obtain ⟨rfl, h₁⟩ := saves_of_discover hf limit 0 (List.nodup_singleton entry)
      (ahead_start f entry w) hdiscover hdiscover'
    cases x with
    | none =>
      obtain ⟨rfl, rfl⟩ := Op.eq_of_steps_done hw
      obtain ⟨rfl, rfl⟩ := Op.eq_of_steps_done hv
      exact ⟨rfl, fun h => absurd h Bool.false_ne_true⟩
    | some x =>
      obtain ⟨g, waves⟩ := x
      change Op.Steps server (Op.act (Session.report (.graphBuilt entry g.size waves)) >>= fun _ =>
        Op.act (Session.remember fun c => c.insertGraph entry g) >>= fun g =>
          Op.done (some g), _) _ at hw hv
      rw [Op.steps_act_iff, Op.steps_act_iff] at hw hv
      obtain ⟨rfl, rfl⟩ := Op.eq_of_steps_done hw
      obtain ⟨rfl, rfl⟩ := Op.eq_of_steps_done hv
      have h₂ := (h₁ rfl).reportAll [.graphBuilt entry g.size waves]
        [.graphBuilt entry g.size waves]
      have hgraphs : w₁.state.cache.graphs.insert entry g =
          v₁.state.cache.graphs.insert entry g := by
        rw [show w₁.state.cache.graphs = v₁.state.cache.graphs from h₂.state.graphs]
      refine ⟨?_, fun _ => ⟨⟨{ h₂.state with graphs := hgraphs }, h₂.state.sources⟩, h₂.requests⟩⟩
      change some (((w₁.state.cache.graphs.insert entry g).get? entry).getD g) =
        some (((v₁.state.cache.graphs.insert entry g).get? entry).getD g)
      rw [hgraphs]

end Loader

end ModuleLoader
