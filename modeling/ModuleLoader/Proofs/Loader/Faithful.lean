import ModuleLoader.Proofs.Loader.Asking
import ModuleLoader.Proofs.Loader.Coherence
import ModuleLoader.Proofs.Loader.Rounds

/-! # Servers that keep to their answers

A server that always answers a URL the same way decides what every module imports and where that
leads. Whatever order its answers come in, what a loader remembers agrees with it, and the waves of
a discovery are the rounds from its entry.

* **`Loader.Names`** is what a module refers to, **`Loader.targetOf`** where that leads, and
  **`Loader.dependenciesAt`** what a graph should record of a module.
* **`Loader.Faithful`** is a state that agrees with the answers; every act keeps it.
* **`Loader.waveInvariant_inRounds`** says that the waves are rounds, and scan each module once.
* **`Loader.faithful_of_reached`** says that calls lead to states that agree with the answers. -/

namespace ModuleLoader

open Relation

variable {ω : Type} {server : Server ω} {f : Url → Answer}

/-- A server that always answers a URL the same way says nothing else. -/
theorem Server.AnswersBy.says (h : server.AnswersBy f) : server.Says fun u a => a = f u :=
  fun q x => h q x

/-- A search among candidates comes to the first with a module, or else to the fallback. -/
theorem Resolver.Finds.eq_getD {fallback t : Url} {candidates : List Url}
    (h : Finds (fun u a => a = f u) fallback candidates t) :
    t = (candidates.find? (isModuleAt f)).getD fallback := by
  induction h with
  | fallback => rfl
  | module ha hbody =>
    subst ha
    rw [List.find?_cons_of_pos (by rw [isModuleAt, hbody]; rfl)]
    rfl
  | miss ha hbody _ ih =>
    subst ha
    rw [List.find?_cons_of_neg (by rw [isModuleAt, hbody]; exact Bool.false_ne_true)]
    exact ih

namespace Loader

variable {l : Loader} {s s' : Session} {m t u : Url}

/-! ## What the answers decide -/

/-- A reference in the module at a URL names another URL. -/
structure Names (l : Loader) (f : Url → Answer) (m : Url) (r : Reference) (u : Url) : Prop where
  /-- It is scanned in the source of the module. -/
  scanned : ∃ body, (f m).moduleBody? = some body ∧
    r ∈ (scan l.config.scanMode body m.pathText).references
  /-- Its specifier is not bare. -/
  notBare : isBare r.specifier = false
  /-- The specifier can be joined. -/
  joined : m.join r.specifier = .ok u

/-- Where a URL leads: to itself if it has an extension, else to the first candidate with a module,
or to the URL with the fallback extension. -/
def targetOf (l : Loader) (f : Url → Answer) (u : Url) : Url :=
  if u.hasExtension then u else Resolver.standsFor l.config f u

/-- The URLs that the module at a URL imports, each with whether it is by `import()`; none if there
is no module. -/
def importsAt (l : Loader) (f : Url → Answer) (m : Url) : List (Url × Bool) :=
  ((f m).moduleBody?.map (l.importsIn m)).getD []

/-- The modules that the module at a URL leads to, in the order of their first imports. -/
def targetsAt (l : Loader) (f : Url → Answer) (m : Url) : List Url :=
  ((l.importsAt f m).map fun i => l.targetOf f i.1).foldl (fun us u => addOnce u us) []

/-- The modules that the module at a URL leads to, each with whether that is by `import()` alone. -/
def dependenciesAt (l : Loader) (f : Url → Answer) (m : Url) : List (Url × Bool) :=
  (l.targetsAt f m).map fun t =>
    (t, decide (∀ i ∈ l.importsAt f m, l.targetOf f i.1 = t → i.2 = true))

/-- The URL that a specifier names. -/
theorem resolve?_eq_some_iff {specifier : String} :
    resolve? specifier m = some u ↔ isBare specifier = false ∧ m.join specifier = .ok u := by
  unfold resolve?
  by_cases hbare : isBare specifier = true
  · simp [hbare]
  · cases hjoin : m.join specifier <;> simp [hbare]

/-- A module imports the URLs that its references name. -/
theorem mem_importsAt_iff {b : Bool} :
    (u, b) ∈ l.importsAt f m ↔ ∃ r, l.Names f m r u ∧ r.isDynamic = b := by
  unfold importsAt importsIn importsOf
  constructor
  · intro h
    cases hbody : (f m).moduleBody? with
    | none =>
      rw [hbody] at h
      cases h
    | some body =>
      rw [hbody] at h
      obtain ⟨r, hr, heq⟩ := List.mem_filterMap.1 h
      obtain ⟨u', hu', heq⟩ := Option.map_eq_some_iff.1 heq
      obtain ⟨rfl, rfl⟩ := Prod.mk.inj heq
      obtain ⟨hbare, hjoin⟩ := resolve?_eq_some_iff.1 hu'
      exact ⟨r, ⟨⟨body, hbody, hr⟩, hbare, hjoin⟩, rfl⟩
  · rintro ⟨r, ⟨⟨body, hbody, hr⟩, hbare, hjoin⟩, rfl⟩
    rw [hbody]
    refine List.mem_filterMap.2 ⟨r, hr, ?_⟩
    rw [resolve?_eq_some_iff.2 ⟨hbare, hjoin⟩]
    rfl

/-- A module leads where the URLs lead that its references name. -/
theorem mem_targetsAt_iff :
    t ∈ l.targetsAt f m ↔ ∃ r u, l.Names f m r u ∧ l.targetOf f u = t := by
  simp only [targetsAt, mem_foldl_addOnce, List.not_mem_nil, false_or, List.mem_map, Prod.exists,
    mem_importsAt_iff]
  constructor
  · rintro ⟨u, b, ⟨r, hr, -⟩, ht⟩
    exact ⟨r, u, hr, ht⟩
  · rintro ⟨r, u, hr, ht⟩
    exact ⟨u, r.isDynamic, ⟨r, hr, rfl⟩, ht⟩

/-- The modules that are recorded are those that the module leads to. -/
theorem map_fst_dependenciesAt (l : Loader) (f : Url → Answer) (m : Url) :
    (l.dependenciesAt f m).map Prod.fst = l.targetsAt f m := by
  rw [dependenciesAt, List.map_map]
  exact List.map_id _

/-- No module is recorded twice. -/
theorem nodup_dependenciesAt (l : Loader) (f : Url → Answer) (m : Url) :
    ((l.dependenciesAt f m).map Prod.fst).Nodup := by
  rw [map_fst_dependenciesAt]
  exact nodup_foldl_addOnce _ List.nodup_nil

/-- A module is marked as lazy exactly if all references that lead to it are by `import()`. -/
theorem mem_lazy_dependenciesAt_iff :
    t ∈ ((l.dependenciesAt f m).filter Prod.snd).map Prod.fst ↔
      t ∈ l.targetsAt f m ∧
        ∀ r u, l.Names f m r u → l.targetOf f u = t → r.isDynamic = true := by
  have hmarks : (∀ i ∈ l.importsAt f m, l.targetOf f i.1 = t → i.2 = true) ↔
      ∀ r u, l.Names f m r u → l.targetOf f u = t → r.isDynamic = true := by
    constructor
    · exact fun h r u hr ht => h (u, r.isDynamic) (mem_importsAt_iff.2 ⟨r, hr, rfl⟩) ht
    · rintro h ⟨u, b⟩ hi ht
      obtain ⟨r, hr, rfl⟩ := mem_importsAt_iff.1 hi
      exact h r u hr ht
  rw [← hmarks, dependenciesAt]
  simp [and_comm]

/-- Where nothing else stands for the URLs that a module imports than where they lead, the modules
that its imports lead to are those that should be recorded. -/
theorem localDependencies_importsAt {c : Cache Module}
    (h : ∀ i ∈ l.importsAt f m, l.lookupTarget c i.1 = l.targetOf f i.1) :
    l.localDependencies c (l.importsAt f m) = l.dependenciesAt f m := by
  have hfst : (l.localDependencies c (l.importsAt f m)).map Prod.fst = l.targetsAt f m := by
    rw [map_fst_localDependencies, List.map_congr_left h]
    rfl
  rw [dependenciesAt, ← hfst, List.map_map]
  refine (List.map_id _).symm.trans (List.map_congr_left fun d hd => ?_)
  -- the mark of a module is decided by the imports that lead to it
  refine Prod.ext rfl ?_
  rw [id_eq, Bool.eq_iff_iff, (mem_localDependencies_iff.1 hd).2]
  refine Iff.trans ?_ decide_eq_true_iff.symm
  exact forall₂_congr fun i hi => by rw [h i hi]

/-! ## Agreeing with the answers -/

/-- The graph is that of a discovery that has come to its end, and what its modules import is
settled. -/
structure IsDrawn (l : Loader) (f : Url → Answer) (s : Session) (entry : Url) (g : Graph) :
    Prop where
  /-- The discovery has nothing left to do. -/
  isGraphOf : Discovery.IsGraphOf (l.dependenciesAt f) entry g
  /-- It is known which modules the imports lead to. -/
  settled : ∀ m ∈ g.urls, ∀ i ∈ l.importsAt f m, s.Settled i.1

/-- What is settled stays so. -/
theorem IsDrawn.of_grows {entry : Url} {g : Graph} (h : l.IsDrawn f s entry g) (hg : s.Grows s') :
    l.IsDrawn f s' entry g :=
  ⟨h.isGraphOf, fun m hm i hi => hg.settled (h.settled m hm i hi)⟩

/-- What is remembered agrees with the answers. -/
structure Faithful (l : Loader) (f : Url → Answer) (s : Session) : Prop where
  /-- Sources are those of the modules at their URLs. -/
  sources : ∀ u text, s.cache.sources.get? u = some text → (f u).moduleBody? = some text
  /-- A URL without extension stands for where it leads. -/
  resolutions : ∀ u t, s.cache.resolutions.get? u = some t → l.targetOf f u = t
  /-- Graphs are those of discoveries that have come to their ends. -/
  graphs : ∀ e ∈ s.cache.graphs.entries, l.IsDrawn f s e.1 e.2

/-- Nothing is remembered at the start. -/
theorem faithful_start (l : Loader) (f : Url → Answer) : l.Faithful f (.start l.config) where
  sources := fun _ _ h => nomatch h
  resolutions := fun _ _ h => nomatch h
  graphs := fun _ h => nomatch h

namespace Faithful

/-- What agrees with the answers does so when something is learnt from them. -/
theorem of_learns (h : l.Faithful f s) (hl : l.Learns (fun u a => a = f u) s s') :
    l.Faithful f s' where
  sources := by
    intro u text hu
    rcases hl.sourced u text hu with hold | ⟨_, rfl, hbody⟩
    · exact h.sources u text hold
    · exact hbody
  resolutions := by
    intro u t hu
    rcases hl.resolved u t hu with hold | ⟨hext, hfinds⟩
    · exact h.resolutions u t hold
    · rw [targetOf, if_neg (by simp [hext]), hfinds.eq_getD]
      rfl
  graphs := by
    rw [hl.sameGraphs]
    exact fun e he => (h.graphs e he).of_grows hl.toGrows

/-- What agrees with the answers does so when no source, resolution or graph is new. -/
theorem of_sameTables (h : l.Faithful f s) (hg : s.Grows s')
    (hsources : s'.cache.sources = s.cache.sources)
    (hresolutions : s'.cache.resolutions = s.cache.resolutions)
    (hgraphs : s'.cache.graphs = s.cache.graphs) : l.Faithful f s' :=
  ⟨hsources ▸ h.sources, hresolutions ▸ h.resolutions,
    hgraphs ▸ fun e he => (h.graphs e he).of_grows hg⟩

/-- The graph that is remembered for an entry is that of a discovery that has come to its end. -/
theorem isDrawn_of_get? (h : l.Faithful f s) {entry : Url} {g : Graph}
    (hg : s.cache.graphs.get? entry = some g) : l.IsDrawn f s entry g :=
  h.graphs (entry, g) (Memo.mem_entries_of_get? hg)

/-- A settled URL stands for where it leads. -/
theorem lookupTarget_eq (h : l.Faithful f s) (hu : s.Settled u) :
    l.lookupTarget s.cache u = l.targetOf f u := by
  rcases lookupTarget_settled (l := l) hu with ⟨hext, heq⟩ | hres
  · rw [heq, targetOf, if_pos hext]
  · exact (h.resolutions u _ hres).symm

/-- What the answers say that a module imports is what it does. -/
theorem imports_eq (h : l.Faithful f s) {imports : List (Url × Bool)}
    (hi : l.Attested (fun u a => a = f u) s m imports) : imports = l.importsAt f m := by
  rcases hi with ⟨source, hsource, rfl⟩ | ⟨rfl, _, rfl, hbody⟩
  · rw [importsAt, h.sources m source hsource]
    rfl
  · rw [importsAt, hbody]
    rfl

/-- What the answers say that the modules of a wave import is what they do. -/
theorem scans_eq (h : l.Faithful f s) {pending : List Url} {scans : List (List (Url × Bool))}
    (hs : List.Forall₂ (l.Attested (fun u a => a = f u) s) pending scans) :
    scans = pending.map (l.importsAt f) := by
  induction hs with
  | nil => rfl
  | cons hi _ ih => rw [List.map_cons, h.imports_eq hi, ih]

/-- A wave that has been scanned adds what a round does. -/
theorem settle_eq_next (h : l.Faithful f s) {d : Discovery} {scans : List (List (Url × Bool))}
    (hwave : l.ScannedWave (fun u a => a = f u) s d.pending scans) :
    (l.settle d.beginWave (d.pending.zip scans) s).1 = Discovery.next (l.dependenciesAt f) d := by
  obtain ⟨-, hattested, hset⟩ := hwave
  obtain rfl := h.scans_eq hattested
  have hdeps : ∀ m ∈ d.pending,
      l.localDependencies s.cache (l.importsAt f m) = l.dependenciesAt f m := by
    refine fun m hm => localDependencies_importsAt fun i hi => h.lookupTarget_eq (hset i.1 ?_)
    exact List.mem_map_of_mem (List.mem_flatten.2 ⟨_, List.mem_map_of_mem hm, hi⟩)
  change (d.pending.zip (d.pending.map (l.importsAt f))).foldl (fun d e =>
    d.add e.1 (l.localDependencies s.cache e.2)) d.beginWave = _
  rw [← List.map_prod_left_eq_zip, List.foldl_map]
  exact List.foldl_ext _ _ _ fun d m hm => by rw [hdeps m hm]

end Faithful

/-- Importing a compiled module remembers no source. -/
theorem sources_importEager (url : Url) (graph : Option Graph) (a : Artifact) (s : Session) :
    (Session.importEager url graph a s).2.cache.sources = s.cache.sources := by
  rcases importEager_cases url graph a s with ⟨blobUrl, -, -, heq⟩ | ⟨f, u, cause, heq⟩
  · rw [heq]
    cases hread : s.readBlob blobUrl with
    | error reason => rw [Session.importBlob_of_error hread]
    | ok m => rw [Session.importBlob_of_ok hread]; rfl
  · rw [heq]
    rfl

/-- What agrees with the answers does so after every act, if the graphs that are drawn are those of
discoveries that have come to their ends. -/
theorem Faithful.of_acts {free : Prop} (h : l.Faithful f s)
    (ha : l.Acts (fun u a => a = f u) (l.IsDrawn f) free s s') : l.Faithful f s' := by
  cases ha with
  | learns hl => exact h.of_learns hl
  | draws entry g hd hg heq =>
    subst heq
    have hgrows := (prepares_insertGraph hd).toGrows
    refine ⟨h.sources, h.resolutions, fun e he => ?_⟩
    rcases Memo.mem_entries_insert he with hold | rfl
    · exact (h.graphs e hold).of_grows hgrows
    · exact hg.of_grows hgrows
  | registers m hnew hturn hreg =>
    obtain ⟨a, hc, -⟩ := hreg.registers.compiles
    exact h.of_sameTables hc.grows hc.sameSources hc.sameResolutions hc.sameGraphs
  | imports url a ha heq =>
    subst heq
    have hi := Session.imports_importEager url (s.cache.graphContaining? url) a s
    exact h.of_sameTables hi.toGrows (sources_importEager _ _ _ _) hi.sameResolutions hi.sameGraphs
  | clears heq =>
    subst heq
    exact ⟨fun _ _ h => (nomatch h), fun _ _ h => (nomatch h), fun _ h => (nomatch h)⟩

/-! ## Waves are rounds -/

/-- One module leads to another: by a reference that names a URL that leads there. -/
def LeadsTo (l : Loader) (f : Url → Answer) (m t : Url) : Prop :=
  ∃ r u, l.Names f m r u ∧ l.targetOf f u = t

/-- Modules lead where what should be recorded of them says. -/
theorem leadsTo_dependenciesAt (l : Loader) (f : Url → Answer) :
    Discovery.LeadsTo (l.dependenciesAt f) = l.LeadsTo f := by
  funext m t
  rw [Discovery.LeadsTo, map_fst_dependenciesAt, mem_targetsAt_iff]
  rfl

/-- What is asked for while the graph of an entry is discovered. -/
inductive AskedFrom (l : Loader) (f : Url → Answer) (entry : Url) : Request → Prop
  /-- The source of a module that the entry leads to. -/
  | source {m : Url} (hm : ReflTransGen (l.LeadsTo f) entry m) : AskedFrom l f entry ⟨m, .source⟩
  /-- A candidate for a URL without extension that such a module names. -/
  | probe {m u candidate : Url} {r : Reference} (hm : ReflTransGen (l.LeadsTo f) entry m)
      (hr : l.Names f m r u) (hu : u.hasExtension = false)
      (hc : candidate ∈ Resolver.candidates l.config u) :
      AskedFrom l f entry (Resolver.probe l.config candidate)

/-- The discovery has gone through rounds from the entry, has scanned each module once that it has
been to, and may go through some more. -/
structure InRounds (l : Loader) (f : Url → Answer) (entry : Url) (limit : Nat) (start : Session)
    (k : Nat) (d : Discovery) (w : World Session ω) : Prop where
  /-- What is remembered agrees with the answers. -/
  faithful : l.Faithful f w.state
  /-- The waves have been rounds. -/
  rounds : ∃ n, n + k = limit ∧ d = Discovery.rounds (l.dependenciesAt f) entry n
  /-- It is known which modules the imports of the scanned modules lead to. -/
  settled : ∀ m ∈ d.processed, ∀ i ∈ l.importsAt f m, w.state.Settled i.1
  /-- Each module has been scanned as often as it has been in a wave. -/
  scans : ∀ m, Loader.scans w.state m = Loader.scans start m + d.processed.count m

/-- Reporting what was scanned in the modules of a wave reports each of them once. -/
theorem scans_settle (l : Loader) (d : Discovery) (wave : List (Url × List (Url × Bool)))
    (s : Session) (m : Url) :
    scans (l.settle d wave s).2 m = scans s m + (wave.map Prod.fst).count m := by
  change (s.events ++ wave.map _).countP _ = _
  rw [List.countP_append, List.countP_map, List.count, List.countP_map]
  refine congrArg _ (List.countP_congr fun e _ => ?_)
  simp

/-- The waves of a discovery are rounds. -/
theorem waveInvariant_inRounds (l : Loader) (f : Url → Answer) (entry : Url) (limit : Nat)
    (start : Session) :
    l.WaveInvariant (ω := ω) (fun u a => a = f u) (l.AskedFrom f entry)
      (l.InRounds f entry limit start) where
  inquires := fun h hi =>
    ⟨h.faithful.of_learns hi.learns, h.rounds,
      fun m hm i himp => hi.learns.toGrows.settled (h.settled m hm i himp),
      fun m => (hi.sameScans m).trans (h.scans m)⟩
  source := by
    rintro k d w ⟨-, ⟨n, -, rfl⟩, -, -⟩ m hm
    have hreached := (Discovery.searched_rounds (l.dependenciesAt f) entry n).reached m
      (List.mem_append_right _ hm)
    rw [leadsTo_dependenciesAt] at hreached
    exact .source hreached
  probe := by
    rintro k d w scans ⟨hfaithful, ⟨n, -, rfl⟩, -, -⟩ hattested u hu hext candidate hc
    obtain rfl := hfaithful.scans_eq hattested
    obtain ⟨⟨u, b⟩, hi, rfl⟩ := List.mem_map.1 hu
    obtain ⟨_, himports, hi⟩ := List.mem_flatten.1 hi
    obtain ⟨m, hm, rfl⟩ := List.mem_map.1 himports
    obtain ⟨r, hr, -⟩ := mem_importsAt_iff.1 hi
    have hreached := (Discovery.searched_rounds (l.dependenciesAt f) entry n).reached m
      (List.mem_append_right _ hm)
    rw [leadsTo_dependenciesAt] at hreached
    exact .probe hreached hr hext hc
  settle := by
    rintro k d w scans ⟨hfaithful, ⟨n, hn, hd⟩, hset, hscans⟩ - - hwave
    have hnext := hfaithful.settle_eq_next hwave
    have hlearns : l.Learns (fun u a => a = f u) w.state
        (l.settle d.beginWave (d.pending.zip scans) w.state).2 := learns_settle l _ _ _
    refine ⟨hfaithful.of_learns hlearns, ⟨n + 1, by omega, hnext.trans (by rw [hd]; rfl)⟩,
      fun m hm i hi => hlearns.toGrows.settled ?_, fun m => ?_⟩
    · rw [hnext, Discovery.processed_next] at hm
      rcases List.mem_append.1 hm with hm | hm
      · exact hset m hm i hi
      · obtain rfl := hfaithful.scans_eq hwave.attested
        exact hwave.settled i.1
          (List.mem_map_of_mem (List.mem_flatten.2 ⟨_, List.mem_map_of_mem hm, hi⟩))
    · rw [hnext, Discovery.processed_next, List.count_append, ← Nat.add_assoc, ← hscans m,
        scans_settle, List.map_fst_zip (Nat.le_of_eq hwave.attested.length_eq)]

/-! ## Wherever calls lead -/

/-- A discovery in a state that agrees with the answers goes through rounds. -/
theorem inRounds_discover (hf : server.AnswersBy f) {w : World Session ω}
    (h : l.Faithful f w.state) (limit : Nat) (entry : Url) :
    (l.discover limit 0 (.start entry)).attempt.Keeps server
      (l.Explores (fun u a => a = f u) (l.AskedFrom f entry))
      (l.Discovers (l.InRounds f entry limit w.state) entry) w :=
  (waveInvariant_inRounds l f entry limit w.state).keeps_attempt_discover hf.says limit 0
    (Discovered.start l w.state entry) (.inr (List.mem_singleton.2 rfl))
    ⟨h, ⟨0, Nat.zero_add limit, rfl⟩, fun _ h => (nomatch h), fun _ => rfl⟩

/-- The graph of a discovery that has come to its end is drawn. -/
theorem InRounds.isDrawn {entry : Url} {limit k : Nat} {start : Session} {d : Discovery}
    {w : World Session ω} (h : l.InRounds f entry limit start k d w) (hpending : d.pending = []) :
    l.IsDrawn f w.state entry d.graph := by
  obtain ⟨-, ⟨n, -, rfl⟩, hset, -⟩ := h
  refine ⟨⟨n, hpending, rfl⟩, fun m hm => hset m ?_⟩
  exact (Discovery.mem_urls_rounds_iff hpending).1 hm

/-- The discoveries that may begin in a state that agrees with the answers draw their graphs. -/
theorem Faithful.mayDiscover (hf : server.AnswersBy f) {w : World Session ω}
    (h : l.Faithful f w.state) :
    l.MayDiscover server (fun u a => a = f u) (l.IsDrawn f) w := by
  intro limit entry
  refine (((inRounds_discover hf h limit entry).of_attempt).mono
    fun _ _ h => ⟨h.learns, h.requests.imp fun _ hqs => ⟨hqs.1, fun _ _ => trivial⟩⟩).imp ?_
  rintro ⟨g, waves⟩ w' ⟨hd, k, d, hrounds, hpending, rfl⟩
  exact ⟨hd, fun s' hl => (hrounds.isDrawn hpending).of_grows hl.toGrows⟩

/-- Calls lead to states that agree with the answers. -/
theorem faithful_of_reached (hf : server.AnswersBy f) {kind : Call → Prop} {w : World Session ω}
    (hw : l.Reached server kind w) : l.Faithful f w.state :=
  inv_of_reached (l.IsDrawn f) True hf.says (faithful_start l f) (fun _ _ h => h.mayDiscover hf)
    (fun _ _ _ h ha => h.of_acts ha) (fun _ _ => trivial) hw

end Loader

end ModuleLoader
