import ModuleLoader.Proofs.Loader.OneWave
import ModuleLoader.Proofs.Loader.Targets

/-! # What a discovery records

Whatever order the answers of a wave come in, the graph gets what was scanned in every module, and
every import leads where it is known to lead for good.

* **`Loader.Discovered`** is the invariant of the waves, `Loader.Discovered.add` its step.
* **`searching`** is what the tasks of a wave promise each other.
* **`Loader.keeps_buildGraph`** says what holds when a graph has been built. -/

namespace ModuleLoader

open Relation

variable {l : Loader} {s s' : Session} {d : Discovery} {known : List Url}

/-! ## Adding what a module imports -/

namespace Discovery

/-- The modules that are listed when the imports of one have been added. -/
theorem mem_urls_add (d : Discovery) (m : Url) (deps : List (Url × Bool)) (v : Url) :
    v ∈ (d.add m deps).graph.urls ↔ v ∈ d.graph.urls ∨ v = m ∨ v ∈ deps.map Prod.fst := by
  rw [add, Graph.urls_foldl_markLazy, Graph.urls_add, mem_foldl_addOnce, mem_addOnce]
  tauto

/-- The modules of the next wave when the imports of one have been added. -/
theorem mem_pending_add (d : Discovery) (m : Url) (deps : List (Url × Bool)) (v : Url) :
    v ∈ (d.add m deps).pending ↔ v ∈ d.pending ∨ v ∈ deps.map Prod.fst ∧ v ∉ d.processed := by
  rw [add, mem_foldl_addOnce, List.mem_filter, decide_eq_true_eq]

/-- A module of which nothing was recorded imports what has been added. -/
theorem dependencies_add {d : Discovery} {m : Url} {deps : List (Url × Bool)}
    (hblank : d.graph.dependencies m = []) (hn : (deps.map Prod.fst).Nodup) (v : Url) :
    (d.add m deps).graph.dependencies v =
      if v = m then deps.map Prod.fst else d.graph.dependencies v := by
  rw [add, Graph.dependencies_foldl_markLazy, Graph.dependencies_add]
  by_cases hv : v = m
  · subst hv
    rw [if_pos rfl, if_pos rfl, hblank, foldl_addOnce_of_disjoint hn (by simp), List.nil_append]
  · rw [if_neg hv, if_neg hv]

/-- A module of which nothing was recorded imports by `import()` alone what has been marked so. -/
theorem lazyDependencies_add {d : Discovery} {m : Url} {deps : List (Url × Bool)}
    (hblank : d.graph.lazyDependencies m = []) (hn : (deps.map Prod.fst).Nodup) (v : Url) :
    (d.add m deps).graph.lazyDependencies v =
      if v = m then (deps.filter Prod.snd).map Prod.fst else d.graph.lazyDependencies v := by
  have hsub : List.Sublist ((deps.filter Prod.snd).map Prod.fst) (deps.map Prod.fst) :=
    List.filter_sublist.map Prod.fst
  have hmem : ∀ t ∈ (deps.filter Prod.snd).map Prod.fst,
      t ∈ (d.graph.add m (deps.map Prod.fst)).dependencies m := by
    intro t ht
    rw [Graph.dependencies_add, if_pos rfl, mem_foldl_addOnce]
    exact .inr (hsub.subset ht)
  rw [add, Graph.lazyDependencies_foldl_markLazy hmem, Graph.lazyDependencies_add]
  by_cases hv : v = m
  · subst hv
    rw [if_pos rfl, if_pos rfl, hblank, foldl_addOnce_of_disjoint (hn.sublist hsub) (by simp),
      List.nil_append]
  · rw [if_neg hv, if_neg hv]

end Discovery

namespace Loader

/-! ## The waves -/

/-- How far a discovery has come when the imports of the known modules have been added. -/
structure Discovered (l : Loader) (s : Session) (d : Discovery) (known : List Url) : Prop where
  /-- Every module is listed once, and so is what it imports. -/
  wellFormed : d.graph.WellFormed
  /-- What is recorded of a known module has been scanned in it. -/
  recorded : ∀ m ∈ known, m ∈ d.graph.urls ∧
    ∃ imports, l.Scanned s m imports ∧ l.Records s d.graph m imports
  /-- Nothing is recorded of other modules. -/
  blank : ∀ m, m ∉ known → d.graph.dependencies m = [] ∧ d.graph.lazyDependencies m = []
  /-- Every listed module has been scanned or is about to be. -/
  listed : ∀ m ∈ d.graph.urls, m ∈ d.processed ∨ m ∈ d.pending
  /-- No module is twice in the next wave. -/
  nodup : d.pending.Nodup
  /-- The modules of the next wave are new. -/
  fresh : ∀ m ∈ d.pending, m ∉ d.processed

namespace Discovered

/-- What has been discovered stays true. -/
theorem of_grows (h : l.Discovered s d known) (hg : s.Grows s') : l.Discovered s' d known :=
  { h with
    recorded := by
      intro m hm
      obtain ⟨hurl, imports, hscan, hrec⟩ := h.recorded m hm
      exact ⟨hurl, imports, hscan.of_grows hg, hrec.of_grows hg⟩ }

/-- Nothing has been discovered at the start. -/
theorem start (l : Loader) (s : Session) (entry : Url) :
    l.Discovered s (.start entry) [] where
  wellFormed := Graph.wellFormed_empty
  recorded := by simp
  blank := fun _ _ => ⟨rfl, rfl⟩
  listed := by simp [Discovery.start, Graph.empty, Graph.urls]
  nodup := List.nodup_singleton entry
  fresh := by simp [Discovery.start]

/-- When a wave begins, none of the modules that it adds is in the wave after it. -/
theorem beginWave (h : l.Discovered s d known) : l.Discovered s d.beginWave known where
  wellFormed := h.wellFormed
  recorded := h.recorded
  blank := h.blank
  listed := fun m hm => .inl (List.mem_append.2 (h.listed m hm))
  nodup := List.nodup_nil
  fresh := by simp [Discovery.beginWave]

/-- The imports of one more module are added. -/
theorem add (h : l.Discovered s d known) {m : Url} {imports : List (Url × Bool)}
    (hm : m ∉ known) (hp : m ∈ d.processed) (hscan : l.Scanned s m imports)
    (hset : ∀ i ∈ imports, s.Settled i.1) :
    l.Discovered s (d.add m (l.localDependencies s.cache imports)) (known ++ [m]) := by
  have hn := nodup_localDependencies l s.cache imports
  obtain ⟨hblank, hblank'⟩ := h.blank m hm
  have hdependencies := Discovery.dependencies_add hblank hn
  have hlazyDependencies := Discovery.lazyDependencies_add hblank' hn
  refine ⟨(h.wellFormed.add m _).foldl_markLazy m _, ?_, ?_, ?_, nodup_foldl_addOnce _ h.nodup, ?_⟩
  · intro v hv
    rw [Discovery.mem_urls_add]
    rcases List.mem_append.1 hv with hv | hv
    · obtain ⟨hurl, js, hscan', hrec⟩ := h.recorded v hv
      have hne : v ≠ m := fun e => hm (e ▸ hv)
      refine ⟨.inl hurl, js, hscan', hrec.settled, ?_, ?_⟩
      · rw [hdependencies, if_neg hne, hrec.dependencies]
      · rw [hlazyDependencies, if_neg hne, hrec.lazyDependencies]
    · rw [List.mem_singleton] at hv
      subst hv
      refine ⟨.inr (.inl rfl), imports, hscan, hset, ?_, ?_⟩
      · rw [hdependencies, if_pos rfl]
      · rw [hlazyDependencies, if_pos rfl]
  · intro v hv
    rw [List.mem_append, List.mem_singleton, not_or] at hv
    rw [hdependencies, hlazyDependencies, if_neg hv.2, if_neg hv.2]
    exact h.blank v hv.1
  -- a module that is listed now was listed before, is the one that is added, or is imported by it
  · intro v hv
    rw [Discovery.mem_pending_add]
    rcases (Discovery.mem_urls_add d m _ v).1 hv with hv | rfl | hv
    · exact (h.listed v hv).imp_right .inl
    · exact .inl hp
    · by_cases hold : v ∈ d.processed
      · exact .inl hold
      · exact .inr (.inr ⟨hv, hold⟩)
  · intro v hv
    rcases (Discovery.mem_pending_add d m _ v).1 hv with hv | hv
    · exact h.fresh v hv
    · exact hv.2

/-- The imports of the modules of a wave are added. -/
theorem foldl_add (h : l.Discovered s d known) (wave : List (Url × List (Url × Bool)))
    (hn : (wave.map Prod.fst).Nodup) (hnew : ∀ m ∈ wave.map Prod.fst, m ∉ known)
    (hp : ∀ m ∈ wave.map Prod.fst, m ∈ d.processed)
    (hscan : ∀ e ∈ wave, l.Scanned s e.1 e.2) (hset : ∀ e ∈ wave, ∀ i ∈ e.2, s.Settled i.1) :
    l.Discovered s
        (wave.foldl (fun d (url, imports) => d.add url (l.localDependencies s.cache imports)) d)
        (known ++ wave.map Prod.fst) ∧
      (wave.foldl (fun d (url, imports) =>
        d.add url (l.localDependencies s.cache imports)) d).processed = d.processed := by
  induction wave generalizing d known with
  | nil => exact ⟨by simpa using h, rfl⟩
  | cons e wave ih =>
    obtain ⟨m, imports⟩ := e
    rw [List.map_cons, List.nodup_cons] at hn
    have hadd := h.add (hnew m (by simp)) (hp m (by simp)) (hscan (m, imports) (by simp))
      (hset (m, imports) (by simp))
    obtain ⟨hrest, hproc⟩ := ih hadd hn.2
      (by
        intro v hv hmem
        rcases List.mem_append.1 hmem with hmem | hmem
        · exact hnew v (by simp only [List.map_cons, List.mem_cons]; exact .inr hv) hmem
        · rw [List.mem_singleton] at hmem
          exact hn.1 (hmem ▸ hv))
      (fun v hv => hp v (by simp only [List.map_cons, List.mem_cons]; exact .inr hv))
      (fun e he => hscan e (by simp [he])) (fun e he => hset e (by simp [he]))
    rw [List.append_assoc] at hrest
    exact ⟨hrest, hproc⟩

end Discovered

end Loader

/-! ## The tasks of a wave -/

variable {ω : Type} {server : Server ω}

/-- What the tasks of a wave promise each other: to do nothing but search. -/
def searching (w w' : World Session ω) : Prop := w.state.Searches w'.state

/-- Searching for some steps is searching. -/
theorem searches_of_searching {w w' : World Session ω} (h : ReflTransGen searching w w') :
    w.state.Searches w'.state := by
  induction h with
  | refl => exact .refl _
  | tail _ h ih => exact ih.trans h

namespace Loader

/-- Fetching a source is searching; a source that is there at the end is remembered. -/
theorem keeps_fetchSource (url : Url) (qs : List Request) (w : World Session ω) :
    (fetchSource url).Keeps server searching searching
      (fun r _ w' => ∀ source, r = .ok source → w'.state.cache.sources.get? url = some source)
      qs w := by
  unfold fetchSource
  refine Task.keeps_look (.refl _) fun w₁ hw₁ => ?_
  cases hsource : w.state.cache.sources.get? url with
  | some source =>
    rintro _ ⟨rfl⟩
    exact (searches_of_searching hw₁).sources url source hsource
  | none =>
    refine Task.keeps_bind (Task.keeps_ask (.refl _) fun w₂ hw₂ => ?_)
    cases hanswer : Answer.source (World.ask server ⟨url, .source⟩ w₁).1 url with
    | error e =>
      intro source h
      cases h
    | ok text =>
      refine Task.keeps_map (Task.keeps_act (Session.searches_insertSource url text _) ?_)
      rintro w₃ hw₃ _ ⟨rfl⟩
      refine (searches_of_searching hw₃).sources url _ ?_
      exact Memo.get?_insert_eq_getD w₂.state.cache.sources url text

/-- Scanning a source finds its imports, and does nothing but report. -/
theorem searches_scanSource (l : Loader) (url : Url) (source : String) (s : Session) :
    (l.scanSource url source s).1 = l.importsIn url source ∧
      s.Searches (l.scanSource url source s).2 := by
  unfold scanSource
  by_cases hf : (scan l.config.scanMode source url.pathText).faults > 0
  · simp only [if_pos hf]
    exact ⟨rfl, Session.searches_report _ s⟩
  · simp only [if_neg hf]
    exact ⟨rfl, .refl s⟩

/-- Scanning a source remembers nothing. -/
theorem cache_scanSource (l : Loader) (url : Url) (source : String) (s : Session) :
    (l.scanSource url source s).2.cache = s.cache := by
  unfold scanSource
  by_cases hf : (scan l.config.scanMode source url.pathText).faults > 0
  · simp only [if_pos hf]
    rfl
  · simp only [if_neg hf]
    rfl

/-- Scanning a module is searching; what it ends with has been scanned. -/
theorem keeps_scanModule (l : Loader) (url : Url) (w : World Session ω) :
    (l.scanModule url).Keeps server searching searching
      (fun imports _ w' => l.Scanned w'.state url imports) [] w := by
  unfold scanModule
  refine Task.keeps_bind ((keeps_fetchSource url [] w).imp fun r qs w₁ hr => ?_)
  cases r with
  | ok source =>
    have hsource := hr source rfl
    obtain ⟨himports, hscan⟩ := searches_scanSource l url source w₁.state
    refine Task.keeps_act hscan fun w₂ hw₂ => .inl ⟨source, ?_, himports⟩
    exact (searches_of_searching hw₂).sources url source (hscan.sources url source hsource)
  | error e =>
    refine Task.keeps_bind (Task.keeps_act (Session.searches_report _ _) fun w₂ hw₂ => ?_)
    refine .inr ⟨rfl, (searches_of_searching hw₂).missed ⟨e, ?_⟩⟩
    exact List.mem_append_right _ (List.mem_singleton.2 rfl)

/-- Asking for candidates is searching. -/
theorem keeps_probeAll (c : Config) (requested : Url) (candidates : List Url) (qs : List Request)
    (w : World Session ω) :
    (Resolver.probeAll c (fun e => Task.act (Session.report e)) requested candidates).Keeps server
      searching searching (fun _ _ _ => True) qs w := by
  induction candidates generalizing qs w with
  | nil => exact Task.keeps_bind (Task.keeps_act (Session.searches_report _ _) fun _ _ => trivial)
  | cons candidate rest ih =>
    refine Task.keeps_bind (Task.keeps_ask (.refl _) fun w₁ _ => ?_)
    cases (World.ask server (Resolver.probe c candidate) w).1.moduleBody? with
    | some body =>
      exact Task.keeps_bind (Task.keeps_act (Session.searches_report _ _) fun _ _ => trivial)
    | none =>
      exact Task.keeps_bind (Task.keeps_act (Session.searches_report _ _) fun w₂ _ => ih _ w₂)

/-- Finding an extension is searching; in the end the URL is settled. -/
theorem keeps_infer (l : Loader) (requested : Url) (w : World Session ω) :
    (l.infer requested).Keeps server searching searching
      (fun _ _ w' => w'.state.Settled requested) [] w := by
  refine Task.keeps_bind ((keeps_probeAll l.config requested _ [] w).imp fun r qs w₁ _ => ?_)
  refine Task.keeps_bind
    (Task.keeps_act (Session.searches_insertResolution requested r.url _) fun w₂ hw₂ => ?_)
  have hset : w₂.state.Settled requested :=
    (searches_of_searching hw₂).settled (.inr (Memo.contains_insert _ requested r.url))
  cases r.source with
  | some body =>
    refine Task.keeps_act (Session.searches_insertSource r.url body _) fun w₃ hw₃ => ?_
    exact (searches_of_searching hw₃).settled
      ((Session.searches_insertSource r.url body w₂.state).settled hset)
  | none => exact hset

/-! ## Building a graph -/

/-- What building a graph may do: it does not compile and leaves a state sound. -/
structure Prepares (l : Loader) (s s' : Session) : Prop extends s.Grows s' where
  /-- Nothing is compiled. -/
  sameCompiled : s'.cache.compiled = s.cache.compiled
  /-- Nothing is imported. -/
  sameModules : s'.cache.modules = s.cache.modules
  /-- No transformer is called. -/
  sameCompilations : s'.compilations = s.compilations
  /-- No blob is made. -/
  sameBlobs : s'.blobs = s.blobs
  /-- The imported modules are counted on from the same number. -/
  sameSerial : s'.serial = s.serial
  /-- A sound state stays sound. -/
  sound : l.Sound s → l.Sound s'

/-- Searching is all right while a graph is built. -/
theorem prepares_of_searches (h : s.Searches s') : l.Prepares s s' where
  toGrows := h.toGrows
  sameCompiled := h.sameCompiled
  sameModules := h.sameModules
  sameCompilations := h.sameCompilations
  sameBlobs := h.sameBlobs
  sameSerial := h.sameSerial
  sound := fun hs => hs.of_searches h

/-- Preparing twice is preparing. -/
theorem Prepares.trans {s'' : Session} (h : l.Prepares s s') (h' : l.Prepares s' s'') :
    l.Prepares s s'' where
  toGrows := h.toGrows.trans h'.toGrows
  sameCompiled := h'.sameCompiled.trans h.sameCompiled
  sameModules := h'.sameModules.trans h.sameModules
  sameCompilations := h'.sameCompilations.trans h.sameCompilations
  sameBlobs := h'.sameBlobs.trans h.sameBlobs
  sameSerial := h'.sameSerial.trans h.sameSerial
  sound := fun hs => h'.sound (h.sound hs)

/-- Remembering a graph that has what was scanned is all right while it is built. -/
theorem prepares_insertGraph {entry : Url} {g : Graph} (h : l.Describes s entry g) :
    l.Prepares s (Session.remember (fun c => c.insertGraph entry g) s).2 := by
  have hg : s.Grows (Session.remember (fun c => c.insertGraph entry g) s).2 :=
    { Session.Grows.refl s with graphs := Memo.extends_insert s.cache.graphs entry g }
  refine ⟨hg, rfl, rfl, rfl, rfl, rfl, fun hs => ⟨fun entry' g' hg' => ?_, hs.failed⟩⟩
  rcases Memo.get?_insert_elim hg' with hold | ⟨rfl, rfl, -⟩
  · exact (hs.described entry' g' hold).of_grows hg
  · exact h.of_grows hg

/-- What building a graph promises: to prepare, and not to compile. -/
def preparing (l : Loader) (w w' : World Session ω) : Prop := l.Prepares w.state w'.state

/-- The imports of the modules of a wave are settled when what was unresolved is. -/
theorem settled_of_unresolved {requested : List Url}
    (h : ∀ u ∈ unresolved s.cache requested, s'.Settled u) (hg : s.Grows s') {u : Url}
    (hu : u ∈ requested) : s'.Settled u := by
  by_cases hset : s.Settled u
  · exact hg.settled hset
  · rw [Session.Settled, not_or, Bool.not_eq_true, Bool.not_eq_true] at hset
    exact h u (mem_unresolved.2 ⟨hu, hset⟩)

/-- What the tasks of a stage have each settled is settled. -/
theorem settled_of_forall₂ {us : List Url} {results : List (Unit × List Request)}
    (h : List.Forall₂ (fun u _ => s.Settled u) us results) : ∀ u ∈ us, s.Settled u := by
  have hboth := h.imp (S := fun u _ => s.Settled u ∧ True) fun _ _ hu => ⟨hu, trivial⟩
  exact ((List.forall₂_and_left _ _).1 hboth).1

/-- A discovery with nothing left to do has the graph. -/
theorem Discovered.describes (h : l.Discovered s d d.processed) {entry : Url}
    (he : entry ∈ d.processed ∨ entry ∈ d.pending) (hp : d.pending = []) :
    l.Describes s entry d.graph where
  wellFormed := h.wellFormed
  entry_mem := (h.recorded entry (he.resolve_right (by simp [hp]))).1
  recorded := by
    intro m hm
    exact (h.recorded m ((h.listed m hm).resolve_right (by simp [hp]))).2

/-- When the imports of a wave have been scanned and are settled, they are added. -/
theorem Discovered.settle (h : l.Discovered s d d.processed) {scans : List (List (Url × Bool))}
    (hscan : List.Forall₂ (fun m imports => l.Scanned s m imports) d.pending scans)
    (hset : ∀ u ∈ scans.flatten.map Prod.fst, s.Settled u) :
    l.Discovered s (l.settle d.beginWave (d.pending.zip scans) s).1
        (l.settle d.beginWave (d.pending.zip scans) s).1.processed ∧
      (l.settle d.beginWave (d.pending.zip scans) s).1.processed = d.processed ++ d.pending := by
  obtain ⟨hlen, hzip⟩ := List.forall₂_iff_zip.1 hscan
  have hfst : (d.pending.zip scans).map Prod.fst = d.pending := List.map_fst_zip (Nat.le_of_eq hlen)
  have hfold := h.beginWave.foldl_add (d.pending.zip scans) (by rw [hfst]; exact h.nodup)
    (by rw [hfst]; exact h.fresh)
    (by rw [hfst]; exact fun m hm => List.mem_append_right _ hm)
    (fun e he => hzip he)
    (fun e he i hi => by
      refine hset i.1 (List.mem_map_of_mem (List.mem_flatten.2 ⟨e.2, ?_, hi⟩))
      exact (List.of_mem_zip he).2)
  rw [hfst] at hfold
  obtain ⟨hdisc, hproc⟩ := hfold
  refine ⟨?_, hproc⟩
  rw [show (l.settle d.beginWave (d.pending.zip scans) s).1.processed = d.processed ++ d.pending
    from hproc]
  exact hdisc

/-- A wave adds what was scanned in its modules, and all that they import is settled then. -/
theorem keeps_wave (waves : Nat) {d : Discovery} {entry : Url} {w : World Session ω}
    (hd : l.Discovered w.state d d.processed) (he : entry ∈ d.processed ∨ entry ∈ d.pending) :
    (l.wave waves d).Keeps server l.preparing
      (fun d' w' => l.Discovered w'.state d' d'.processed ∧
        (entry ∈ d'.processed ∨ entry ∈ d'.pending)) w := by
  unfold wave
  refine Op.keeps_bind (Op.keeps_act (prepares_of_searches (Session.searches_report _ _)) ?_)
  refine Op.keeps_bind (Op.keeps_together searching d.pending l.scanModule
    (fun m imports _ w' => l.Scanned w'.state m imports) (fun _ _ => prepares_of_searches)
    (fun m _ w' _ => keeps_scanModule l m w') ?_)
  intro results w₁ hw₁ hscan _
  refine Op.keeps_bind (Op.keeps_act (prepares_of_searches (.refl _)) ?_)
  refine Op.keeps_bind (Op.keeps_together searching _ l.infer
    (fun requested _ _ w' => w'.state.Settled requested) (fun _ _ => prepares_of_searches)
    (fun requested _ w' _ => keeps_infer l requested w') ?_)
  intro _ w₂ hw₂ hinferred _
  -- what the tasks found at the end of their stage still holds when the wave is added
  have hfirst := (Session.searches_report (.discovering waves d.pending.length) w.state).trans
    (searches_of_searching hw₁)
  have hsecond := searches_of_searching hw₂
  have hd₂ := hd.of_grows (hfirst.trans hsecond).toGrows
  have hscan₂ : List.Forall₂ (fun m imports => l.Scanned w₂.state m imports) d.pending
      (results.map Prod.fst) :=
    List.forall₂_map_right_iff.2 (hscan.imp fun _ _ h => h.of_grows hsecond.toGrows)
  obtain ⟨hd₃, hproc⟩ := hd₂.settle hscan₂ fun u hu =>
    settled_of_unresolved (settled_of_forall₂ hinferred) hsecond.toGrows hu
  have hsettle : w₂.state.Searches
      (l.settle d.beginWave (d.pending.zip (results.map Prod.fst)) w₂.state).2 :=
    Session.searches_reportAll _ _
  refine Op.keeps_act (prepares_of_searches hsettle) ⟨hd₃.of_grows hsettle.toGrows, .inl ?_⟩
  -- the entry is in the first wave, so it has been processed when there is another
  rw [hproc]
  exact List.mem_append.2 he

/-- A discovery ends with a graph that has what was scanned. -/
theorem keeps_discover (limit waves : Nat) {d : Discovery} {entry : Url} {w : World Session ω}
    (hd : l.Discovered w.state d d.processed) (he : entry ∈ d.processed ∨ entry ∈ d.pending) :
    (l.discover limit waves d).Keeps server l.preparing
      (fun r w' => l.Describes w'.state entry r.1) w := by
  refine (keeps_discover_of_wave
    (fun d w => l.Discovered w.state d d.processed ∧ (entry ∈ d.processed ∨ entry ∈ d.pending))
    (fun waves _ _ h _ => keeps_wave waves h.1 h.2) limit waves ⟨hd, he⟩).imp ?_
  rintro ⟨_, n⟩ w' ⟨d', ⟨hd', he'⟩, hp, rfl⟩
  exact hd'.describes he' hp

/-- Building a graph does not compile, and ends with a graph that is remembered for the entry. -/
theorem keeps_buildGraph (l : Loader) (limit : Nat) (entry : Url) (w : World Session ω) :
    (l.buildGraph limit entry).Keeps server l.preparing
      (fun g w' => w'.state.cache.graphs.get? entry = some g) w := by
  unfold buildGraph
  refine Op.keeps_look (prepares_of_searches (.refl _)) ?_
  cases hgraph : w.state.cache.graphs.get? entry with
  | some g =>
    exact Op.keeps_bind (Op.keeps_act (prepares_of_searches (Session.searches_report _ _)) hgraph)
  | none =>
    have hentry : entry ∈ (Discovery.start entry).pending := List.mem_singleton.2 rfl
    refine Op.keeps_bind
      ((keeps_discover limit 0 (Discovered.start l w.state entry) (.inr hentry)).imp ?_)
    intro (graph, waves) w₁ hdescribes
    have hreport := Session.searches_report (.graphBuilt entry graph.size waves) w₁.state
    refine Op.keeps_bind (Op.keeps_act (prepares_of_searches hreport) ?_)
    refine Op.keeps_act (prepares_insertGraph (hdescribes.of_grows hreport.toGrows)) ?_
    exact Memo.get?_insert_eq_getD w₁.state.cache.graphs entry graph

end Loader

end ModuleLoader
