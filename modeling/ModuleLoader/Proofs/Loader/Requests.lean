import ModuleLoader.Proofs.Loader.Asking

/-! # How often a module is asked for

A server that always answers a URL the same way is asked for a module as often as the loader needs
to find it: once for its source, unless a probe has brought that, and once for each URL without
extension that turns out to stand for it.

* **`Loader.Accounts`** is what holds of the requests and of what is remembered between calls.
* **`Loader.requests_of_module`** counts the requests for a module. -/

namespace ModuleLoader.Loader

open Relation

variable {ω : Type} {server : Server ω} {f : Url → Answer}
variable {l : Loader} {s s' s'' : Session} {requested : List Url}

/-! ## What holds between calls -/

/-- The module is what the search for an extension of the URL finds. -/
def isFoundFor (l : Loader) (f : Url → Answer) (t u : Url) : Bool :=
  (Resolver.candidates l.config u).find? (Resolver.isModuleAt f) = some t

/-- The accounts of the requests for a module: its source has been asked for once at most, and is
remembered then; a probe has asked for it once for each URL that it was found for. -/
structure Accounts (l : Loader) (f : Url → Answer) (t : Url) (w : World Session ω) : Prop where
  /-- No URL is resolved twice. -/
  nodup : w.state.cache.resolutions.keys.Nodup
  /-- What has been found is what the URLs stand for. -/
  resolved : ∀ e ∈ w.state.cache.resolutions.entries, e.2 = Resolver.standsFor l.config f e.1
  /-- The source has been asked for once at most. -/
  sourceAsks_le : sourceAsks t w.requests ≤ 1
  /-- A source that has been asked for is remembered. -/
  remembered : 0 < sourceAsks t w.requests → w.state.cache.sources.contains t = true
  /-- A probe has asked once for each URL. -/
  probeAsks_eq :
    probeAsks t w.requests = w.state.cache.resolutions.keys.countP (l.isFoundFor f t)

variable {t : Url} {w w' : World Session ω}

/-- Nothing has been asked for at the start. -/
theorem accounts_start (l : Loader) (f : Url → Answer) (t : Url) (x : ω) :
    l.Accounts f t (l.start x) where
  nodup := List.nodup_nil
  resolved := fun _ h => nomatch h
  sourceAsks_le := Nat.zero_le 1
  remembered := fun h => absurd h (Nat.lt_irrefl 0)
  probeAsks_eq := rfl

/-- The accounts stay as they are when nothing is asked for, and nothing resolved or forgotten. -/
theorem Accounts.of_eq (h : l.Accounts f t w) (hreq : w'.requests = w.requests)
    (hres : w'.state.cache.resolutions = w.state.cache.resolutions)
    (hsrc : w.state.cache.sources.Extends w'.state.cache.sources) : l.Accounts f t w' where
  nodup := by rw [hres]; exact h.nodup
  resolved := by rw [hres]; exact h.resolved
  sourceAsks_le := by rw [hreq]; exact h.sourceAsks_le
  remembered := by rw [hreq]; exact fun hpos => hsrc.contains (h.remembered hpos)
  probeAsks_eq := by rw [hreq, hres]; exact h.probeAsks_eq

/-- Adding requests to a list adds to what is asked for. -/
theorem sourceAsks_append (t : Url) (qs qs' : List Request) :
    sourceAsks t (qs ++ qs') = sourceAsks t qs + sourceAsks t qs' :=
  List.count_append

theorem probeAsks_append (t : Url) (qs qs' : List Request) :
    probeAsks t (qs ++ qs') = probeAsks t qs + probeAsks t qs' :=
  List.countP_append

/-- What has been asked for does not depend on the order. -/
theorem asks_of_perm (t : Url) {qs qs' : List Request} (h : qs.Perm qs') :
    sourceAsks t qs = sourceAsks t qs' ∧ probeAsks t qs = probeAsks t qs' :=
  ⟨h.count_eq _, h.countP_eq _⟩

/-- A source that was looked for later was not remembered before. -/
theorem Fetched.of_grows {url : Url} {qs : List Request} (h : Fetched f s' url qs s'')
    (hg : s.Grows s') : Fetched f s url qs s'' := by
  refine h.imp_right fun h => ⟨h.1, ?_, h.2.2⟩
  by_contra hsource
  rw [Bool.not_eq_false] at hsource
  exact Bool.false_ne_true (h.2.1.symm.trans (hg.sources.contains hsource))

/-- Fetching the sources of different modules asks for each once at most. -/
theorem asks_of_fetched {β : Type} (ht : Resolver.isModuleAt f t = true) {batch : List Url}
    (results : List (β × List Request))
    (h : List.Forall₂ (fun url r => Fetched f s url r.2 s') batch results) :
    sourceAsks t (results.flatMap Prod.snd) ≤ batch.count t ∧
      probeAsks t (results.flatMap Prod.snd) = 0 ∧
      (0 < sourceAsks t (results.flatMap Prod.snd) →
        s.cache.sources.contains t = false ∧ s'.cache.sources.contains t = true) := by
  induction h with
  | nil => exact ⟨Nat.le_refl 0, rfl, fun h => absurd h (Nat.lt_irrefl 0)⟩
  | @cons url r batch results hfetched _ ih =>
    obtain ⟨ihle, ihprobe, ihpos⟩ := ih
    rw [List.flatMap_cons, sourceAsks_append, probeAsks_append, List.count_cons]
    rcases hfetched with hnone | ⟨hone, hnew, hthere⟩
    · rw [hnone]
      refine ⟨?_, ?_, ?_⟩
      · simp only [sourceAsks, List.count_nil] at ihle ⊢
        omega
      · simpa [probeAsks] using ihprobe
      · simpa [sourceAsks] using ihpos
    · rw [hone]
      by_cases hurl : url = t
      · subst hurl
        refine ⟨?_, ?_, fun _ => ⟨hnew, hthere ht⟩⟩
        · simp only [sourceAsks, List.count_singleton_self, beq_self_eq_true, if_true] at ihle ⊢
          omega
        · simpa [probeAsks] using ihprobe
      · refine ⟨?_, ?_, ?_⟩
        · simp [sourceAsks, hurl] at ihle ⊢
          exact ihle
        · simpa [probeAsks, hurl] using ihprobe
        · simpa [sourceAsks, hurl] using ihpos

/-- Finding extensions probes for a module once for each URL that it is found for. -/
theorem asks_of_inferred {β : Type} (ht : Resolver.isModuleAt f t = true)
    {results : List (β × List Request)}
    (h : List.Forall₂ (fun u r => r.2 =
      (Resolver.asked f (Resolver.candidates l.config u)).map (Resolver.probe l.config))
      requested results) :
    sourceAsks t (results.flatMap Prod.snd) = 0 ∧
      probeAsks t (results.flatMap Prod.snd) = requested.countP (l.isFoundFor f t) := by
  induction h with
  | nil => exact ⟨rfl, rfl⟩
  | @cons u r requested results hr _ ih =>
    obtain ⟨hsource, hprobe⟩ := asks_map_probe l.config t
      (Resolver.asked f (Resolver.candidates l.config u))
    rw [List.flatMap_cons, sourceAsks_append, probeAsks_append, List.countP_cons, ih.1, ih.2, hr,
      hsource, hprobe, Resolver.count_asked ht]
    refine ⟨rfl, ?_⟩
    rw [Nat.add_comm]
    simp [isFoundFor]

/-! ## Waves -/

/-- When some URLs have been resolved that were not before, there are these more. -/
theorem Resolves.keys_perm (h : l.Resolves f requested s s')
    (hn : s.cache.resolutions.keys.Nodup) (hr : requested.Nodup)
    (hnew : ∀ u ∈ requested, u ∉ s.cache.resolutions.keys)
    (hall : ∀ u ∈ requested, s'.cache.resolutions.contains u = true) :
    s'.cache.resolutions.keys.Perm (s.cache.resolutions.keys ++ requested) := by
  -- both lists have no key twice, so it is enough that they have the same keys
  have hboth : (s.cache.resolutions.keys ++ requested).Nodup :=
    List.nodup_append.2 ⟨hn, hr, fun u hu v hv huv => hnew v hv (huv ▸ hu)⟩
  refine (List.perm_ext_iff_of_nodup (h.nodup hn) hboth).2 fun u => ?_
  rw [List.mem_append]
  constructor
  · intro hu
    obtain ⟨e, he, rfl⟩ := List.mem_map.1 hu
    exact (h.resolved e he).imp List.mem_map_of_mem And.left
  · rintro (hu | hu)
    · exact Memo.contains_iff_mem_keys.1
        (h.resolutions.contains (Memo.contains_iff_mem_keys.2 hu))
    · exact Memo.contains_iff_mem_keys.1 (hall u hu)

/-- The accounts are kept when some URLs are resolved, a probe asks for the module once for each of
them that it is found for, and its source is asked for once if it is not remembered. -/
theorem Accounts.of_resolves {qs : List Request} (h : l.Accounts f t w)
    (hres : l.Resolves f requested w.state w'.state) (hr : requested.Nodup)
    (hnew : ∀ u ∈ requested, u ∉ w.state.cache.resolutions.keys)
    (hall : ∀ u ∈ requested, w'.state.cache.resolutions.contains u = true)
    (hperm : w'.requests.Perm (w.requests ++ qs))
    (hprobe : probeAsks t qs = requested.countP (l.isFoundFor f t)) (hle : sourceAsks t qs ≤ 1)
    (hpos : 0 < sourceAsks t qs → w.state.cache.sources.contains t = false ∧
      w'.state.cache.sources.contains t = true) :
    l.Accounts f t w' := by
  obtain ⟨hsource, hprobe'⟩ := asks_of_perm t hperm
  rw [sourceAsks_append] at hsource
  rw [probeAsks_append, h.probeAsks_eq, hprobe, ← List.countP_append] at hprobe'
  have hold := h.remembered
  refine ⟨hres.nodup h.nodup, ?_, ?_, ?_, ?_⟩
  · intro e he
    rcases hres.resolved e he with he | he
    · exact h.resolved e he
    · exact he.2
  -- a source that has been asked for is remembered, and is not asked for again
  · have hle' := h.sourceAsks_le
    by_cases hasked : 0 < sourceAsks t w.requests
    · have hnone : ¬ 0 < sourceAsks t qs := fun hq =>
        Bool.false_ne_true ((hpos hq).1.symm.trans (hold hasked))
      omega
    · omega
  · intro hasked
    by_cases hq : 0 < sourceAsks t qs
    · exact (hpos hq).2
    · exact hres.sources.contains (hold (by omega))
  · rw [hprobe']
    exact ((hres.keys_perm h.nodup hr hnew hall).countP_eq _).symm

/-- Fetching and scanning different modules together keeps the accounts. -/
theorem accounts_scan (hf : server.AnswersBy f) (ht : Resolver.isModuleAt f t = true)
    {batch : List Url} (hn : batch.Nodup) (h : l.Accounts f t w) :
    (Op.together (batch.map l.scanModule)).Keeps server (fun _ _ => True)
      (fun _ w' => l.Accounts f t w') w := by
  refine Op.keeps_together (l.resolving f []) batch l.scanModule
    (fun url _ qs w' => Fetched f w.state url qs w'.state) (fun _ _ _ => trivial) ?_ ?_
  -- a task may begin when others have gone on, but they only add to what is remembered
  · intro url _ w₁ hw₁
    exact (asks_scanModule hf url w₁).imp fun _ qs w₂ hfetched =>
      hfetched.of_grows (resolves_of_resolving hw₁).toGrows
  · intro results w₁ hw₁ hpost hperm
    obtain ⟨hle, hprobe, hpos⟩ := asks_of_fetched ht results hpost
    exact h.of_resolves (resolves_of_resolving hw₁) List.nodup_nil (by simp) (by simp) hperm hprobe
      (Nat.le_trans hle (List.nodup_iff_count_le_one.1 hn t)) hpos

/-- Finding extensions for URLs that have not been resolved keeps the accounts. -/
theorem accounts_infer (hf : server.AnswersBy f) (ht : Resolver.isModuleAt f t = true)
    (hr : requested.Nodup) (hnew : ∀ u ∈ requested, u ∉ w.state.cache.resolutions.keys)
    (h : l.Accounts f t w) :
    (Op.together (requested.map l.infer)).Keeps server (fun _ _ => True)
      (fun _ w' => l.Accounts f t w') w := by
  refine Op.keeps_together (l.resolving f requested) requested l.infer
    (fun u _ qs w' => w'.state.cache.resolutions.contains u = true ∧
      qs = (Resolver.asked f (Resolver.candidates l.config u)).map (Resolver.probe l.config))
    (fun _ _ _ => trivial) (fun u hu w₁ _ => asks_infer hf hu w₁) ?_
  intro results w₁ hw₁ hpost hperm
  obtain ⟨hsource, hprobe⟩ := asks_of_inferred ht (hpost.imp fun _ _ h => h.2)
  have hall := ((List.forall₂_and_left _ _).1 hpost).1
  exact h.of_resolves (resolves_of_resolving hw₁) hr hnew hall hperm hprobe (by omega)
    (fun hpos => by omega)

/-- No module is twice in the next wave. -/
theorem nodup_pending_settle (l : Loader) (d : Discovery)
    (wave : List (Url × List (Url × Bool))) (s : Session) (h : d.pending.Nodup) :
    (l.settle d wave s).1.pending.Nodup := by
  rw [settle]
  induction wave generalizing d with
  | nil => exact h
  | cons e wave ih => exact ih _ (nodup_foldl_addOnce _ h)

/-- What is unresolved has not been resolved. -/
theorem notMem_keys_of_mem_unresolved {c : Cache Module} {u : Url}
    (h : u ∈ unresolved c requested) : u ∉ c.resolutions.keys := by
  rw [← Memo.contains_iff_mem_keys, (mem_unresolved.1 h).2.2]
  exact Bool.false_ne_true

/-- A wave keeps the accounts. -/
theorem accounts_wave (hf : server.AnswersBy f) (ht : Resolver.isModuleAt f t = true)
    (waves : Nat) {d : Discovery} (hd : d.pending.Nodup) (h : l.Accounts f t w) :
    (l.wave waves d).Keeps server (fun _ _ => True)
      (fun d' w' => d'.pending.Nodup ∧ l.Accounts f t w') w := by
  have hreport : l.Accounts f t { w with
      state := (Session.report (.discovering waves d.pending.length) w.state).2 } :=
    h.of_eq rfl rfl (.refl _)
  refine Op.keeps_bind (Op.keeps_act trivial ?_)
  refine Op.keeps_bind ((accounts_scan hf ht hd hreport).imp fun scans w₁ h₁ => ?_)
  refine Op.keeps_bind (Op.keeps_act trivial ?_)
  refine Op.keeps_bind ((accounts_infer hf ht (nodup_unresolved _ _)
    (fun u hu => notMem_keys_of_mem_unresolved hu) h₁).imp fun _ w₂ h₂ => ?_)
  exact Op.keeps_act trivial
    ⟨nodup_pending_settle l _ _ _ List.nodup_nil, h₂.of_eq rfl rfl (.refl _)⟩

/-- A discovery keeps the accounts. -/
theorem accounts_discover (hf : server.AnswersBy f) (ht : Resolver.isModuleAt f t = true)
    (limit waves : Nat) {d : Discovery} (hd : d.pending.Nodup) (h : l.Accounts f t w) :
    (l.discover limit waves d).Keeps server (fun _ _ => True)
      (fun _ w' => l.Accounts f t w') w :=
  (keeps_discover_of_wave (fun d w => d.pending.Nodup ∧ l.Accounts f t w)
    (fun waves _ _ h _ => accounts_wave hf ht waves h.1 h.2) limit waves ⟨hd, h⟩).imp
      fun _ _ ⟨_, ⟨_, h⟩, _⟩ => h

/-- Building a graph keeps the accounts. -/
theorem accounts_buildGraph (hf : server.AnswersBy f) (ht : Resolver.isModuleAt f t = true)
    (limit : Nat) (entry : Url) (h : l.Accounts f t w) :
    (l.buildGraph limit entry).Keeps server (fun _ _ => True)
      (fun _ w' => l.Accounts f t w') w := by
  unfold buildGraph
  refine Op.keeps_look trivial ?_
  cases w.state.cache.graphs.get? entry with
  | some g => exact Op.keeps_bind (Op.keeps_act trivial (h.of_eq rfl rfl (.refl _)))
  | none =>
    refine Op.keeps_bind ((accounts_discover hf ht limit 0 (List.nodup_singleton entry) h).imp ?_)
    intro (graph, waves) w₁ h₁
    refine Op.keeps_bind (Op.keeps_act trivial ?_)
    exact Op.keeps_act trivial (h₁.of_eq rfl rfl (.refl _))

/-- Fetching a source keeps the accounts. -/
theorem accounts_fetchSource (hf : server.AnswersBy f) (ht : Resolver.isModuleAt f t = true)
    (url : Url) (h : l.Accounts f t w) :
    (fetchSource url).Keeps server (fun _ _ => False) (l.resolving f [])
      (fun _ qs w' => w'.requests = w.requests ++ qs → l.Accounts f t w') [] w := by
  have hfetch := (asks_fetchSource (l := l) hf [] url w).alone.moved .refl
  refine hfetch.imp fun _ qs w₁ hpost hreq => ?_
  obtain ⟨hfetched, hmoved⟩ := hpost
  obtain ⟨hle, hprobe, hpos⟩ := asks_of_fetched ht [((), qs)]
    (.cons hfetched .nil)
  rw [List.flatMap_cons, List.flatMap_nil, List.append_nil] at hle hprobe hpos
  refine h.of_resolves (resolves_of_resolving hmoved) List.nodup_nil (by simp) (by simp)
    (by rw [hreq]) hprobe (Nat.le_trans hle ?_) hpos
  exact List.nodup_iff_count_le_one.1 (List.nodup_singleton url) t

/-! ## Calls -/

/-- Compiling a module keeps the accounts. -/
theorem accounts_compileModule (hf : server.AnswersBy f) (ht : Resolver.isModuleAt f t = true)
    (m : Url) (h : l.Accounts f t w) :
    (Op.one (l.compileModule m)).Keeps server (fun _ _ => True)
      (fun _ w' => l.Accounts f t w') w := by
  refine Op.keeps_one ?_
  unfold compileModule
  refine Task.keeps_bind (Task.keeps_act trivial fun w₁ hw₁ => ?_)
  obtain rfl : w₁ = w := Task.eq_of_alone hw₁
  split
  · exact fun hreq => h.of_eq (hreq.trans (List.append_nil _)) rfl (.refl _)
  · refine Task.keeps_bind (((accounts_fetchSource hf ht m h).mono (fun _ _ h => h)
      fun _ _ _ => trivial).imp fun r qs w₂ h₂ => ?_)
    cases r with
    | ok source =>
      have hc := compiles_register l m source w₂.state
      refine Task.keeps_act trivial fun w₃ hw₃ hreq => ?_
      obtain rfl := Task.eq_of_alone hw₃
      exact (h₂ hreq).of_eq rfl hc.sameResolutions hc.grows.sources
    | error e =>
      refine Task.keeps_act trivial fun w₃ hw₃ hreq => ?_
      obtain rfl := Task.eq_of_alone hw₃
      exact (h₂ hreq).of_eq rfl rfl (.refl _)

/-- Compiling modules keeps the accounts. -/
theorem accounts_compileModules (hf : server.AnswersBy f) (ht : Resolver.isModuleAt f t = true)
    (order : List Url) (h : l.Accounts f t w) :
    (l.compileModules order).Keeps server (fun _ _ => True) (fun _ w' => l.Accounts f t w') w :=
  keeps_compileModules (fun _ w' => l.Accounts f t w')
    (fun _ m _ _ _ h => accounts_compileModule hf ht m h) h

/-- Importing keeps the accounts. -/
theorem Accounts.of_imports {url : Url} {s' : Session} (h : l.Accounts f t w)
    (hi : w.state.Imports s' url) : l.Accounts f t { w with state := s' } :=
  h.of_eq rfl hi.sameResolutions hi.sources

/-- A load keeps the accounts. -/
theorem accounts_loadModule (hf : server.AnswersBy f) (ht : Resolver.isModuleAt f t = true)
    (limit : Nat) (url : Url) (h : l.Accounts f t w) :
    (l.loadModule limit url).Keeps server (fun _ _ => True) (fun _ w' => l.Accounts f t w') w := by
  unfold loadModule
  refine Op.keeps_look trivial ?_
  cases w.state.cache.modules.get? url with
  | some m => exact Op.keeps_bind (Op.keeps_act trivial (h.of_eq rfl rfl (.refl _)))
  | none =>
    refine Op.keeps_bind ((accounts_buildGraph hf ht limit url h).imp fun g w₁ h₁ => ?_)
    cases g.topologicalSort with
    | error circle => exact h₁
    | ok order =>
      refine Op.keeps_bind ((accounts_compileModules hf ht order h₁).imp fun _ w₂ h₂ => ?_)
      exact Op.keeps_act trivial (h₂.of_imports (imports_importEntry url g w₂.state))

/-- Every call but the one that forgets everything keeps the accounts. -/
theorem accounts_perform (hf : server.AnswersBy f) (ht : Resolver.isModuleAt f t = true)
    {c : Call} (hc : c ≠ .cleanup) (h : l.Accounts f t w) :
    (l.perform c).Keeps server (fun _ _ => True) (fun _ w' => l.Accounts f t w') w := by
  cases c with
  | load limit entry =>
    refine Op.keeps_bind ?_
    unfold load
    cases Url.parse entry with
    | error e => exact h
    | ok url => exact accounts_loadModule hf ht limit url h
  | loadModule limit url => exact Op.keeps_bind (accounts_loadModule hf ht limit url h)
  | buildGraph limit entry => exact Op.keeps_bind (accounts_buildGraph hf ht limit entry h)
  | fetchSource url =>
    exact Op.keeps_bind (Op.keeps_one
      ((accounts_fetchSource hf ht url h).mono (fun _ _ h => h) fun _ _ _ => trivial))
  | compileModules order => exact accounts_compileModules hf ht order h
  | importCompiled url =>
    exact Op.keeps_bind (Op.keeps_act trivial
      (h.of_imports (imports_importCompiled url w.state)))
  | cleanup => exact absurd rfl hc

/-- Calls, one after the other, keep the accounts. -/
theorem accounts_performAll (hf : server.AnswersBy f) (ht : Resolver.isModuleAt f t = true)
    {calls : List Call} (hc : ∀ c ∈ calls, c ≠ .cleanup) (h : l.Accounts f t w) :
    (l.performAll calls).Keeps server (fun _ _ => True) (fun _ w' => l.Accounts f t w') w := by
  induction calls generalizing w with
  | nil => exact h
  | cons c calls ih =>
    rw [List.forall_mem_cons] at hc
    exact Op.keeps_bind ((accounts_perform hf ht hc.1 h).imp fun _ _ h₁ => ih hc.2 h₁)

/-- Whatever is called, and whatever order the answers come in, a server that always answers a URL
the same way is asked for a module once if the source of the module is asked for, and once more for
each URL without extension that it is found for. So it is asked for the module at most once exactly
if its source is not asked for while it is found for some URL, and it is found for one URL at
most. -/
theorem requests_of_module (hf : server.AnswersBy f) (ht : (f t).moduleBody?.isSome = true)
    {calls : List Call} (hc : ∀ c ∈ calls, c ≠ .cleanup) {x : ω}
    (hrun : Op.Steps server (l.performAll calls, l.start x) (.done (), w)) :
    w.requests.countP (fun q => q.url = t) =
        (if ⟨t, .source⟩ ∈ w.requests then 1 else 0) +
          w.state.cache.resolutions.entries.countP
            (fun e => e.2 = t ∧ t ∈ Resolver.candidates l.config e.1) ∧
      (w.requests.countP (fun q => q.url = t) ≤ 1 ↔
        (⟨t, .source⟩ ∈ w.requests →
          ∀ e ∈ w.state.cache.resolutions.entries,
            e.2 = t → t ∉ Resolver.candidates l.config e.1) ∧
        w.state.cache.resolutions.entries.countP
          (fun e => e.2 = t ∧ t ∈ Resolver.candidates l.config e.1) ≤ 1) := by
  have h : l.Accounts f t w :=
    ((accounts_performAll hf ht hc (accounts_start l f t x)).steps hrun).2
  have hsource : sourceAsks t w.requests = if ⟨t, .source⟩ ∈ w.requests then 1 else 0 := by
    have hle := h.sourceAsks_le
    unfold sourceAsks at hle ⊢
    split
    · next hmem =>
      have hpos := List.count_pos_iff.2 hmem
      omega
    · next hmem => exact List.count_eq_zero.2 hmem
  have hprobe : probeAsks t w.requests = w.state.cache.resolutions.entries.countP
      (fun e => e.2 = t ∧ t ∈ Resolver.candidates l.config e.1) := by
    rw [h.probeAsks_eq, Memo.keys, List.countP_map]
    refine List.countP_congr fun e he => ?_
    rw [h.resolved e he, decide_eq_true_eq, Resolver.standsFor_eq_iff ht, Function.comp_apply,
      isFoundFor, decide_eq_true_eq]
  have hcount : w.requests.countP (fun q => q.url = t) =
      (if ⟨t, .source⟩ ∈ w.requests then 1 else 0) +
        w.state.cache.resolutions.entries.countP
          (fun e => e.2 = t ∧ t ∈ Resolver.candidates l.config e.1) := by
    rw [countP_url_eq, hsource, hprobe]
  refine ⟨hcount, ?_⟩
  rw [hcount]
  -- the sum is at most one if one of its parts is zero and the other at most one
  by_cases hmem : ⟨t, .source⟩ ∈ w.requests
  · have hnone : (w.state.cache.resolutions.entries.countP
          (fun e => e.2 = t ∧ t ∈ Resolver.candidates l.config e.1) = 0) ↔
        ∀ e ∈ w.state.cache.resolutions.entries,
          e.2 = t → t ∉ Resolver.candidates l.config e.1 := by
      simp [List.countP_eq_zero]
    rw [if_pos hmem, ← hnone]
    constructor
    · exact fun hle => ⟨fun _ => by omega, by omega⟩
    · rintro ⟨hzero, -⟩
      have := hzero hmem
      omega
  · rw [if_neg hmem, Nat.zero_add]
    exact ⟨fun hle => ⟨fun h => absurd h hmem, hle⟩, And.right⟩

/-- A server of a few modules always answers a URL the same way. -/
theorem answersBy_ofModules (modules : List (String × String)) :
    (Server.ofModules modules).AnswersBy (answerOf modules) :=
  fun _ _ => rfl

/-- A module that imports another without its extension. -/
def extensionless : List (String × String) :=
  [("main.js", "import \"./util\";\n"), ("util.js", "export const u = 1;\n")]

/-- A load of the module asks for the other once, since the probe brings its source. -/
theorem requests_of_loaded_module :
    ∃ w : World Session Unit,
      Op.Steps (Server.ofModules extensionless)
        (default.performAll [.loadModule 3 (fileUrl "main.js")], default.start ()) (.done (), w) ∧
      w.requests.countP (fun q => q.url = fileUrl "util.js") =
        (if ⟨fileUrl "util.js", .source⟩ ∈ w.requests then 1 else 0) +
          w.state.cache.resolutions.entries.countP (fun e =>
            e.2 = fileUrl "util.js" ∧
              fileUrl "util.js" ∈ Resolver.candidates default.config e.1) := by
  refine ⟨_, Op.steps_of_fst_run ?_, ?_⟩
  · decide +kernel
  · refine (requests_of_module (answersBy_ofModules extensionless) ?_ (by simp)
      (Op.steps_of_fst_run ?_)).1
    · decide +kernel
    · decide +kernel

/-- A module whose source has been fetched before another imports it without its extension is
asked for twice: the search for the extension does not look at what is remembered. -/
theorem two_requests_for_module :
    ∃ w : World Session Unit,
      (Server.ofModules extensionless).AnswersBy (answerOf extensionless) ∧
      (answerOf extensionless (fileUrl "util.js")).moduleBody?.isSome = true ∧
      Op.Steps (Server.ofModules extensionless)
        (default.performAll [.fetchSource (fileUrl "util.js"), .buildGraph 3 (fileUrl "main.js")],
          default.start ()) (.done (), w) ∧
      w.requests.countP (fun q => q.url = fileUrl "util.js") = 2 := by
  refine ⟨_, answersBy_ofModules extensionless, ?_, Op.steps_of_fst_run ?_, ?_⟩
  · decide +kernel
  · decide +kernel
  · decide +kernel

end ModuleLoader.Loader
