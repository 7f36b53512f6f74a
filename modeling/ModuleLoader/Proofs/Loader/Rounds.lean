import Mathlib.Data.List.Perm.Subperm
import Mathlib.Logic.Relation
import ModuleLoader.Proofs.Loader.Discovery

/-! # Rounds of a discovery

When it is known what every module leads to, each wave of a discovery is decided by the one before.
The rounds go on until nothing is new, and what they have found then is all that the entry leads
to.

* **`Discovery.next`** is one round, **`Discovery.rounds`** any number of them.
* **`Discovery.Searched`** is what every round keeps.
* **`Discovery.IsGraphOf`** is the graph of a discovery with nothing left to do; there is at most
  one, **`Discovery.IsGraphOf.mem_urls_iff`** says what it lists, and
  **`Discovery.IsGraphOf.recorded`** what it records.
* **`Discovery.pending_rounds_eq_nil`** bounds the number of rounds. -/

namespace ModuleLoader.Discovery

open Relation

variable {deps : Url → List (Url × Bool)} {entry : Url} {d : Discovery} {g : Graph}

/-- One module leads to another. -/
def LeadsTo (deps : Url → List (Url × Bool)) (m t : Url) : Prop := t ∈ (deps m).map Prod.fst

/-- What the modules of a wave lead to is added. -/
def next (deps : Url → List (Url × Bool)) (d : Discovery) : Discovery :=
  d.pending.foldl (fun d m => d.add m (deps m)) d.beginWave

/-- A discovery after some rounds. -/
def rounds (deps : Url → List (Url × Bool)) (entry : Url) : Nat → Discovery
  | 0 => start entry
  | n + 1 => next deps (rounds deps entry n)

/-! ## One round -/

/-- Adding what some modules lead to changes nothing of what has been scanned. -/
theorem processed_foldl_add (deps : Url → List (Url × Bool)) (ms : List Url) (d : Discovery) :
    (ms.foldl (fun d m => d.add m (deps m)) d).processed = d.processed := by
  induction ms generalizing d with
  | nil => rfl
  | cons m ms ih => exact ih (d.add m (deps m))

/-- The modules that are new when what some modules lead to has been added. -/
theorem mem_pending_foldl_add (ms : List Url) (d : Discovery) (v : Url) :
    v ∈ (ms.foldl (fun d m => d.add m (deps m)) d).pending ↔
      v ∈ d.pending ∨ (∃ m ∈ ms, LeadsTo deps m v) ∧ v ∉ d.processed := by
  induction ms generalizing d with
  | nil => simp
  | cons m ms ih =>
    rw [List.foldl_cons, ih, mem_pending_add]
    change (_ ∨ LeadsTo deps m v ∧ _) ∨ _ ∧ v ∉ d.processed ↔ _
    simp only [List.exists_mem_cons_iff]
    tauto

/-- No module is new twice. -/
theorem nodup_pending_foldl_add (ms : List Url) {d : Discovery} (h : d.pending.Nodup) :
    (ms.foldl (fun d m => d.add m (deps m)) d).pending.Nodup := by
  induction ms generalizing d with
  | nil => exact h
  | cons m ms ih => exact ih (nodup_foldl_addOnce _ h)

/-- The modules that are listed when what some modules lead to has been added. -/
theorem mem_urls_foldl_add (ms : List Url) (d : Discovery) (v : Url) :
    v ∈ (ms.foldl (fun d m => d.add m (deps m)) d).graph.urls ↔
      v ∈ d.graph.urls ∨ v ∈ ms ∨ ∃ m ∈ ms, LeadsTo deps m v := by
  induction ms generalizing d with
  | nil => simp
  | cons m ms ih =>
    rw [List.foldl_cons, ih, mem_urls_add]
    change (_ ∨ _ ∨ LeadsTo deps m v) ∨ _ ↔ _
    rw [List.exists_mem_cons_iff, List.mem_cons]
    tauto

/-- A round scans the modules of the wave. -/
theorem processed_next (d : Discovery) :
    (next deps d).processed = d.processed ++ d.pending :=
  processed_foldl_add deps d.pending d.beginWave

/-- The next wave is what the modules of this one lead to, as far as it is new. -/
theorem mem_pending_next (d : Discovery) (v : Url) :
    v ∈ (next deps d).pending ↔
      (∃ m ∈ d.pending, LeadsTo deps m v) ∧ v ∉ d.processed ++ d.pending := by
  rw [next, mem_pending_foldl_add]
  simp [beginWave]

/-- A round lists the modules of the wave and what they lead to. -/
theorem mem_urls_next (d : Discovery) (v : Url) :
    v ∈ (next deps d).graph.urls ↔
      v ∈ d.graph.urls ∨ v ∈ d.pending ∨ ∃ m ∈ d.pending, LeadsTo deps m v :=
  mem_urls_foldl_add d.pending d.beginWave v

/-- When nothing is left to do, a round does nothing. -/
theorem next_of_pending_eq_nil (h : d.pending = []) : next deps d = d := by
  obtain ⟨graph, processed, pending⟩ := d
  subst h
  simp [next, beginWave]

/-! ## Any number of rounds -/

/-- What every round keeps. -/
structure Searched (deps : Url → List (Url × Bool)) (entry : Url) (d : Discovery) : Prop where
  /-- No module is scanned twice. -/
  nodup : (d.processed ++ d.pending).Nodup
  /-- The entry is scanned, now or later. -/
  entry_mem : entry ∈ d.processed ++ d.pending
  /-- Every listed module is scanned, now or later. -/
  listed : ∀ m ∈ d.graph.urls, m ∈ d.processed ++ d.pending
  /-- Every scanned module is listed. -/
  scanned : ∀ m ∈ d.processed, m ∈ d.graph.urls
  /-- What a scanned module leads to is scanned, now or later. -/
  closed : ∀ m ∈ d.processed, ∀ t, LeadsTo deps m t → t ∈ d.processed ++ d.pending
  /-- The entry leads to all that is scanned. -/
  reached : ∀ m ∈ d.processed ++ d.pending, ReflTransGen (LeadsTo deps) entry m

/-- At the start the entry is to be scanned. -/
theorem searched_start (deps : Url → List (Url × Bool)) (entry : Url) :
    Searched deps entry (start entry) where
  nodup := List.nodup_singleton entry
  entry_mem := List.mem_singleton.2 rfl
  listed := fun _ h => nomatch h
  scanned := fun _ h => nomatch h
  closed := fun _ h => nomatch h
  reached := by
    intro m hm
    obtain rfl := List.mem_singleton.1 hm
    exact .refl

/-- A round keeps what it should. -/
theorem Searched.next (h : Searched deps entry d) : Searched deps entry (next deps d) := by
  -- a target of the wave has been scanned before, or is in the next wave
  have htarget : ∀ m ∈ d.pending, ∀ t, LeadsTo deps m t →
      t ∈ (d.processed ++ d.pending) ++ (Discovery.next deps d).pending := by
    intro m hm t ht
    by_cases hold : t ∈ d.processed ++ d.pending
    · exact List.mem_append_left _ hold
    · exact List.mem_append_right _ ((mem_pending_next d t).2 ⟨⟨m, hm, ht⟩, hold⟩)
  refine ⟨?_, ?_, ?_, ?_, ?_, ?_⟩
  · rw [processed_next]
    refine List.nodup_append.2 ⟨h.nodup, nodup_pending_foldl_add _ List.nodup_nil, ?_⟩
    rintro v hv _ hnew rfl
    exact ((mem_pending_next d v).1 hnew).2 hv
  · rw [processed_next]
    exact List.mem_append_left _ h.entry_mem
  · intro v hv
    rw [processed_next]
    rcases (mem_urls_next d v).1 hv with hv | hv | ⟨m, hm, ht⟩
    · exact List.mem_append_left _ (h.listed v hv)
    · exact List.mem_append_left _ (List.mem_append_right _ hv)
    · exact htarget m hm v ht
  · intro v hv
    rw [processed_next] at hv
    rw [mem_urls_next]
    rcases List.mem_append.1 hv with hv | hv
    · exact .inl (h.scanned v hv)
    · exact .inr (.inl hv)
  · intro m hm t ht
    rw [processed_next] at hm ⊢
    rcases List.mem_append.1 hm with hm | hm
    · exact List.mem_append_left _ (h.closed m hm t ht)
    · exact htarget m hm t ht
  · intro v hv
    rw [processed_next] at hv
    rcases List.mem_append.1 hv with hv | hv
    · exact h.reached v hv
    · obtain ⟨⟨m, hm, ht⟩, -⟩ := (mem_pending_next d v).1 hv
      exact (h.reached m (List.mem_append_right _ hm)).tail ht

/-- Any number of rounds keep what they should. -/
theorem searched_rounds (deps : Url → List (Url × Bool)) (entry : Url) (n : Nat) :
    Searched deps entry (rounds deps entry n) := by
  induction n with
  | zero => exact searched_start deps entry
  | succ n ih => exact ih.next

/-- When nothing is left to do, more rounds do nothing. -/
theorem rounds_eq_of_le {n k : Nat} (h : (rounds deps entry n).pending = []) (hk : n ≤ k) :
    rounds deps entry k = rounds deps entry n := by
  induction hk with
  | refl => rfl
  | step _ ih =>
    rw [rounds, ih]
    exact next_of_pending_eq_nil h

/-- The graph of a discovery with nothing left to do. -/
def IsGraphOf (deps : Url → List (Url × Bool)) (entry : Url) (g : Graph) : Prop :=
  ∃ n, (rounds deps entry n).pending = [] ∧ (rounds deps entry n).graph = g

/-- There is at most one graph. -/
theorem IsGraphOf.eq {g' : Graph} (h : IsGraphOf deps entry g) (h' : IsGraphOf deps entry g') :
    g = g' := by
  obtain ⟨n, hn, rfl⟩ := h
  obtain ⟨k, hk, rfl⟩ := h'
  rcases Nat.le_total n k with hle | hle
  · rw [rounds_eq_of_le hn hle]
  · rw [rounds_eq_of_le hk hle]

/-- The modules that are listed when nothing is left to do are those that have been scanned. -/
theorem mem_urls_rounds_iff {n : Nat} (h : (rounds deps entry n).pending = []) {m : Url} :
    m ∈ (rounds deps entry n).graph.urls ↔ m ∈ (rounds deps entry n).processed := by
  have hs := searched_rounds deps entry n
  refine ⟨fun hm => ?_, hs.scanned m⟩
  simpa [h] using hs.listed m hm

/-- The graph lists what the entry leads to, and nothing else. -/
theorem IsGraphOf.mem_urls_iff (h : IsGraphOf deps entry g) {m : Url} :
    m ∈ g.urls ↔ ReflTransGen (LeadsTo deps) entry m := by
  obtain ⟨n, hn, rfl⟩ := h
  have hs := searched_rounds deps entry n
  have hall : ∀ v, v ∈ (rounds deps entry n).processed ++ (rounds deps entry n).pending ↔
      v ∈ (rounds deps entry n).processed := by
    simp [hn]
  rw [mem_urls_rounds_iff hn, ← hall]
  refine ⟨hs.reached m, fun hm => ?_⟩
  induction hm with
  | refl => exact hs.entry_mem
  | tail _ ht ih => exact hs.closed _ ((hall _).1 ih) _ ht

/-! ## What is recorded -/

/-- The graph has what the known modules lead to, and nothing else. -/
structure Recorded (deps : Url → List (Url × Bool)) (known : List Url) (g : Graph) : Prop where
  /-- Every module is listed once, and so is what it leads to. -/
  wellFormed : g.WellFormed
  /-- What a known module leads to is recorded of it. -/
  dependencies : ∀ m ∈ known, g.dependencies m = (deps m).map Prod.fst
  /-- It is marked as lazy where it should be. -/
  lazyDependencies : ∀ m ∈ known,
    g.lazyDependencies m = ((deps m).filter Prod.snd).map Prod.fst
  /-- Nothing is recorded of other modules. -/
  blank : ∀ m, m ∉ known → g.dependencies m = [] ∧ g.lazyDependencies m = []

variable {known : List Url}

/-- What one more module leads to is recorded. -/
theorem Recorded.add (h : Recorded deps known d.graph) (hnodup : ∀ m, ((deps m).map Prod.fst).Nodup)
    {m : Url} (hm : m ∉ known) : Recorded deps (known ++ [m]) (d.add m (deps m)).graph := by
  obtain ⟨hblank, hblank'⟩ := h.blank m hm
  have hdependencies := dependencies_add hblank (hnodup m)
  have hlazyDependencies := lazyDependencies_add hblank' (hnodup m)
  refine ⟨(h.wellFormed.add m _).foldl_markLazy m _, ?_, ?_, ?_⟩
  · intro v hv
    rw [hdependencies]
    by_cases hvm : v = m
    · rw [if_pos hvm, hvm]
    · rw [if_neg hvm]
      exact h.dependencies v (by simpa [hvm] using hv)
  · intro v hv
    rw [hlazyDependencies]
    by_cases hvm : v = m
    · rw [if_pos hvm, hvm]
    · rw [if_neg hvm]
      exact h.lazyDependencies v (by simpa [hvm] using hv)
  · intro v hv
    rw [List.mem_append, List.mem_singleton, not_or] at hv
    rw [hdependencies, hlazyDependencies, if_neg hv.2, if_neg hv.2]
    exact h.blank v hv.1

/-- What several new modules lead to is recorded. -/
theorem Recorded.foldl_add (h : Recorded deps known d.graph)
    (hnodup : ∀ m, ((deps m).map Prod.fst).Nodup) {ms : List Url} (hms : (known ++ ms).Nodup) :
    Recorded deps (known ++ ms) (ms.foldl (fun d m => d.add m (deps m)) d).graph := by
  induction ms generalizing d known with
  | nil => simpa using h
  | cons m ms ih =>
    rw [List.append_cons] at hms ⊢
    have hm : m ∉ known := fun hmem =>
      (List.nodup_append.1 (List.nodup_append.1 hms).1).2.2 m hmem m List.mem_cons_self rfl
    exact ih (h.add hnodup hm) hms

/-- After any number of rounds, what the scanned modules lead to is recorded. -/
theorem recorded_rounds (hnodup : ∀ m, ((deps m).map Prod.fst).Nodup) (entry : Url) (n : Nat) :
    Recorded deps (rounds deps entry n).processed (rounds deps entry n).graph := by
  induction n with
  | zero =>
    refine ⟨Graph.wellFormed_empty, ?_, ?_, fun _ _ => ⟨rfl, rfl⟩⟩
    · exact fun _ h => nomatch h
    · exact fun _ h => nomatch h
  | succ n ih =>
    rw [rounds, processed_next]
    exact Recorded.foldl_add (d := (rounds deps entry n).beginWave) ih hnodup
      (searched_rounds deps entry n).nodup

/-- The graph has what each of its modules leads to. -/
theorem IsGraphOf.recorded (h : IsGraphOf deps entry g)
    (hnodup : ∀ m, ((deps m).map Prod.fst).Nodup) : Recorded deps g.urls g := by
  obtain ⟨n, hn, rfl⟩ := h
  have hrecorded := recorded_rounds hnodup entry n
  have hmem := fun m => mem_urls_rounds_iff (m := m) hn
  exact ⟨hrecorded.wellFormed, fun m hm => hrecorded.dependencies m ((hmem m).1 hm),
    fun m hm => hrecorded.lazyDependencies m ((hmem m).1 hm),
    fun m hm => hrecorded.blank m fun h => hm ((hmem m).2 h)⟩

/-! ## How many rounds there are -/

/-- Every round but the last scans a module that leads somewhere. -/
theorem le_countP_processed (modules : List Url)
    (h : ∀ m t, ReflTransGen (LeadsTo deps) entry m → LeadsTo deps m t → m ∈ modules) {n : Nat} (hn : (rounds deps entry n).pending ≠ []) :
    n ≤ (rounds deps entry n).processed.countP (· ∈ modules) := by
  induction n with
  | zero => exact Nat.zero_le _
  | succ n ih =>
    obtain ⟨v, hv⟩ := List.exists_mem_of_ne_nil _ hn
    obtain ⟨⟨m, hm, ht⟩, -⟩ := (mem_pending_next _ v).1 hv
    have hcount := ih (List.ne_nil_of_mem hm)
    have hreached := (searched_rounds deps entry n).reached m (List.mem_append_right _ hm)
    have hpos : 0 < (rounds deps entry n).pending.countP (· ∈ modules) :=
      List.countP_pos_iff.2 ⟨m, hm, decide_eq_true (h m v hreached ht)⟩
    rw [rounds, processed_next, List.countP_append]
    omega

/-- If only some of the modules that the entry leads to lead anywhere, nothing is left to do after as
many rounds and one more. -/
theorem pending_rounds_eq_nil (modules : List Url)
    (h : ∀ m t, ReflTransGen (LeadsTo deps) entry m → LeadsTo deps m t → m ∈ modules) {n : Nat}
    (hn : modules.length < n) : (rounds deps entry n).pending = [] := by
  by_contra hpending
  have hle := le_countP_processed modules h hpending
  -- each of them is scanned once at most
  have hnodup := (List.nodup_append.1 (searched_rounds deps entry n).nodup).1
  have hsub : ((rounds deps entry n).processed.filter (· ∈ modules)).Subperm modules :=
    (hnodup.filter _).subperm fun m hm => of_decide_eq_true (List.mem_filter.1 hm).2
  have hlength := hsub.length_le
  rw [← List.countP_eq_length_filter] at hlength
  omega

end ModuleLoader.Discovery
