import Mathlib.Algebra.GroupWithZero.Nat
import Mathlib.Logic.Relation
import ModuleLoader.Graph.Order
import ModuleLoader.Proofs.Graph.Recording

/-! # The modules evaluated along with one

The search for them goes on from a queue and has a bound on its rounds. Every edge is put into the
queue at most twice, once from the start and once when the module that it leaves is seen, so the
bound is never what ends the search.

* **`Graph.ImportsEagerly`** is an edge that is not one of `import()` alone.
* **`Graph.unseenEdges`** counts the edges that the search may still come upon.
* **`Graph.mem_eagerDependencies_iff`** says that the search finds what is reached by such edges,
  and nothing else. -/

namespace ModuleLoader.Graph

open Relation

/-- One module imports another otherwise than by `import()` alone. -/
def ImportsEagerly (g : Graph) (url dep : Url) : Prop := dep ∈ g.eagerEdges url

/-- The edges that leave those of some modules that have not been seen. -/
def unseenEdgesOf (seen : List Url) (nodes : List (Url × Node)) : Nat :=
  (nodes.map fun e => if e.1 ∈ seen then 0 else e.2.dependencies.length).sum

/-- The edges that leave modules that have not been seen. -/
def unseenEdges (g : Graph) (seen : List Url) : Nat := unseenEdgesOf seen g.nodes

/-! ## The bound of the search -/

/-- The edges of one more module count unless it has been seen. -/
theorem unseenEdgesOf_cons (seen : List Url) (e : Url × Node) (nodes : List (Url × Node)) :
    unseenEdgesOf seen (e :: nodes) =
      (if e.1 ∈ seen then 0 else e.2.dependencies.length) + unseenEdgesOf seen nodes :=
  List.sum_cons

/-- There are no more unseen edges when one more module has been seen. -/
theorem unseenEdgesOf_concat_le (seen : List Url) (url : Url) (nodes : List (Url × Node)) :
    unseenEdgesOf (seen ++ [url]) nodes ≤ unseenEdgesOf seen nodes := by
  induction nodes with
  | nil => exact Nat.le_refl 0
  | cons e nodes ih =>
    rw [unseenEdgesOf_cons, unseenEdgesOf_cons]
    by_cases hseen : e.1 ∈ seen
    · simpa [hseen] using ih
    · rw [if_neg hseen]
      split <;> omega

/-- When a module that is new has been seen, its edges are no longer among the unseen ones. -/
theorem unseenEdges_concat_le (g : Graph) (seen : List Url) {url : Url} (hnew : url ∉ seen) :
    (g.dependencies url).length + g.unseenEdges (seen ++ [url]) ≤ g.unseenEdges seen := by
  obtain ⟨nodes⟩ := g
  unfold dependencies node? unseenEdges
  dsimp only
  induction nodes with
  | nil => simp [Node.bare, unseenEdgesOf]
  | cons e nodes ih =>
    rw [unseenEdgesOf_cons, unseenEdgesOf_cons]
    by_cases he : e.1 = url
    · have := unseenEdgesOf_concat_le seen url nodes
      simpa [he, hnew] using this
    · rw [List.find?_cons_of_neg (by simpa using he)]
      have hmem : e.1 ∈ seen ++ [url] ↔ e.1 ∈ seen := by simp [he]
      simp only [hmem]
      omega

/-- There are no more eager edges than edges. -/
theorem length_eagerEdges_le (g : Graph) (url : Url) :
    (g.eagerEdges url).length ≤ (g.dependencies url).length := by
  rw [eagerEdges_eq]
  exact List.length_filter_le _ _

/-- When the queue goes on with what a new module imports eagerly, there is no more to go through
than before: the edges put into it are no longer among the unseen ones. -/
theorem length_queue_add_unseenEdges_le (g : Graph) {next : Url} {seen : List Url}
    (hnew : next ∉ seen) (queue : List Url) :
    (((g.eagerEdges next).filter (· ∉ seen ++ [next])).reverse ++ queue).length +
      g.unseenEdges (seen ++ [next]) ≤ queue.length + g.unseenEdges seen := by
  have hlen := g.length_eagerEdges_le next
  have hless := g.unseenEdges_concat_le seen hnew
  have hfilter := List.length_filter_le (· ∉ seen ++ [next]) (g.eagerEdges next)
  rw [List.length_append, List.length_reverse]
  omega

/-- Before anything has been seen, all edges are unseen. -/
theorem unseenEdges_nil (g : Graph) : g.unseenEdges [] = g.edgeCount := by
  have hfold : ∀ (nodes : List (Url × Node)) (n : Nat),
      nodes.foldl (fun n e => n + e.2.dependencies.length) n = n + unseenEdgesOf [] nodes := by
    intro nodes
    induction nodes with
    | nil => exact fun _ => rfl
    | cons e nodes ih =>
      intro n
      rw [List.foldl_cons, ih, unseenEdgesOf_cons, if_neg List.not_mem_nil, Nat.add_assoc]
  unfold unseenEdges edgeCount
  rw [hfold, Nat.zero_add]

/-- The search for what is evaluated along with a module has rounds enough. -/
theorem length_eagerEdges_add_unseenEdges_le (g : Graph) (url : Url) :
    (g.eagerEdges url).reverse.length + g.unseenEdges [] ≤ 2 * g.edgeCount + 1 := by
  have hless := g.unseenEdges_concat_le [] (List.not_mem_nil : url ∉ [])
  have hlen := g.length_eagerEdges_le url
  rw [unseenEdges_nil] at hless ⊢
  rw [List.length_reverse]
  omega

/-! ## What the search finds -/

/-- The search finds only what it was given and what is reached from there. -/
theorem mem_reach_elim {g : Graph} {url : Url} (fuel : Nat) {queue seen : List Url}
    (hqueue : ∀ v ∈ queue, TransGen g.ImportsEagerly url v)
    (hseen : ∀ v ∈ seen, TransGen g.ImportsEagerly url v) {v : Url}
    (hmem : v ∈ g.reach fuel queue seen) : TransGen g.ImportsEagerly url v := by
  induction fuel generalizing queue seen with
  | zero => exact hseen v (by simpa [reach] using hmem)
  | succ fuel ih =>
    cases queue with
    | nil => exact hseen v (by simpa [reach] using hmem)
    | cons next queue =>
      have hnext := hqueue next (by simp)
      have hrest : ∀ u ∈ queue, TransGen g.ImportsEagerly url u :=
        fun u hu => hqueue u (by simp [hu])
      rw [reach] at hmem
      split at hmem
      · exact ih hrest hseen hmem
      -- what waits now are the imports of a module that is reached
      · refine ih ?_ ?_ hmem
        · intro u hu
          rcases List.mem_append.1 hu with hu | hu
          · exact hnext.tail (List.mem_filter.1 (List.mem_reverse.1 hu)).1
          · exact hrest u hu
        · intro u hu
          rcases List.mem_append.1 hu with hu | hu
          · exact hseen u hu
          · rw [List.mem_singleton] at hu
            exact hu ▸ hnext

/-- Where every module that a search has found before another has some property, the search has come
to that one by edges that leave modules with the property. -/
theorem transGen_of_prefix_reach {g : Graph} {url : Url} {P : Url → Prop} (fuel : Nat)
    {queue seen : List Url}
    (hqueue : ∀ v ∈ queue, (∀ u ∈ seen, P u) →
      TransGen (fun u t => P u ∧ g.ImportsEagerly u t) url v)
    (hseen : ∀ front v, front ++ [v] <+: seen → (∀ u ∈ front, P u) →
      TransGen (fun u t => P u ∧ g.ImportsEagerly u t) url v)
    {front : List Url} {v : Url} (hmem : front ++ [v] <+: g.reach fuel queue seen)
    (hfront : ∀ u ∈ front, P u) : TransGen (fun u t => P u ∧ g.ImportsEagerly u t) url v := by
  induction fuel generalizing queue seen with
  | zero => exact hseen front v hmem hfront
  | succ fuel ih =>
    cases queue with
    | nil => exact hseen front v hmem hfront
    | cons next queue =>
      obtain ⟨hnext, hrest⟩ := List.forall_mem_cons.1 hqueue
      rw [reach] at hmem
      split at hmem
      · exact ih hrest hseen hmem
      · -- the next module is found now: what it imports waits, and it is behind all found before
        refine ih ?_ ?_ hmem
        · intro u hu hP
          have hold : ∀ u ∈ seen, P u := fun u hu => hP u (List.mem_append_left _ hu)
          rcases List.mem_append.1 hu with hu | hu
          · exact (hnext hold).tail
              ⟨hP next (by simp), (List.mem_filter.1 (List.mem_reverse.1 hu)).1⟩
          · exact hrest u hu hold
        · intro front v hprefix hP
          rcases List.prefix_concat_iff.1 hprefix with heq | hprefix
          · obtain ⟨rfl, hv⟩ := List.append_inj' heq rfl
            cases hv
            exact hnext hP
          · exact hseen front v hprefix hP

/-- What holds of the modules that a search has found: all that it was given is among them, and
eager edges do not lead out of them. -/
structure Found (g : Graph) (queue seen found : List Url) : Prop where
  /-- What had been seen is found. -/
  seen : ∀ url ∈ seen, url ∈ found
  /-- What was waiting is found. -/
  queue : ∀ url ∈ queue, url ∈ found
  /-- What is imported eagerly by a module that is found is found. -/
  closed : ∀ url ∈ found, ∀ dep ∈ g.eagerEdges url, dep ∈ found

/-- A search that has nothing waiting has found all that it should. -/
theorem found_seen {g : Graph} {seen : List Url}
    (hclosed : ∀ url ∈ seen, ∀ dep ∈ g.eagerEdges url, dep ∈ seen ∨ dep ∈ ([] : List Url)) :
    g.Found [] seen seen where
  seen := fun _ h => h
  queue := by simp
  closed := fun url hurl dep hdep => by simpa using hclosed url hurl dep hdep

/-- A search with rounds enough finds all that it should. -/
theorem found_reach {g : Graph} (fuel : Nat) {queue seen : List Url}
    (hfuel : queue.length + g.unseenEdges seen ≤ fuel)
    (hclosed : ∀ url ∈ seen, ∀ dep ∈ g.eagerEdges url, dep ∈ seen ∨ dep ∈ queue) :
    g.Found queue seen (g.reach fuel queue seen) := by
  induction fuel generalizing queue seen with
  | zero =>
    obtain rfl : queue = [] := List.length_eq_zero_iff.1 (by omega)
    exact found_seen hclosed
  | succ fuel ih =>
    cases queue with
    | nil => exact found_seen hclosed
    | cons next queue =>
      rw [List.length_cons] at hfuel
      rw [reach]
      split
      -- a module that was seen before has its imports among the seen and the waiting
      · next hnext =>
        have hclosed' : ∀ url ∈ seen, ∀ dep ∈ g.eagerEdges url, dep ∈ seen ∨ dep ∈ queue := by
          intro url hurl dep hdep
          rcases hclosed url hurl dep hdep with h | h
          · exact .inl h
          · rcases List.mem_cons.1 h with rfl | h
            · exact .inl hnext
            · exact .inr h
        obtain ⟨hs, hq, hc⟩ := ih (by omega) hclosed'
        exact ⟨hs, List.forall_mem_cons.2 ⟨hs next hnext, hq⟩, hc⟩
      · next hnext =>
        have hless := g.length_queue_add_unseenEdges_le hnext queue
        obtain ⟨hs, hq, hc⟩ := @ih
          (((g.eagerEdges next).filter (· ∉ seen ++ [next])).reverse ++ queue) (seen ++ [next])
          (by omega) (by
            intro url hurl dep hdep
            rcases List.mem_append.1 hurl with hurl | hurl
            · rcases hclosed url hurl dep hdep with h | h
              · exact .inl (by simp [h])
              · rcases List.mem_cons.1 h with rfl | h
                · exact .inl (by simp)
                · exact .inr (by simp [h])
            · rw [List.mem_singleton] at hurl
              subst hurl
              by_cases h : dep ∈ seen ++ [url]
              · exact .inl h
              · exact .inr (by simp [hdep] at h ⊢; simp [h]))
        refine ⟨fun v hv => hs v (by simp [hv]), List.forall_mem_cons.2 ⟨hs next (by simp), ?_⟩, hc⟩
        exact fun v hv => hq v (by simp [hv])

/-- The eager dependencies of a module are the modules that it reaches by edges that are not lazy;
itself among them if it imports itself so. -/
theorem mem_eagerDependencies_iff (g : Graph) (url v : Url) :
    v ∈ g.eagerDependencies url ↔ TransGen g.ImportsEagerly url v := by
  constructor
  · exact mem_reach_elim _ (fun u hu => .single (List.mem_reverse.1 hu)) (by simp)
  · intro hreach
    have hfuel := g.length_eagerEdges_add_unseenEdges_le url
    obtain ⟨-, hq, hc⟩ := found_reach (2 * g.edgeCount + 1) hfuel (by simp)
    induction hreach with
    | single h => exact hq _ (List.mem_reverse.2 h)
    | tail _ h ih => exact hc _ ih _ h

/-- The first eager dependency of a module that does not have some property is reached by edges that
leave modules with the property, if the module itself has it. -/
theorem transGen_of_eagerDependencies_eq {g : Graph} {url v : Url} {P : Url → Prop} (hurl : P url)
    {front back : List Url} (h : g.eagerDependencies url = front ++ v :: back)
    (hfront : ∀ u ∈ front, P u) : TransGen (fun u t => P u ∧ g.ImportsEagerly u t) url v := by
  have hmem : front ++ [v] <+: g.reach (2 * g.edgeCount + 1) (g.eagerEdges url).reverse [] := by
    rw [← eagerDependencies, h]
    exact ⟨back, by simp⟩
  refine transGen_of_prefix_reach _ (fun u hu _ => .single ⟨hurl, List.mem_reverse.1 hu⟩)
    (fun front v hprefix => ?_) hmem hfront
  simp at hprefix

/-- A module that imports another is a module of the graph. -/
theorem ImportsEagerly.mem_urls {g : Graph} {url dep : Url} (h : g.ImportsEagerly url dep) :
    url ∈ g.urls := by
  rw [mem_urls_iff]
  unfold ImportsEagerly eagerEdges at h
  split at h
  · cases h
  · rename_i hnode
    rw [hnode]
    rfl

/-- The eager dependencies of a module are modules of the graph. -/
theorem WellFormed.mem_urls_of_mem_eagerDependencies {g : Graph} (h : g.WellFormed) {url v : Url}
    (hmem : v ∈ g.eagerDependencies url) : v ∈ g.urls := by
  obtain ⟨u, -, hedge⟩ := TransGen.tail'_iff.1 ((mem_eagerDependencies_iff g url v).1 hmem)
  rw [ImportsEagerly, eagerEdges_eq] at hedge
  exact h.closed u v (List.mem_filter.1 hedge).1

end ModuleLoader.Graph
