import ModuleLoader.Proofs.Graph.Closure
import ModuleLoader.Proofs.Graph.Sorting

/-! # The search along eager edges

What is evaluated along with a module is found by a search from a stack, on which a module may wait
more than once: it is left out when it is pushed if it has been seen, and again when it is popped.

* **`Graph.RecordsEagerly`** says of an edge that notes record it and leave it eager.
* **`Graph.Gathers`** are the rules of the search, **`Graph.gathers_iff`** says that it comes to an
  end by them.
* **`Graph.exists_walk_of_transGen`** takes the detours out of a walk.
* **`Graph.eagerDependencies_of_notes`** says what the search finds. -/

namespace ModuleLoader.Graph

open Relation

variable {g : Graph} {notes : List Note} {n : Note} {u v : Url} {queue seen found : List Url}

/-! ## Edges that notes leave eager -/

/-- An edge is marked as lazy that has been recorded by then. -/
def MarksLazy (notes : List Note) (u v : Url) : Prop :=
  ∃ front back, notes = front ++ .lazily u v :: back ∧ ∃ n ∈ front, n.SaysImports u v

/-- An edge is recorded and is not marked as lazy from then on. -/
def RecordsEagerly (notes : List Note) (u v : Url) : Prop :=
  (∃ n ∈ notes, n.SaysImports u v) ∧ ¬ MarksLazy notes u v

/-- A note that comes last marks an edge if it names one that has been recorded. -/
theorem marksLazy_concat_iff :
    MarksLazy (notes ++ [n]) u v ↔
      MarksLazy notes u v ∨ n = .lazily u v ∧ ∃ m ∈ notes, m.SaysImports u v := by
  constructor
  · rintro ⟨front, back, heq, hsays⟩
    rcases List.eq_nil_or_concat back with rfl | ⟨back, last, rfl⟩
    · obtain ⟨rfl, hlast⟩ := List.append_inj' heq rfl
      exact .inr ⟨List.singleton_inj.1 hlast, hsays⟩
    · rw [List.concat_eq_append, ← List.cons_append, ← List.append_assoc] at heq
      obtain ⟨heq, -⟩ := List.append_inj' heq rfl
      exact .inl ⟨front, back, heq, hsays⟩
  · rintro (⟨front, back, rfl, hsays⟩ | ⟨rfl, hsays⟩)
    · exact ⟨front, back ++ [n], by simp, hsays⟩
    · exact ⟨notes, [], rfl, hsays⟩

/-- A note marks an edge that it names if the graph has it. -/
theorem mem_lazyDependencies_note (g : Graph) (n : Note) (u v : Url) :
    v ∈ (g.note n).lazyDependencies u ↔
      v ∈ g.lazyDependencies u ∨ n = .lazily u v ∧ v ∈ g.dependencies u := by
  cases n with
  | imports url deps =>
    rw [note, lazyDependencies_add]
    simp
  | lazily source target =>
    rw [note, lazyDependencies_markLazy, Note.lazily.injEq]
    -- a mark counts only if the graph has the edge when the mark is made
    by_cases hmarks : u = source ∧ target ∈ g.dependencies source
    · rw [if_pos hmarks, mem_addOnce]
      obtain ⟨rfl, hmem⟩ := hmarks
      constructor
      · rintro (rfl | hold)
        · exact .inr ⟨⟨rfl, rfl⟩, hmem⟩
        · exact .inl hold
      · rintro (hold | ⟨⟨-, rfl⟩, -⟩)
        · exact .inr hold
        · exact .inl rfl
    · rw [if_neg hmarks, iff_self_or]
      rintro ⟨⟨rfl, rfl⟩, hmem⟩
      exact absurd ⟨rfl, hmem⟩ hmarks

/-- The lazy edges of a graph are those that have been marked. -/
theorem mem_lazyDependencies_ofNotes_iff :
    v ∈ (ofNotes notes).lazyDependencies u ↔ MarksLazy notes u v := by
  induction notes using List.reverseRecOn with
  | nil => simp [MarksLazy, ofNotes, lazyDependencies, node?, empty, Node.bare]
  | append_singleton notes n ih =>
    have hsays : v ∈ (ofNotes notes).dependencies u ↔ ∃ m ∈ notes, m.SaysImports u v := by
      rw [ofNotes, mem_dependencies_foldl_note, or_iff_right (by rintro ⟨⟩)]
    rw [ofNotes, List.foldl_append, List.foldl_cons, List.foldl_nil, ← ofNotes,
      mem_lazyDependencies_note, ih, hsays, marksLazy_concat_iff]

/-- The eager edges of a graph are those that notes leave eager. -/
theorem importsEagerly_ofNotes : (ofNotes notes).ImportsEagerly = RecordsEagerly notes := by
  funext u v
  rw [ImportsEagerly, eagerEdges_eq, List.mem_filter, decide_eq_true_iff,
    mem_lazyDependencies_ofNotes_iff, ofNotes, mem_dependencies_foldl_note,
    or_iff_right (by rintro ⟨⟩), RecordsEagerly]

/-! ## The search goes by its rules -/

/-- A search that goes on from the modules that wait, the first of which was pushed last, and has
seen some; it ends when none waits. -/
inductive Gathers (g : Graph) : List Url → List Url → List Url → Prop
  /-- No module waits. -/
  | done (seen : List Url) : Gathers g [] seen seen
  /-- A module has been seen before. -/
  | again {next : Url} {queue seen found : List Url} (hseen : next ∈ seen)
      (hrest : Gathers g queue seen found) : Gathers g (next :: queue) seen found
  /-- A module is seen, and what it imports eagerly waits, but for what has been seen. -/
  | new {next : Url} {queue seen found : List Url} (hnew : next ∉ seen)
      (hrest : Gathers g (((g.eagerEdges next).filter (· ∉ seen ++ [next])).reverse ++ queue)
        (seen ++ [next]) found) : Gathers g (next :: queue) seen found

namespace Gathers

/-- A search comes to one thing only. -/
theorem eq {found' : List Url} (h : g.Gathers queue seen found)
    (h' : g.Gathers queue seen found') : found = found' := by
  induction h with
  | done =>
    cases h'
    rfl
  | again hseen _ ih =>
    cases h' with
    | again _ hrest => exact ih hrest
    | new hnew _ => exact absurd hseen hnew
  | new hnew _ ih =>
    cases h' with
    | again hseen _ => exact absurd hseen hnew
    | new _ hrest => exact ih hrest

/-- A search finds no module twice. -/
theorem nodup (h : g.Gathers queue seen found) (hseen : seen.Nodup) : found.Nodup := by
  induction h with
  | done => exact hseen
  | again _ _ ih => exact ih hseen
  | new hnew _ ih =>
    rw [← List.concat_eq_append] at ih
    exact ih (hseen.concat hnew)

end Gathers

/-- A search with rounds enough goes by the rules. -/
theorem gathers_reach (fuel : Nat) (hfuel : queue.length + g.unseenEdges seen ≤ fuel) :
    g.Gathers queue seen (g.reach fuel queue seen) := by
  induction fuel generalizing queue seen with
  | zero =>
    obtain rfl : queue = [] := List.length_eq_zero_iff.1 (by omega)
    exact .done seen
  | succ fuel ih =>
    cases queue with
    | nil => exact .done seen
    | cons next queue =>
      rw [List.length_cons] at hfuel
      rw [reach]
      split
      · next hseen => exact .again hseen (ih (by omega))
      -- what is pushed counts no longer among the unseen edges
      · next hnew =>
        have hless := g.length_queue_add_unseenEdges_le hnew queue
        exact .new hnew (ih (by omega))

/-- What is evaluated along with a module is what a search from its eager edges comes to. -/
theorem gathers_iff :
    g.Gathers (g.eagerEdges u).reverse [] found ↔ g.eagerDependencies u = found := by
  have hsearch : g.Gathers (g.eagerEdges u).reverse [] (g.eagerDependencies u) :=
    gathers_reach _ (g.length_eagerEdges_add_unseenEdges_le u)
  exact ⟨hsearch.eq, fun h => h ▸ hsearch⟩

/-! ## What the search finds -/

/-- Where steps lead from one module to another, they do so by a walk that comes to no module twice
behind its start. -/
theorem exists_walk_of_transGen {R : Url → Url → Prop} (h : TransGen R u v) :
    ∃ path : List Url, path.head? = some u ∧ path.getLast? = some v ∧ 2 ≤ path.length ∧
      path.IsChain R ∧ path.tail.Nodup := by
  induction h using TransGen.head_induction_on with
  | @single u hstep =>
    exact ⟨[u, v], rfl, rfl, by simp, List.isChain_pair.2 hstep, List.nodup_singleton v⟩
  | @head u t hstep _ ih =>
    obtain ⟨path, hstart, hend, -, hchain, hn⟩ := ih
    obtain ⟨rest, rfl⟩ := List.head?_eq_some_iff.1 hstart
    by_cases hagain : t ∈ rest
    -- the walk comes back to its second module: it can as well go on from there at once
    · obtain ⟨front, back, rfl⟩ := List.append_of_mem hagain
      rw [← List.cons_append] at hchain hend
      have hsuffix := (List.isChain_append.1 hchain).2.1
      refine ⟨u :: t :: back, rfl, ?_, by simp, .cons_cons hstep hsuffix,
        (List.nodup_append.1 hn).2.1⟩
      rwa [List.getLast?_append_of_ne_nil _ (List.cons_ne_nil t back)] at hend
    · exact ⟨u :: t :: rest, rfl, hend, by simp, .cons_cons hstep hchain,
        List.nodup_cons.2 ⟨hagain, hn⟩⟩

/-- Whatever has been recorded, the search for what is evaluated along with a module comes to an
end, and it comes to each module once that the module leads to by edges that are not marked as lazy,
whether or not others lead there too; to the module itself exactly if such edges make a circle
through it. -/
theorem eagerDependencies_of_notes (notes : List Note) (u : Url) :
    (∀ found, (ofNotes notes).Gathers ((ofNotes notes).eagerEdges u).reverse [] found ↔
        (ofNotes notes).eagerDependencies u = found) ∧
      ((ofNotes notes).eagerDependencies u).Nodup ∧
      (∀ v, v ∈ (ofNotes notes).eagerDependencies u ↔ TransGen (RecordsEagerly notes) u v) ∧
      (u ∈ (ofNotes notes).eagerDependencies u ↔
        ∃ path : List Url, path.head? = some u ∧ path.getLast? = some u ∧ 2 ≤ path.length ∧
          path.IsChain (RecordsEagerly notes) ∧ path.tail.Nodup) := by
  have hmem : ∀ v, v ∈ (ofNotes notes).eagerDependencies u ↔
      TransGen (RecordsEagerly notes) u v := fun v => by
    rw [mem_eagerDependencies_iff, importsEagerly_ofNotes]
  refine ⟨fun _ => gathers_iff, (gathers_iff.2 rfl).nodup List.nodup_nil, hmem,
    (hmem u).trans ⟨exists_walk_of_transGen, ?_⟩⟩
  rintro ⟨path, hstart, hend, hlen, hchain, -⟩
  exact transGen_of_isChain hstart hend hlen hchain

end ModuleLoader.Graph
