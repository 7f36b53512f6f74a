import ModuleLoader.Proofs.Graph.EagerSearch

/-! # Both ends of an edge

Notes name modules and say which of them import which. The graph that they lead to lists a module
where it was first named, and has an edge at both of its ends, where it was first said.

* **`Graph.dependents`** is the view that an edge has at its other end: the modules that import a
  module.
* **`Note.named`** and **`Note.edges`** are what a note makes known, in its order.
* **`Graph.view_ofNotes`** is the one induction over notes: each view of the graph grows by what is
  new in a part of the note.
* **`Graph.represents_ofNotes`** says what a graph has of its notes. -/

namespace ModuleLoader

/-- Adding several elements once each puts the first of each that is new behind what was there. -/
theorem foldl_addOnce_eq {α : Type} [DecidableEq α] (xs ys : List α) :
    xs.foldl (fun us u => addOnce u us) ys = ys ++ (xs.filter (· ∉ ys)).eraseDups := by
  induction xs generalizing ys with
  | nil => simp
  | cons x xs ih =>
    rw [List.foldl_cons, ih]
    by_cases hx : x ∈ ys
    · rw [addOnce, if_pos hx, List.filter_cons_of_neg (by simpa using hx)]
    -- what comes later is new if it was not there and is not the element itself
    · have hfilter : xs.filter (· ∉ addOnce x ys) =
          (xs.filter (· ∉ ys)).filter fun y => !(y == x) := by
        rw [List.filter_filter]
        apply List.filter_congr
        intro y _
        by_cases hy : y = x <;> simp [hy]
      rw [hfilter, addOnce_of_notMem hx, List.filter_cons_of_pos (by simpa using hx),
        List.eraseDups_cons, List.append_assoc]
      rfl

namespace Graph

variable {g : Graph} {url dep v : Url}

/-! ## The other end -/

/-- The modules that import a module; none when it is not in the graph. -/
def dependents (g : Graph) (url : Url) : List Url :=
  ((g.node? url).getD Node.bare).dependents

@[simp] theorem dependents_touch (g : Graph) (url v : Url) :
    (g.touch url).dependents v = g.dependents v := by
  unfold dependents
  rw [node?_touch]
  by_cases h : v = url <;> simp [h]

/-- An edge is put behind those that lead to the same module, and changes no other module's. -/
theorem dependents_addEdge (g : Graph) (url dep v : Url) :
    (g.addEdge url dep).dependents v =
      if v = dep then addOnce url (g.dependents v) else g.dependents v := by
  unfold addEdge dependents
  simp only [node?_modify, node?_touch]
  by_cases hd : v = dep
  · subst hd
    by_cases hv : v = url <;> simp [hv]
  · by_cases hv : v = url
    · subst hv
      cases g.node? v <;> simp [hd]
    · simp [hd, hv]

/-- Recording a module puts it behind the modules that import what it imports. -/
theorem dependents_add (g : Graph) (url : Url) (deps : List Url) (v : Url) :
    (g.add url deps).dependents v =
      (((deps.map (url, ·)).filter (·.2 = v)).map Prod.fst).foldl (fun us u => addOnce u us)
        (g.dependents v) := by
  unfold add
  rw [← dependents_touch g url v]
  generalize g.touch url = g'
  induction deps generalizing g' with
  | nil => rfl
  | cons dep deps ih =>
    rw [List.foldl_cons, ih, dependents_addEdge, List.map_cons]
    by_cases hv : v = dep
    · rw [if_pos hv, List.filter_cons_of_pos (by simp [hv])]
      rfl
    · rw [if_neg hv, List.filter_cons_of_neg (by simpa using fun h => hv h.symm)]

/-- Marking an edge as lazy leaves it at its other end. -/
@[simp] theorem dependents_markLazy (g : Graph) (url dep v : Url) :
    (g.markLazy url dep).dependents v = g.dependents v := by
  unfold markLazy dependents
  rw [node?_modify]
  by_cases hv : v = url
  · cases hn : g.node? v with
    | none => simp
    | some n => by_cases hd : dep ∈ n.dependencies <;> simp [hv, hd]
  · simp [hv]

/-! ## What notes make known -/

/-- The modules that a note names, in its order. -/
def Note.named : Note → List Url
  | .imports url deps => url :: deps
  | .lazily _ _ => []

/-- The edges that a note says, in its order. -/
def Note.edges : Note → List (Url × Url)
  | .imports url deps => deps.map (url, ·)
  | .lazily _ _ => []

/-- A note says an edge if it has it. -/
theorem Note.mem_edges_iff {n : Note} : (url, v) ∈ n.edges ↔ n.SaysImports url v := by
  cases n with
  | imports source deps => simp [edges, SaysImports, eq_comm, and_comm]
  | lazily source target => simp [edges, SaysImports]

/-- A note puts the modules that it names behind those that are listed. -/
theorem urls_note (g : Graph) (n : Note) :
    (g.note n).urls = n.named.foldl (fun us u => addOnce u us) g.urls := by
  cases n with
  | imports url deps => rw [note, urls_add, Note.named, List.foldl_cons]
  | lazily source target => rw [note, urls_markLazy, Note.named, List.foldl_nil]

/-- A note puts the edges that it says behind those that leave the same module. -/
theorem dependencies_note (g : Graph) (n : Note) (m : Url) :
    (g.note n).dependencies m =
      ((n.edges.filter (·.1 = m)).map Prod.snd).foldl (fun us u => addOnce u us)
        (g.dependencies m) := by
  cases n with
  | imports url deps =>
    rw [note, dependencies_add, Note.edges, List.filter_map]
    by_cases hm : m = url
    · subst hm
      simp [Function.comp_def]
    · have hne : ¬ url = m := fun h => hm h.symm
      simp [Function.comp_def, hm, hne]
  | lazily source target => rw [note, dependencies_markLazy]; rfl

/-- A note puts the edges that it says behind those that lead to the same module. -/
theorem dependents_note (g : Graph) (n : Note) (m : Url) :
    (g.note n).dependents m =
      ((n.edges.filter (·.2 = m)).map Prod.fst).foldl (fun us u => addOnce u us)
        (g.dependents m) := by
  cases n with
  | imports url deps => exact dependents_add g url deps m
  | lazily source target => rw [note, dependents_markLazy]; rfl

/-- A view to whose end each note puts what is new in some part of it has what notes say in these
parts, each where it was first said. -/
theorem view_ofNotes (view : Graph → List Url) {part : Note → List Url} (hempty : view empty = [])
    (hnote : ∀ g n, view (g.note n) = (part n).foldl (fun us u => addOnce u us) (view g))
    (notes : List Note) : view (ofNotes notes) = (notes.flatMap part).eraseDups := by
  have hfold : ∀ g : Graph, view (notes.foldl note g) =
      (notes.flatMap part).foldl (fun us u => addOnce u us) (view g) := by
    induction notes with
    | nil => exact fun g => rfl
    | cons n notes ih =>
      intro g
      rw [List.foldl_cons, ih, hnote, List.flatMap_cons, List.foldl_append]
  rw [ofNotes, hfold, hempty, foldl_addOnce_eq]
  simp

/-- Whatever has been recorded, the graph lists the modules that were named, in the order in which
they were, and has of each of them the edges that were said, in that order, at both ends: a module
imports another exactly if both are listed and the other is imported by it. What a module imports
by `import()` alone are the edges that were marked when they had been said, and so it imports
that. -/
theorem represents_ofNotes (notes : List Note) :
    (ofNotes notes).urls = (notes.flatMap Note.named).eraseDups ∧
      (∀ a, (ofNotes notes).dependencies a =
        (((notes.flatMap Note.edges).filter (·.1 = a)).map Prod.snd).eraseDups) ∧
      (∀ b, (ofNotes notes).dependents b =
        (((notes.flatMap Note.edges).filter (·.2 = b)).map Prod.fst).eraseDups) ∧
      (∀ a b, b ∈ (ofNotes notes).dependencies a ↔ (a, b) ∈ notes.flatMap Note.edges) ∧
      (∀ a b, b ∈ (ofNotes notes).dependencies a ↔
        a ∈ (ofNotes notes).urls ∧ b ∈ (ofNotes notes).urls ∧
          a ∈ (ofNotes notes).dependents b) ∧
      (∀ a, a ∈ (ofNotes notes).urls ↔ ∃ n ∈ notes, a ∈ n.named) ∧
      (∀ a b, b ∈ (ofNotes notes).lazyDependencies a ↔ MarksLazy notes a b) ∧
      ∀ a, ∀ b ∈ (ofNotes notes).lazyDependencies a, b ∈ (ofNotes notes).dependencies a := by
  have hurls : (ofNotes notes).urls = (notes.flatMap Note.named).eraseDups :=
    view_ofNotes urls rfl urls_note notes
  have hdependencies : ∀ a, (ofNotes notes).dependencies a =
      (((notes.flatMap Note.edges).filter (·.1 = a)).map Prod.snd).eraseDups := by
    intro a
    rw [List.filter_flatMap, List.map_flatMap]
    exact view_ofNotes (fun g => g.dependencies a) rfl (dependencies_note · · a) notes
  have hdependents : ∀ b, (ofNotes notes).dependents b =
      (((notes.flatMap Note.edges).filter (·.2 = b)).map Prod.fst).eraseDups := by
    intro b
    rw [List.filter_flatMap, List.map_flatMap]
    exact view_ofNotes (fun g => g.dependents b) rfl (dependents_note · · b) notes
  have hedges : ∀ a b, b ∈ (ofNotes notes).dependencies a ↔ (a, b) ∈ notes.flatMap Note.edges := by
    intro a b
    rw [hdependencies, List.mem_eraseDups]
    simp
  have hends : ∀ a b, a ∈ (ofNotes notes).dependents b ↔ (a, b) ∈ notes.flatMap Note.edges := by
    intro a b
    rw [hdependents, List.mem_eraseDups]
    simp
  have hmarks : ∀ a b, b ∈ (ofNotes notes).lazyDependencies a ↔ MarksLazy notes a b :=
    fun a b => mem_lazyDependencies_ofNotes_iff
  refine ⟨hurls, hdependencies, hdependents, hedges, ?_, ?_, hmarks, ?_⟩
  · intro a b
    rw [hends, ← hedges]
    constructor
    · intro h
      have ha : a ∈ (ofNotes notes).urls := by
        by_contra hnot
        rw [dependencies_of_notMem hnot] at h
        cases h
      exact ⟨ha, (wellFormed_ofNotes notes).closed a b h, h⟩
    · exact fun h => h.2.2
  · intro a
    rw [hurls, List.mem_eraseDups, List.mem_flatMap]
  -- an edge is marked only behind a note that says it
  · intro a b h
    obtain ⟨front, back, rfl, n, hn, hsays⟩ := (hmarks a b).1 h
    rw [hedges, List.mem_flatMap]
    exact ⟨n, List.mem_append_left _ hn, Note.mem_edges_iff.2 hsays⟩

end Graph

end ModuleLoader
