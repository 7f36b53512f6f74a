import Mathlib.Data.List.Nodup
import ModuleLoader.Graph.Basic

/-! # What recording does to a graph

A graph is read through two views, the modules that a module imports and those among them that it
imports by `import()` alone. Each way of recording something is described by what it does to them.

* **`Graph.lazyDependencies`** is the second view, `Graph.dependencies` the first.
* **`Graph.WellFormed`** is a graph in which every module is listed once and every import leads to
  a listed module; recording keeps it.
* **`Graph.ofNotes`** is the graph that any sequence of records leads to; what holds of the empty
  graph and is kept by recording holds of it (`Graph.ofNotes_induction`). -/

namespace ModuleLoader

/-! ## Adding several elements once each -/

section AddOnce

variable {α : Type} [DecidableEq α]

/-- After adding several elements, a list has them and what it had. -/
@[simp] theorem mem_foldl_addOnce (xs ys : List α) (y : α) :
    y ∈ xs.foldl (fun us u => addOnce u us) ys ↔ y ∈ ys ∨ y ∈ xs := by
  induction xs generalizing ys with
  | nil => simp
  | cons x xs ih => rw [List.foldl_cons, ih, mem_addOnce, List.mem_cons, or_assoc, or_left_comm]

/-- An element that is new comes last. -/
theorem addOnce_of_notMem {x : α} {xs : List α} (h : x ∉ xs) : addOnce x xs = xs ++ [x] :=
  if_neg h

/-- Adding an element leaves what a list had in front. -/
theorem prefix_addOnce (x : α) (xs : List α) : xs <+: addOnce x xs := by
  unfold addOnce
  split
  · exact List.prefix_refl xs
  · exact List.prefix_append xs [x]

/-- Adding several elements leaves what a list had in front. -/
theorem prefix_foldl_addOnce (xs ys : List α) : ys <+: xs.foldl (fun us u => addOnce u us) ys := by
  induction xs generalizing ys with
  | nil => exact List.prefix_refl ys
  | cons x xs ih => exact (prefix_addOnce x ys).trans (ih (addOnce x ys))

/-- Adding an element once keeps a list free of duplicates. -/
theorem nodup_addOnce {x : α} {xs : List α} (h : xs.Nodup) : (addOnce x xs).Nodup := by
  unfold addOnce
  split
  · exact h
  · next hx =>
    rw [← List.concat_eq_append]
    exact h.concat hx

/-- Adding several elements once each keeps a list free of duplicates. -/
theorem nodup_foldl_addOnce (xs : List α) {ys : List α} (h : ys.Nodup) :
    (xs.foldl (fun us u => addOnce u us) ys).Nodup := by
  induction xs generalizing ys with
  | nil => exact h
  | cons x xs ih => exact ih (nodup_addOnce h)

/-- Different elements that are all new come last in their order. -/
theorem foldl_addOnce_of_disjoint {xs ys : List α} (hx : xs.Nodup) (hd : ∀ x ∈ xs, x ∉ ys) :
    xs.foldl (fun us u => addOnce u us) ys = ys ++ xs := by
  induction xs generalizing ys with
  | nil => simp
  | cons x xs ih =>
    obtain ⟨hxs, hx⟩ := List.nodup_cons.1 hx
    rw [List.foldl_cons, addOnce_of_notMem (hd x (by simp)), ih hx, List.append_assoc]
    · rfl
    · intro y hy
      have hne : y ≠ x := fun e => hxs (e ▸ hy)
      simp [hd y (by simp [hy]), hne]

end AddOnce

namespace Graph

/-- The modules that a module imports by `import()` alone; none when it is not in the graph. -/
def lazyDependencies (g : Graph) (url : Url) : List Url :=
  ((g.node? url).getD Node.bare).lazy

/-- The eager edges of a module are its dependencies that are not lazy. -/
theorem eagerEdges_eq (g : Graph) (url : Url) :
    g.eagerEdges url = (g.dependencies url).filter (· ∉ g.lazyDependencies url) := by
  unfold eagerEdges dependencies lazyDependencies
  cases g.node? url <;> rfl

/-- A module is listed exactly when something is known of it. -/
theorem mem_urls_iff {g : Graph} {url : Url} : url ∈ g.urls ↔ (g.node? url).isSome := by
  unfold urls node?
  rw [Option.isSome_map, List.find?_isSome, List.mem_map]
  simp

/-- A module that is not listed imports nothing. -/
theorem dependencies_of_notMem {g : Graph} {url : Url} (h : url ∉ g.urls) :
    g.dependencies url = [] := by
  rw [mem_urls_iff, Option.not_isSome_iff_eq_none] at h
  rw [dependencies, h]
  rfl

/-! ## Nodes -/

/-- Changing one module changes what is known of it and nothing else. -/
theorem node?_modify (g : Graph) (url v : Url) (f : Node → Node) :
    (g.modify url f).node? v = if v = url then (g.node? v).map f else g.node? v := by
  unfold node? modify
  rw [List.find?_map]
  have hkey : ((fun e : Url × Node => decide (e.1 = v)) ∘
      fun e => if e.1 = url then (e.1, f e.2) else e) = fun e => decide (e.1 = v) := by
    funext e
    by_cases he : e.1 = url <;> simp [he]
  rw [hkey]
  cases hfind : g.nodes.find? (fun e => decide (e.1 = v)) with
  | none => simp
  | some e =>
    have he : e.1 = v := by simpa using List.find?_some hfind
    by_cases hv : v = url <;> simp [he, hv]

/-- Recording a module makes it known and leaves what is known. -/
theorem node?_touch (g : Graph) (url v : Url) :
    (g.touch url).node? v = if v = url then some ((g.node? v).getD Node.bare) else g.node? v := by
  have hcontains : g.contains url = (g.node? url).isSome := by
    unfold contains node?
    rw [Option.isSome_map, Bool.eq_iff_iff, List.any_eq_true, List.find?_isSome]
  unfold touch
  rw [hcontains]
  cases hnode : g.node? url with
  | some n =>
    by_cases hv : v = url
    · subst hv
      simp [hnode]
    · simp [hv]
  | none =>
    have hnone : g.nodes.find? (fun e => decide (e.1 = url)) = none := by
      simpa [node?] using hnode
    by_cases hv : v = url
    · subst hv
      simp [node?, List.find?_append, hnone]
    · have hne : ¬ url = v := fun e => hv e.symm
      simp [node?, List.find?_append, hv, hne]

/-! ## What a module imports -/

@[simp] theorem dependencies_touch (g : Graph) (url v : Url) :
    (g.touch url).dependencies v = g.dependencies v := by
  unfold dependencies
  rw [node?_touch]
  by_cases h : v = url <;> simp [h]

@[simp] theorem lazyDependencies_touch (g : Graph) (url v : Url) :
    (g.touch url).lazyDependencies v = g.lazyDependencies v := by
  unfold lazyDependencies
  rw [node?_touch]
  by_cases h : v = url <;> simp [h]

/-- An edge is put behind those that leave the same module, and changes no other module's. -/
theorem dependencies_addEdge {g : Graph} {url : Url} (hurl : url ∈ g.urls) (dep v : Url) :
    (g.addEdge url dep).dependencies v =
      if v = url then addOnce dep (g.dependencies v) else g.dependencies v := by
  obtain ⟨n, hn⟩ := Option.isSome_iff_exists.1 (mem_urls_iff.1 hurl)
  unfold addEdge dependencies
  simp only [node?_modify, node?_touch]
  by_cases hv : v = url
  · subst hv
    by_cases hd : v = dep
    · subst hd
      simp [hn]
    · simp [hd, hn]
  · by_cases hd : v = dep
    · subst hd
      simp [hv]
    · simp [hv, hd]

/-- An edge is not lazy when it is recorded. -/
@[simp] theorem lazyDependencies_addEdge (g : Graph) (url dep v : Url) :
    (g.addEdge url dep).lazyDependencies v = g.lazyDependencies v := by
  unfold addEdge lazyDependencies
  simp only [node?_modify, node?_touch]
  by_cases hv : v = url <;> by_cases hd : v = dep <;> subst_vars <;>
    cases h : g.node? v <;> simp_all

/-- Marking an edge as lazy leaves the edges. -/
@[simp] theorem dependencies_markLazy (g : Graph) (url dep v : Url) :
    (g.markLazy url dep).dependencies v = g.dependencies v := by
  unfold markLazy dependencies
  rw [node?_modify]
  by_cases hv : v = url
  · cases hn : g.node? v with
    | none => simp
    | some n => by_cases hd : dep ∈ n.dependencies <;> simp [hv, hd]
  · simp [hv]

/-- Marking an edge as lazy puts it behind the other lazy edges of the same module. -/
theorem lazyDependencies_markLazy (g : Graph) (url dep v : Url) :
    (g.markLazy url dep).lazyDependencies v =
      if v = url ∧ dep ∈ g.dependencies url then addOnce dep (g.lazyDependencies v)
      else g.lazyDependencies v := by
  unfold markLazy lazyDependencies dependencies
  rw [node?_modify]
  by_cases hv : v = url
  · subst hv
    cases hn : g.node? v with
    | none => simp [Node.bare]
    | some n => by_cases hd : dep ∈ n.dependencies <;> simp [hd]
  · simp [hv]

/-! ## Recording a module with all that it imports -/

/-- Recording several edges of a module puts them behind those it has. -/
theorem dependencies_foldl_addEdge (url : Url) (deps : List Url) {g : Graph}
    (hurl : url ∈ g.urls) (v : Url) :
    (deps.foldl (fun g dep => g.addEdge url dep) g).dependencies v =
      if v = url then deps.foldl (fun us u => addOnce u us) (g.dependencies v)
      else g.dependencies v := by
  induction deps generalizing g with
  | nil => simp
  | cons dep deps ih =>
    have hurl' : url ∈ (g.addEdge url dep).urls := by simp [urls_addEdge, hurl]
    rw [List.foldl_cons, ih hurl', dependencies_addEdge hurl]
    by_cases hv : v = url <;> simp [hv]

/-- Recording a module puts what it imports behind what it was known to import. -/
theorem dependencies_add (g : Graph) (url : Url) (deps : List Url) (v : Url) :
    (g.add url deps).dependencies v =
      if v = url then deps.foldl (fun us u => addOnce u us) (g.dependencies v)
      else g.dependencies v := by
  have hurl : url ∈ (g.touch url).urls := by simp [urls_touch]
  rw [add, dependencies_foldl_addEdge url deps hurl, dependencies_touch]

/-- Recording a module marks nothing as lazy. -/
@[simp] theorem lazyDependencies_add (g : Graph) (url : Url) (deps : List Url) (v : Url) :
    (g.add url deps).lazyDependencies v = g.lazyDependencies v := by
  unfold add
  rw [← lazyDependencies_touch g url v]
  generalize g.touch url = g'
  induction deps generalizing g' with
  | nil => rfl
  | cons dep deps ih => rw [List.foldl_cons, ih, lazyDependencies_addEdge]

/-- Recording a module puts it, and then what it imports, behind the modules that are listed. -/
theorem urls_add (g : Graph) (url : Url) (deps : List Url) :
    (g.add url deps).urls =
      deps.foldl (fun us u => addOnce u us) (addOnce url g.urls) := by
  unfold add
  rw [← urls_touch]
  generalize g.touch url = g'
  induction deps generalizing g' with
  | nil => rfl
  | cons dep deps ih => rw [List.foldl_cons, ih, urls_addEdge, List.foldl_cons]

@[simp] theorem urls_markLazy (g : Graph) (url dep : Url) : (g.markLazy url dep).urls = g.urls :=
  urls_modify g url _

/-- Marking several edges of a module as lazy changes no module. -/
@[simp] theorem urls_foldl_markLazy (g : Graph) (url : Url) (deps : List Url) :
    (deps.foldl (fun g dep => g.markLazy url dep) g).urls = g.urls := by
  induction deps generalizing g with
  | nil => rfl
  | cons dep deps ih => rw [List.foldl_cons, ih, urls_markLazy]

/-- Marking several edges of a module as lazy leaves the edges. -/
@[simp] theorem dependencies_foldl_markLazy (g : Graph) (url : Url) (deps : List Url) (v : Url) :
    (deps.foldl (fun g dep => g.markLazy url dep) g).dependencies v = g.dependencies v := by
  induction deps generalizing g with
  | nil => rfl
  | cons dep deps ih => rw [List.foldl_cons, ih, dependencies_markLazy]

/-- Marking several edges of a module as lazy puts them behind its other lazy edges. -/
theorem lazyDependencies_foldl_markLazy {g : Graph} {url : Url} {deps : List Url}
    (h : ∀ dep ∈ deps, dep ∈ g.dependencies url) (v : Url) :
    (deps.foldl (fun g dep => g.markLazy url dep) g).lazyDependencies v =
      if v = url then deps.foldl (fun us u => addOnce u us) (g.lazyDependencies v)
      else g.lazyDependencies v := by
  induction deps generalizing g with
  | nil => simp
  | cons dep deps ih =>
    have hrest : ∀ d ∈ deps, d ∈ (g.markLazy url dep).dependencies url := by
      intro d hd
      rw [dependencies_markLazy]
      exact h d (by simp [hd])
    rw [List.foldl_cons, ih hrest, lazyDependencies_markLazy]
    by_cases hv : v = url <;> simp [hv, h dep]

/-! ## Well-formed graphs -/

/-- Every module is listed once, and so is every module that one of them imports. -/
structure WellFormed (g : Graph) : Prop where
  /-- No module is listed twice. -/
  nodup : g.urls.Nodup
  /-- Imports lead to listed modules. -/
  closed : ∀ url, ∀ dep ∈ g.dependencies url, dep ∈ g.urls

/-- The empty graph is well-formed. -/
theorem wellFormed_empty : empty.WellFormed :=
  ⟨List.nodup_nil, fun _ _ h => by cases h⟩

/-- Recording a module keeps a graph well-formed. -/
theorem WellFormed.add {g : Graph} (h : g.WellFormed) (url : Url) (deps : List Url) :
    (g.add url deps).WellFormed where
  nodup := by
    rw [urls_add]
    exact nodup_foldl_addOnce deps (nodup_addOnce h.nodup)
  closed := by
    intro v dep hdep
    rw [dependencies_add] at hdep
    rw [urls_add, mem_foldl_addOnce, mem_addOnce]
    by_cases hv : v = url
    · rw [if_pos hv, mem_foldl_addOnce] at hdep
      exact hdep.imp_left fun hd => .inr (h.closed v dep hd)
    · rw [if_neg hv] at hdep
      exact .inl (.inr (h.closed v dep hdep))

/-- Marking an edge as lazy keeps a graph well-formed. -/
theorem WellFormed.markLazy {g : Graph} (h : g.WellFormed) (url dep : Url) :
    (g.markLazy url dep).WellFormed where
  nodup := by
    rw [urls_markLazy]
    exact h.nodup
  closed := by
    intro v d hd
    rw [dependencies_markLazy] at hd
    rw [urls_markLazy]
    exact h.closed v d hd

/-- Marking several edges as lazy keeps a graph well-formed. -/
theorem WellFormed.foldl_markLazy {g : Graph} (h : g.WellFormed) (url : Url) (deps : List Url) :
    (deps.foldl (fun g dep => g.markLazy url dep) g).WellFormed := by
  induction deps generalizing g with
  | nil => exact h
  | cons dep deps ih => exact ih (h.markLazy url dep)

/-! ## Graphs that have been recorded -/

/-- One thing that is recorded in a graph. -/
inductive Note
  /-- A module and some of those that it imports. -/
  | imports (url : Url) (deps : List Url)
  /-- An edge that is used by `import()` alone. -/
  | lazily (source target : Url)
deriving DecidableEq, Repr, Inhabited

/-- Records what a note says. -/
def note (g : Graph) : Note → Graph
  | .imports url deps => g.add url deps
  | .lazily source target => g.markLazy source target

/-- The graph in which some notes have been recorded, one after the other. -/
def ofNotes (notes : List Note) : Graph := notes.foldl note empty

/-- What holds of the empty graph and is kept by recording holds of every graph that has been
recorded. -/
theorem ofNotes_induction {p : Graph → Prop} (hempty : p empty)
    (hadd : ∀ g url deps, p g → p (g.add url deps))
    (hlazy : ∀ g source target, p g → p (g.markLazy source target)) (notes : List Note) :
    p (ofNotes notes) := by
  suffices ∀ g, p g → p (notes.foldl note g) from this empty hempty
  induction notes with
  | nil => exact fun _ h => h
  | cons n notes ih =>
    intro g h
    cases n with
    | imports url deps => exact ih _ (hadd g url deps h)
    | lazily source target => exact ih _ (hlazy g source target h)

/-- A graph that has been recorded is well-formed. -/
theorem wellFormed_ofNotes (notes : List Note) : (ofNotes notes).WellFormed :=
  ofNotes_induction wellFormed_empty (fun _ url deps h => h.add url deps)
    (fun _ source target h => h.markLazy source target) notes

/-- The note names a module that it makes known. -/
def Note.Names : Note → Url → Prop
  | .imports url deps, v => v = url ∨ v ∈ deps
  | .lazily _ _, _ => False

/-- The note says that one module imports another. -/
def Note.SaysImports : Note → Url → Url → Prop
  | .imports url deps, m, v => m = url ∧ v ∈ deps
  | .lazily _ _, _, _ => False

/-- A note lists the modules that it names. -/
theorem mem_urls_note (g : Graph) (n : Note) (v : Url) :
    v ∈ (g.note n).urls ↔ v ∈ g.urls ∨ n.Names v := by
  cases n with
  | imports url deps =>
    rw [note, urls_add, mem_foldl_addOnce, mem_addOnce, Note.Names, or_comm (b := v ∈ g.urls),
      or_assoc]
  | lazily source target => rw [note, urls_markLazy, Note.Names, or_false]

/-- A note records the imports that it says. -/
theorem mem_dependencies_note (g : Graph) (n : Note) (m v : Url) :
    v ∈ (g.note n).dependencies m ↔ v ∈ g.dependencies m ∨ n.SaysImports m v := by
  cases n with
  | imports url deps =>
    rw [note, dependencies_add, Note.SaysImports]
    by_cases hm : m = url
    · rw [if_pos hm, mem_foldl_addOnce, and_iff_right hm]
    · rw [if_neg hm]
      simp [hm]
  | lazily source target => rw [note, dependencies_markLazy, Note.SaysImports, or_false]

/-- Notes list the modules that they name. -/
theorem mem_urls_foldl_note (notes : List Note) (g : Graph) (v : Url) :
    v ∈ (notes.foldl note g).urls ↔ v ∈ g.urls ∨ ∃ n ∈ notes, n.Names v := by
  induction notes generalizing g with
  | nil => simp
  | cons n notes ih =>
    rw [List.foldl_cons, ih, mem_urls_note, List.exists_mem_cons_iff, or_assoc]

/-- Notes record the imports that they say. -/
theorem mem_dependencies_foldl_note (notes : List Note) (g : Graph) (m v : Url) :
    v ∈ (notes.foldl note g).dependencies m ↔
      v ∈ g.dependencies m ∨ ∃ n ∈ notes, n.SaysImports m v := by
  induction notes generalizing g with
  | nil => simp
  | cons n notes ih =>
    rw [List.foldl_cons, ih, mem_dependencies_note, List.exists_mem_cons_iff, or_assoc]

/-- A note leaves the modules that are listed in front. -/
theorem prefix_urls_note (g : Graph) (n : Note) : g.urls <+: (g.note n).urls := by
  cases n with
  | imports url deps =>
    rw [note, urls_add]
    exact (prefix_addOnce url g.urls).trans (prefix_foldl_addOnce deps _)
  | lazily source target => simp [note]

/-- A note leaves what a module is known to import in front. -/
theorem prefix_dependencies_note (g : Graph) (n : Note) (m : Url) :
    g.dependencies m <+: (g.note n).dependencies m := by
  cases n with
  | imports url deps =>
    rw [note, dependencies_add]
    split
    · exact prefix_foldl_addOnce deps _
    · exact List.prefix_refl _
  | lazily source target => simp [note]

/-- Notes leave in front what has been recorded. -/
theorem prefix_foldl_note (notes : List Note) (g : Graph) :
    g.urls <+: (notes.foldl note g).urls ∧
      ∀ m, g.dependencies m <+: (notes.foldl note g).dependencies m := by
  induction notes generalizing g with
  | nil => exact ⟨List.prefix_refl _, fun _ => List.prefix_refl _⟩
  | cons n notes ih =>
    obtain ⟨hurls, hdeps⟩ := ih (g.note n)
    exact ⟨(prefix_urls_note g n).trans hurls,
      fun m => (prefix_dependencies_note g n m).trans (hdeps m)⟩

/-- No module is recorded twice among those that another imports. -/
theorem nodup_dependencies_ofNotes (notes : List Note) (url : Url) :
    ((ofNotes notes).dependencies url).Nodup := by
  refine ofNotes_induction (p := fun g => (g.dependencies url).Nodup) List.nodup_nil ?_ ?_ notes
  · intro g v deps h
    rw [dependencies_add]
    split
    · exact nodup_foldl_addOnce deps h
    · exact h
  · intro g source target h
    rwa [dependencies_markLazy]

end Graph

end ModuleLoader
