import ModuleLoader.Url.Basic

/-! # Dependency graphs

Which modules import which. Nodes and edges keep the order in which they were first recorded, and
an edge is recorded at both of its ends.

* **`Graph.add`** records a node and the edges that leave it.
* **`Graph.markLazy`** marks an edge as used by `import()` alone.
* **`Graph.dependencies?`**, **`Graph.dependents?`** read the edges of a node. -/

namespace ModuleLoader

/-- Puts an element at the end of a list that has it not yet. -/
def addOnce {α : Type} [DecidableEq α] (x : α) (xs : List α) : List α :=
  if x ∈ xs then xs else xs ++ [x]

/-- After adding an element, the list has it and what it had. -/
@[simp] theorem mem_addOnce {α : Type} [DecidableEq α] (x y : α) (xs : List α) :
    y ∈ addOnce x xs ↔ y = x ∨ y ∈ xs := by
  unfold addOnce
  split
  · constructor
    · exact Or.inr
    · rintro (rfl | h)
      · assumption
      · exact h
  · simp [or_comm]

/-- What a graph knows of one module. -/
structure Graph.Node where
  /-- The modules it imports. -/
  dependencies : List Url
  /-- The modules that import it. -/
  dependents : List Url
  /-- The modules it imports by `import()` alone. -/
  lazy : List Url
deriving DecidableEq, Repr, Inhabited

/-- Modules and what they import, in the order in which they were recorded. -/
structure Graph where
  /-- The modules with their edges. -/
  nodes : List (Url × Graph.Node)
deriving DecidableEq, Repr, Inhabited

namespace Graph

/-- A module of which nothing is known. -/
def Node.bare : Node := ⟨[], [], []⟩

/-- The graph with no modules. -/
def empty : Graph := ⟨[]⟩

/-- What the graph knows of a module. -/
def node? (g : Graph) (url : Url) : Option Node :=
  (g.nodes.find? (·.1 = url)).map Prod.snd

/-- The module is in the graph. -/
def contains (g : Graph) (url : Url) : Bool :=
  g.nodes.any (·.1 = url)

/-- The modules, oldest first. -/
def urls (g : Graph) : List Url := g.nodes.map Prod.fst

/-- How many modules there are. -/
def size (g : Graph) : Nat := g.nodes.length

/-- There are no modules. -/
def isEmpty (g : Graph) : Bool := g.nodes.isEmpty

/-- The modules that a module imports. -/
def dependencies? (g : Graph) (url : Url) : Option (List Url) :=
  (g.node? url).map Node.dependencies

/-- The modules that import a module. -/
def dependents? (g : Graph) (url : Url) : Option (List Url) :=
  (g.node? url).map Node.dependents

/-- The modules that a module imports; none when it is not in the graph. -/
def dependencies (g : Graph) (url : Url) : List Url :=
  ((g.node? url).getD Node.bare).dependencies

/-- The modules that are evaluated when a module is: those it imports otherwise than by
`import()` alone. -/
def eagerEdges (g : Graph) (url : Url) : List Url :=
  match g.node? url with
  | none => []
  | some n => n.dependencies.filter (· ∉ n.lazy)

/-! ## Recording -/

/-- Records a module if it is new. -/
def touch (g : Graph) (url : Url) : Graph :=
  if g.contains url then g else ⟨g.nodes ++ [(url, Node.bare)]⟩

/-- Changes what is known of one module. -/
def modify (g : Graph) (url : Url) (f : Node → Node) : Graph :=
  ⟨g.nodes.map fun e => if e.1 = url then (e.1, f e.2) else e⟩

/-- Records that `url` imports `dep`, at both ends. -/
def addEdge (g : Graph) (url dep : Url) : Graph :=
  let g := (g.touch dep).modify dep fun n => { n with dependents := addOnce url n.dependents }
  g.modify url fun n => { n with dependencies := addOnce dep n.dependencies }

/-- Records a module and the modules it imports. -/
def add (g : Graph) (url : Url) (deps : List Url) : Graph :=
  deps.foldl (fun g dep => g.addEdge url dep) (g.touch url)

/-- Marks an edge that is recorded as one of `import()` alone. -/
def markLazy (g : Graph) (source target : Url) : Graph :=
  g.modify source fun n =>
    if target ∈ n.dependencies then { n with lazy := addOnce target n.lazy } else n

/-! ## What recording keeps -/

/-- Changing a module changes no URL. -/
@[simp] theorem urls_modify (g : Graph) (url : Url) (f : Node → Node) :
    (g.modify url f).urls = g.urls := by
  unfold modify urls
  rw [List.map_map]
  apply List.map_congr_left
  intro e _
  by_cases h : e.1 = url <;> simp [h]

/-- Recording a module puts its URL last if it is new. -/
theorem urls_touch (g : Graph) (url : Url) : (g.touch url).urls = addOnce url g.urls := by
  unfold touch addOnce contains urls
  by_cases h : g.nodes.any (fun e => decide (e.1 = url)) = true
  · have hm : url ∈ g.nodes.map Prod.fst := by
      obtain ⟨e, he, hu⟩ := List.any_eq_true.1 h
      exact List.mem_map.2 ⟨e, he, by simpa using hu⟩
    simp only [h, if_true, hm]
  · have hm : url ∉ g.nodes.map Prod.fst := by
      intro hmem
      obtain ⟨e, he, hu⟩ := List.mem_map.1 hmem
      exact h (List.any_eq_true.2 ⟨e, he, by simpa using hu⟩)
    simp only [h, hm]
    simp

/-- An edge puts its target last if it is new. -/
theorem urls_addEdge (g : Graph) (url dep : Url) :
    (g.addEdge url dep).urls = addOnce dep g.urls := by
  simp [addEdge, urls_touch]

end Graph

end ModuleLoader
