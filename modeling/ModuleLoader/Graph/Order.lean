import ModuleLoader.Graph.Basic

/-! # Orders and circles

Walks through a dependency graph from every module in turn, each to its end before the next.

* **`Graph.topologicalSort`** lists every module behind the modules it imports, or reports the
  first circle.
* **`Graph.cycles`** lists the circles that the walk closes.
* **`Graph.eagerDependencies`** lists the modules evaluated along with one. -/

namespace ModuleLoader.Graph

/-- A circle of imports: the module that closes it, and the walk from it around to it. -/
structure Cycle where
  /-- The module that is reached again. -/
  closing : Url
  /-- The walk from that module back to it. -/
  path : List Url
deriving DecidableEq, Repr, Inhabited

/-- The walk around the circle that closes at a module on the current path. -/
def cyclePath (path : List Url) (closing : Url) : List Url :=
  path.dropWhile (· ≠ closing) ++ [closing]

/-! ## Topological order -/

/-- Visits a module: those it imports first, then itself. `path` leads to it, `order` has been
finished. The first number bounds the length of the paths. -/
def visit (g : Graph) : Nat → List Url → List Url → Url → Except Cycle (List Url)
  | fuel, path, order, url =>
    if url ∈ order then .ok order
    else if url ∈ path then .error ⟨url, cyclePath path url⟩
    else
      match fuel with
      | 0 => .ok order
      | fuel + 1 => do
        let order ← (g.dependencies url).foldlM (fun order dep =>
          g.visit fuel (path ++ [url]) order dep) order
        pure (order ++ [url])

/-- Every module behind the modules it imports. -/
def topologicalSort (g : Graph) : Except Cycle (List Url) :=
  g.urls.foldlM (fun order url => g.visit g.size [] order url) []

/-! ## Circles -/

/-- What a walk has finished and the circles it has closed. -/
structure Walk where
  /-- The modules whose imports have all been walked. -/
  finished : List Url
  /-- The circles closed so far. -/
  cycles : List (List Url)
deriving DecidableEq, Repr, Inhabited

/-- Walks from a module that has not been walked. `path` leads to it. -/
def walk (g : Graph) : Nat → List Url → Walk → Url → Walk
  | 0, _, w, _ => w
  | fuel + 1, path, w, url =>
    let path := path ++ [url]
    let w := (g.dependencies url).foldl (fun w dep =>
      if dep ∈ path then { w with cycles := w.cycles ++ [cyclePath path dep] }
      else if dep ∈ w.finished then w
      else g.walk fuel path w dep) w
    { w with finished := w.finished ++ [url] }

/-- The circles that a walk from every module closes, each from a module around to itself. -/
def cycles (g : Graph) : List (List Url) :=
  (g.urls.foldl (fun w url =>
    if url ∈ w.finished then w else g.walk g.size [] w url) ⟨[], []⟩).cycles

/-! ## Eager dependencies -/

/-- The number of edges of a graph. -/
def edgeCount (g : Graph) : Nat :=
  g.nodes.foldl (fun n e => n + e.2.dependencies.length) 0

/-- Goes on from the modules of `queue`, the last of which comes first, having seen some. -/
def reach (g : Graph) : Nat → List Url → List Url → List Url
  | 0, _, seen => seen
  | _ + 1, [], seen => seen
  | fuel + 1, next :: queue, seen =>
    if next ∈ seen then g.reach fuel queue seen
    else
      let seen := seen ++ [next]
      g.reach fuel (((g.eagerEdges next).filter (· ∉ seen)).reverse ++ queue) seen

/-- The modules evaluated along with a module: those it reaches by edges that are not lazy. -/
def eagerDependencies (g : Graph) (url : Url) : List Url :=
  g.reach (2 * g.edgeCount + 1) (g.eagerEdges url).reverse []

end ModuleLoader.Graph
