import ModuleLoader.Proofs.Loader.Coherence
import ModuleLoader.Proofs.Loader.Failures

/-! # Circular imports

A load stops at a circle of imports before anything is compiled. It reports one exactly if its graph
has one, and what had been compiled and imported before stays as it was.

* **`Session.Spares`** leaves alone all that compiling and importing change.
* **`Loader.circularDependency_of_loadModule`** says what a load does about circles. -/

namespace ModuleLoader

open Relation

variable {ω : Type} {server : Server ω}

/-- Nothing is compiled or imported. -/
structure Session.Spares (s s' : Session) : Prop where
  /-- Nothing that came of compiling is remembered or forgotten. -/
  sameCompiled : s'.cache.compiled = s.cache.compiled
  /-- Nothing that was imported is. -/
  sameModules : s'.cache.modules = s.cache.modules
  /-- No blob is made or revoked. -/
  sameBlobs : s'.blobs = s.blobs
  /-- No transformer is called. -/
  sameCompilations : s'.compilations = s.compilations
  /-- No module is evaluated. -/
  sameSerial : s'.serial = s.serial

namespace Loader

variable {l : Loader} {s s' : Session}

/-- Building a graph spares what has been compiled and imported. -/
theorem Prepares.spares (h : l.Prepares s s') : s.Spares s' where
  sameCompiled := h.sameCompiled
  sameModules := h.sameModules
  sameBlobs := h.sameBlobs
  sameCompilations := h.sameCompilations
  sameSerial := h.sameSerial

/-- The graph that is built is remembered and well-formed, if the one remembered before was, and
building it spares what has been compiled and imported. -/
theorem spares_of_buildGraph {limit : Nat} {url : Url} {g : Graph} {w w₁ : World Session ω}
    (hgraphs : ∀ g, w.state.cache.graphs.get? url = some g → g.WellFormed)
    (h : Op.Steps server (l.buildGraph limit url, w) (.done g, w₁)) :
    g.WellFormed ∧ w₁.state.cache.graphs.get? url = some g ∧ w.state.Spares w₁.state := by
  have hacts : (l.buildGraph limit url).Keeps server
      (l.acting (fun _ _ => True) (fun _ _ _ => True) True) _ w :=
    acts_buildGraph (mayDiscover_true server w) limit hgraphs
  obtain ⟨hgraph, hwell⟩ := (hacts.steps h).2
  have hprepares : l.Prepares w.state w₁.state :=
    prepares_of_preparing ((keeps_buildGraph l limit url w).steps h).1
  exact ⟨hwell, hgraph, hprepares.spares⟩

/-- Importing a module is never refused for a circle. -/
theorem ne_circularDependency_of_importEntry (entry u : Url) (g : Graph) (path : List Url)
    (s : Session) : (importEntry entry g s).1 ≠ .error (.circularDependency u path) := by
  intro h
  cases ha : s.cache.compiled.get? entry with
  | none =>
    rw [importEntry_of_notCompiled ha] at h
    cases h
  | some a =>
    rw [importEntry_of_compiled ha] at h
    rcases importEager_cases entry (some g) a s with ⟨blobUrl, -, -, heq⟩ | ⟨f, v, cause, heq⟩
    · rw [heq] at h
      cases hread : s.readBlob blobUrl with
      | error reason =>
        rw [Session.importBlob_of_error hread] at h
        cases h
      | ok m =>
        rw [Session.importBlob_of_ok hread] at h
        cases h
    · rw [heq] at h
      cases h

/-- What a load does with a graph that has a circle is to report it. -/
theorem steps_finish_of_circle {url : Url} {g : Graph} {circle : Graph.Cycle}
    (hsort : g.topologicalSort = .error circle) {w w' : World Session ω}
    {r : Except Failure Module} :
    Op.Steps server (l.finish url g, w) (.done r, w') ↔
      r = .error (.circularDependency circle.closing circle.path) ∧ w' = w := by
  have hrun : (l.finish url g).run server w =
      (some (.error (.circularDependency circle.closing circle.path)), w) := by
    rw [finish, hsort]
    rfl
  rw [Op.steps_done_iff (isSequential_finish l url g), hrun, Prod.mk.injEq, Option.some.injEq]
  constructor <;> rintro ⟨rfl, rfl⟩ <;> exact ⟨rfl, rfl⟩

/-- What a load does with a graph ends with a circle exactly if the graph has one. That is a circle
of the graph then, and nothing has been done. -/
theorem circularDependency_of_finish {url : Url} {g : Graph} (hwell : g.WellFormed)
    {w w' : World Session ω} {r : Except Failure Module}
    (h : Op.Steps server (l.finish url g, w) (.done r, w')) :
    ((∃ u path, r = .error (.circularDependency u path)) ↔ ∃ u, TransGen g.Imports u u) ∧
      ∀ u path, r = .error (.circularDependency u path) → g.IsCircle u path ∧ w' = w := by
  cases hsort : g.topologicalSort with
  | error circle =>
    obtain ⟨rfl, rfl⟩ := (steps_finish_of_circle hsort).1 h
    have hcircle : g.IsCircle circle.closing circle.path := Graph.isCircle_of_topologicalSort hsort
    refine ⟨⟨fun _ => ⟨circle.closing, hcircle.transGen⟩, fun _ => ⟨_, _, rfl⟩⟩, ?_⟩
    rintro _ _ ⟨rfl, rfl⟩
    exact ⟨hcircle, rfl⟩
  | ok order =>
    obtain ⟨rfl, -⟩ := (steps_finish_iff hsort).1 h
    -- the graph has been sorted, so that it has no circle, and importing reports none
    have hacyclic : g.Acyclic := (Graph.exists_topologicalSort_iff hwell).1 ⟨order, hsort⟩
    have hno := fun u path => ne_circularDependency_of_importEntry url u g path
      (l.afterCompiling server order w).state
    refine ⟨⟨?_, ?_⟩, fun u path hr => absurd hr (hno u path)⟩
    · rintro ⟨u, path, hr⟩
      exact absurd hr (hno u path)
    · rintro ⟨u, hself⟩
      exact absurd hself (hacyclic u)

/-- What a load does with a graph that is remembered keeps it. -/
theorem graphs_of_finish {url : Url} {g : Graph} (hwell : g.WellFormed) {w w' : World Session ω}
    {r : Except Failure Module} (hg : w.state.cache.graphs.get? url = some g)
    (h : Op.Steps server (l.finish url g, w) (.done r, w')) :
    w'.state.cache.graphs.get? url = some g := by
  cases hsort : g.topologicalSort with
  | error circle =>
    obtain ⟨-, rfl⟩ := (steps_finish_of_circle hsort).1 h
    exact hg
  | ok order =>
    obtain ⟨-, rfl⟩ := (steps_finish_iff hsort).1 h
    have hsorted : g.Sorted order := (Graph.sorted_of_topologicalSort hwell hsort).1
    have hcompiled : (l.afterCompiling server order w).state.cache.graphs.get? url = some g :=
      ((keeps_compileOrder hg hsort hsorted).steps
        (Op.steps_of_run (run_compileModules l server order w))).2.1
    exact (imports_importEntry url g (l.afterCompiling server order w).state).graphs url g hcompiled

/-- However a load of a module that has not been imported ends, it has built a graph, and it ends
with a circle exactly if a module of the graph imports itself, directly or through others. Such a
load has done no more than to build the graph, and spares all that was compiled and imported before
it; what it reports is a walk along imports from a module around to it that comes by no other module
twice. And whenever the graph that is built has a circle, the load ends so at once. -/
theorem circularDependency_of_loadModule {limit : Nat} {url : Url} {w : World Session ω}
    (hmodule : w.state.cache.modules.get? url = none)
    (hgraphs : ∀ g, w.state.cache.graphs.get? url = some g → g.WellFormed) :
    (∀ r w', Op.Steps server (l.loadModule limit url, w) (.done r, w') →
      ∃ g, w'.state.cache.graphs.get? url = some g ∧
        ((∃ u path, r = .error (.circularDependency u path)) ↔ ∃ u, TransGen g.Imports u u) ∧
        ∀ u path, r = .error (.circularDependency u path) →
          g.IsCircle u path ∧ w.state.Spares w'.state ∧
            Op.Steps server (l.buildGraph limit url, w) (.done g, w')) ∧
      ∀ g w₁, Op.Steps server (l.buildGraph limit url, w) (.done g, w₁) →
        (∃ u, TransGen g.Imports u u) →
          ∃ u path, Op.Steps server (l.loadModule limit url, w)
            (.done (.error (.circularDependency u path)), w₁) := by
  constructor
  · intro r w' h
    obtain ⟨g, w₁, hbuild, hfinish⟩ := (steps_loadModule_iff hmodule).1 h
    obtain ⟨hwell, hgraph, hspares⟩ := spares_of_buildGraph hgraphs hbuild
    obtain ⟨hiff, hcircle⟩ := circularDependency_of_finish hwell hfinish
    refine ⟨g, graphs_of_finish hwell hgraph hfinish, hiff, fun u path hr => ?_⟩
    obtain ⟨hpath, rfl⟩ := hcircle u path hr
    exact ⟨hpath, hspares, hbuild⟩
  · rintro g w₁ hbuild ⟨u, hself⟩
    obtain ⟨hwell, -, -⟩ := spares_of_buildGraph hgraphs hbuild
    cases hsort : g.topologicalSort with
    | error circle =>
      refine ⟨circle.closing, circle.path, (steps_loadModule_iff hmodule).2 ⟨g, w₁, hbuild, ?_⟩⟩
      exact (steps_finish_of_circle hsort).2 ⟨rfl, rfl⟩
    | ok order =>
      exact absurd hself ((Graph.exists_topologicalSort_iff hwell).1 ⟨order, hsort⟩ u)

/-- Two modules that import each other, one of them only when the other is wanted. -/
def circularLazily : List (String × String) :=
  [("main.js", "import(\"./util.js\");\n"), ("util.js", "import \"./main.js\";\n")]

/-- A load of the first stops at the circle when the second has been compiled before, and leaves
that as it was. -/
theorem circularDependency_of_loadModule_circularLazily :
    ∃ (w w' : World Session Unit) (path : List Url),
      w.state.cache.isCompiled (fileUrl "util.js") = true ∧
      w.state.cache.modules.get? (fileUrl "main.js") = none ∧
      Op.Steps (Server.ofModules circularLazily) (default.loadModule 3 (fileUrl "main.js"), w)
        (.done (.error (.circularDependency (fileUrl "main.js") path)), w') ∧
      path = [fileUrl "main.js", fileUrl "util.js", fileUrl "main.js"] ∧
      w.state.Spares w'.state ∧
      ∃ g : Graph, g.IsCircle (fileUrl "main.js") path ∧
        TransGen g.Imports (fileUrl "main.js") (fileUrl "main.js") := by
  obtain ⟨hcompiled, hmodule, hgraph, hrun⟩ :
      (default.afterCompiling (Server.ofModules circularLazily) [fileUrl "util.js"]
        (default.start ())).state.cache.isCompiled (fileUrl "util.js") = true ∧
      (default.afterCompiling (Server.ofModules circularLazily) [fileUrl "util.js"]
        (default.start ())).state.cache.modules.get? (fileUrl "main.js") = none ∧
      (default.afterCompiling (Server.ofModules circularLazily) [fileUrl "util.js"]
        (default.start ())).state.cache.graphs.get? (fileUrl "main.js") = none ∧
      ((default.loadModule 3 (fileUrl "main.js")).run (Server.ofModules circularLazily)
        (default.afterCompiling (Server.ofModules circularLazily) [fileUrl "util.js"]
          (default.start ()))).1 = some (.error (.circularDependency (fileUrl "main.js")
            [fileUrl "main.js", fileUrl "util.js", fileUrl "main.js"])) := by
    decide +kernel
  have hsteps := Op.steps_of_fst_run hrun
  obtain ⟨g, -, -, hcircle⟩ :=
    (circularDependency_of_loadModule hmodule (by simp [hgraph])).1 _ _ hsteps
  obtain ⟨hpath, hspares, -⟩ := hcircle _ _ rfl
  exact ⟨_, _, _, hcompiled, hmodule, hsteps, rfl, hspares, g, hpath, hpath.transGen⟩

end Loader

end ModuleLoader
