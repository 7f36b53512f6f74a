import ModuleLoader.Proofs.Graph.Traversal
import ModuleLoader.Proofs.Loader.Acting
import ModuleLoader.Proofs.Loader.DependencyOrder

/-! # Sorting the graph of an entry

A graph that is built for an entry grows from it: a module is recorded when one imports it that the
entry leads to. So a sort, which puts every module behind what it imports, has the entry last.

* **`Graph.GrownFrom`** is a graph that has been recorded, with nothing in it but what the entry
  leads to.
* **`Loader.GrowsFrom`** says so of a discovery, and the waves keep it.
* **`Loader.grownFrom_of_buildGraph`** says so of every graph that is built.
* **`Loader.topologicalSort_of_buildGraph`** says what a sort comes to, for every graph that has
  been recorded and for those that are built. -/

namespace ModuleLoader

open Relation

/-! ## Graphs that grow from an entry -/

namespace Graph

variable {g : Graph} {entry : Url} {order : List Url}

/-- A graph that has been recorded, with nothing in it but what the entry leads to. -/
structure GrownFrom (g : Graph) (entry : Url) : Prop where
  /-- The graph has been recorded. -/
  recorded : ∃ notes, g = ofNotes notes
  /-- The entry leads to every module. -/
  reached : ∀ m ∈ g.urls, ReflTransGen g.Imports entry m

/-- What a module leads to comes before it in a sorted list, so one that leads to all modules of the
list is the last. -/
theorem Sorted.getLast?_of_reached (h : g.Sorted order) (hentry : entry ∈ order)
    (hreached : ∀ m ∈ order, ReflTransGen g.Imports entry m) : order.getLast? = some entry := by
  obtain ⟨front, back, rfl⟩ := List.append_of_mem hentry
  have hdisjoint := (List.nodup_append.1 h.nodup).2.2
  rcases List.eq_nil_or_concat back with rfl | ⟨back, last, rfl⟩
  · exact List.getLast?_concat
  -- a module behind the entry is one that the entry leads to, and so comes before it as well
  · rw [List.concat_eq_append] at hreached h hdisjoint
    have hlast : last ∈ entry :: (back ++ [last]) := by simp
    rcases reflTransGen_iff_eq_or_transGen.1 (hreached last (List.mem_append_right _ hlast)) with
      rfl | hleads
    · have hn := (List.nodup_append.1 h.nodup).2.1
      exact absurd (List.mem_append_right back (List.mem_singleton.2 rfl))
        (List.nodup_cons.1 hn).1
    · exact absurd rfl (hdisjoint last (h.mem_front hleads front _ rfl) last hlast)

/-- A sort of a graph that has grown from one of its modules has that module last. -/
theorem GrownFrom.getLast?_of_topologicalSort (h : g.GrownFrom entry) (hentry : entry ∈ g.urls)
    (hsort : g.topologicalSort = .ok order) : order.getLast? = some entry := by
  obtain ⟨notes, hnotes⟩ := h.recorded
  obtain ⟨hsorted, hmem⟩ := sorted_of_topologicalSort (hnotes ▸ wellFormed_ofNotes notes) hsort
  exact hsorted.getLast?_of_reached ((hmem entry).2 hentry) fun m hm => h.reached m ((hmem m).1 hm)

end Graph

/-! ## Discoveries that grow from an entry -/

namespace Discovery

variable {d : Discovery} {entry m : Url}

/-- The notes that add what a module imports. -/
def notesOf (m : Url) (deps : List (Url × Bool)) : List Graph.Note :=
  .imports m (deps.map Prod.fst) :: (deps.filter Prod.snd).map fun e => .lazily m e.1

/-- What a module imports is added by taking notes. -/
theorem graph_add (d : Discovery) (m : Url) (deps : List (Url × Bool)) :
    (d.add m deps).graph = (notesOf m deps).foldl Graph.note d.graph := by
  rw [add, notesOf, List.foldl_cons, List.foldl_map, List.foldl_map]
  rfl

/-- A discovery that has recorded nothing but what the entry leads to, and goes on from there. -/
structure GrowsFrom (d : Discovery) (entry : Url) : Prop where
  /-- What has been recorded has grown from the entry. -/
  graph : d.graph.GrownFrom entry
  /-- The entry leads to the modules of the next wave. -/
  pending : ∀ m ∈ d.pending, ReflTransGen d.graph.Imports entry m

/-- A discovery begins with the entry. -/
theorem growsFrom_start (entry : Url) : (start entry).GrowsFrom entry where
  graph := ⟨⟨[], rfl⟩, fun _ h => nomatch h⟩
  pending := fun _ hm => List.mem_singleton.1 hm ▸ .refl

/-- What the entry leads to it leads to still when more is added. -/
theorem reached_add {v : Url} (deps : List (Url × Bool))
    (h : ReflTransGen d.graph.Imports entry v) :
    ReflTransGen (d.add m deps).graph.Imports entry v := by
  rw [graph_add]
  have himports := fun u v (himp : d.graph.Imports u v) =>
    ((Graph.prefix_foldl_note (notesOf m deps) d.graph).2 u).subset himp
  exact ReflTransGen.mono himports entry v h

/-- A discovery still grows from the entry when the imports of a module are added to which the entry
leads. -/
theorem GrowsFrom.add (h : d.GrowsFrom entry) (hm : ReflTransGen d.graph.Imports entry m)
    (deps : List (Url × Bool)) : (d.add m deps).GrowsFrom entry := by
  -- what the module imports is reached by way of it
  have htargets : ∀ v ∈ deps.map Prod.fst, ReflTransGen (d.add m deps).graph.Imports entry v := by
    refine fun v hv => (reached_add deps hm).tail ?_
    rw [graph_add]
    exact (Graph.mem_dependencies_foldl_note _ d.graph m v).2
      (.inr ⟨_, List.mem_cons_self, rfl, hv⟩)
  obtain ⟨notes, hnotes⟩ := h.graph.recorded
  refine ⟨⟨⟨notes ++ notesOf m deps, ?_⟩, fun v hv => ?_⟩, fun v hv => ?_⟩
  · rw [graph_add, hnotes, Graph.ofNotes, Graph.ofNotes, List.foldl_append]
  · rcases (mem_urls_add d m deps v).1 hv with hv | rfl | hv
    · exact reached_add deps (h.graph.reached v hv)
    · exact reached_add deps hm
    · exact htargets v hv
  · rcases (mem_pending_add d m deps v).1 hv with hv | ⟨hv, -⟩
    · exact reached_add deps (h.pending v hv)
    · exact htargets v hv

/-- A discovery still grows from the entry when the imports of several modules are added. -/
theorem GrowsFrom.foldl_add (h : d.GrowsFrom entry) (imports : List (Url × List (Url × Bool)))
    (hreached : ∀ e ∈ imports, ReflTransGen d.graph.Imports entry e.1) :
    (imports.foldl (fun d e => d.add e.1 e.2) d).GrowsFrom entry := by
  induction imports generalizing d with
  | nil => exact h
  | cons e imports ih =>
    obtain ⟨hfirst, hrest⟩ := List.forall_mem_cons.1 hreached
    exact ih (h.add hfirst e.2) fun e' he' => reached_add e.2 (hrest e' he')

end Discovery

namespace Loader

variable {ω : Type} {server : Server ω} {l : Loader} {s s' : Session}

/-- The waves of a discovery grow from the entry. -/
theorem waveInvariant_growsFrom (l : Loader) (entry : Url) :
    l.WaveInvariant (ω := ω) (fun _ _ => True) (fun _ => True) fun _ d _ => d.GrowsFrom entry where
  inquires := fun h _ => h
  source := fun _ _ _ => trivial
  probe := fun _ _ _ _ _ _ _ => trivial
  settle := by
    intro k d w scans h _ _ _
    have hbegin : d.beginWave.GrowsFrom entry := ⟨h.graph, fun _ hm => nomatch hm⟩
    have hfold := hbegin.foldl_add
      ((d.pending.zip scans).map fun e => (e.1, l.localDependencies w.state.cache e.2))
      fun e he => by
        obtain ⟨e', he', rfl⟩ := List.mem_map.1 he
        exact h.pending _ (List.of_mem_zip he').1
    rw [List.foldl_map] at hfold
    exact hfold

/-- A discovery ends with a graph that has grown from the entry. -/
theorem mayDiscover_grownFrom (server : Server ω) (w : World Session ω) :
    l.MayDiscover server (fun _ _ => True) (fun _ entry g => g.GrownFrom entry) w := by
  intro limit entry
  have hwaves := (waveInvariant_growsFrom l entry).keeps_attempt_discover server.says_something
    limit 0 (Discovered.start l w.state entry) (.inr (List.mem_singleton.2 rfl))
    (Discovery.growsFrom_start entry)
  refine hwaves.of_attempt.imp ?_
  rintro ⟨g, waves⟩ w' ⟨hdescribes, k, d, hgrows, -, rfl⟩
  exact ⟨hdescribes, fun _ _ => hgrows.graph⟩

/-- Every graph that is remembered has grown from its entry. -/
def AllGrown (s : Session) : Prop :=
  ∀ entry g, s.cache.graphs.get? entry = some g → g.GrownFrom entry

/-- Graphs have grown from their entries after every act that draws only such graphs. -/
theorem AllGrown.of_acts {free : Prop} (h : AllGrown s)
    (ha : l.Acts (fun _ _ => True) (fun _ entry g => g.GrownFrom entry) free s s') :
    AllGrown s' := by
  have hsame : s'.cache.graphs = s.cache.graphs → AllGrown s' := fun heq => by
    rwa [AllGrown, heq]
  cases ha with
  | learns hl => exact hsame hl.sameGraphs
  | draws entry g hd hg heq =>
    subst heq
    intro entry' g' hg'
    rcases Memo.get?_insert_elim hg' with hold | ⟨rfl, rfl, -⟩
    · exact h entry' g' hold
    · exact hg
  | registers m hnew hturn hreg =>
    obtain ⟨a, hc, -⟩ := hreg.registers.compiles
    exact hsame hc.sameGraphs
  | imports url a ha heq =>
    subst heq
    exact hsame (Session.imports_importEager url (s.cache.graphContaining? url) a s).sameGraphs
  | clears heq =>
    subst heq
    exact fun _ _ h => nomatch h

/-- Whatever calls have led to, a graph that is built for an entry has grown from it and has it. -/
theorem grownFrom_of_buildGraph {kind : Call → Prop} {w w' : World Session ω}
    (hw : l.Reached server kind w) {limit : Nat} {entry : Url} {g : Graph}
    (hsteps : Op.Steps server (l.buildGraph limit entry, w) (.done g, w')) :
    g.GrownFrom entry ∧ entry ∈ g.urls := by
  have hs := sound_of_reached hw
  have hgrown : AllGrown w.state :=
    inv_of_reached _ True server.says_something (fun _ _ h => nomatch h)
      (fun w _ _ => mayDiscover_grownFrom server w) (fun _ _ _ h ha => h.of_acts ha)
      (fun _ _ => trivial) hw
  have hbuilds : (l.buildGraph limit entry).Keeps server (l.acting (fun _ _ => True)
      (fun _ entry g => g.GrownFrom entry) True) _ w :=
    acts_buildGraph (mayDiscover_grownFrom server w) limit fun _ => hs.wellFormed
  obtain ⟨hacting, hg, -⟩ := hbuilds.steps hsteps
  obtain ⟨hs', hgrown'⟩ := inv_of_acting (fun _ _ _ h ha => h.of_acts ha) hacting hs hgrown
  exact ⟨hgrown' entry g hg, (hs'.described entry g hg).entry_mem⟩

/-- Whatever has been recorded in a graph, a sort of it comes to an end: with every module once and
behind all that it imports, or with a circle if there is one. A graph that is built for an entry,
whatever calls have led to, is a graph that has been recorded, and a sort of it has the entry
last. -/
theorem topologicalSort_of_buildGraph (server : Server ω) (l : Loader) :
    (∀ notes, (Graph.ofNotes notes).SortsOut) ∧
      ∀ (kind : Call → Prop) (w w' : World Session ω) (limit : Nat) (entry : Url) (g : Graph),
        l.Reached server kind w → Op.Steps server (l.buildGraph limit entry, w) (.done g, w') →
          (∃ notes, g = Graph.ofNotes notes) ∧
            ∀ order, g.topologicalSort = .ok order → order.getLast? = some entry := by
  refine ⟨fun notes => (Graph.wellFormed_ofNotes notes).sortsOut,
    fun kind w w' limit entry g hw hsteps => ?_⟩
  obtain ⟨hgrown, hentry⟩ := grownFrom_of_buildGraph hw hsteps
  exact ⟨hgrown.recorded, fun order hsort => hgrown.getLast?_of_topologicalSort hentry hsort⟩

/-- After a load of a module, the graph of one that imports it is built, and sorted behind it. -/
theorem topologicalSort_of_buildGraph_importing :
    ∃ (w w' : World Session Unit) (g : Graph) (order : List Url),
      default.Reached (Server.ofModules importing) (fun _ => True) w ∧
      Op.Steps (Server.ofModules importing) (default.buildGraph 3 (fileUrl "main.js"), w)
        (.done g, w') ∧
      g.topologicalSort = .ok order ∧ order.getLast? = some (fileUrl "main.js") := by
  have hload : ((default.perform (.loadModule 3 (fileUrl "util.js"))).run
      (Server.ofModules importing) (default.start ())).1 = some () := by
    decide +kernel
  have hreached : default.Reached (Server.ofModules importing) (fun _ => True) _ :=
    .call (.start ()) trivial (Op.steps_of_fst_run hload)
  have hbuild : ((default.buildGraph 3 (fileUrl "main.js")).run (Server.ofModules importing)
      ((default.perform (.loadModule 3 (fileUrl "util.js"))).run
        (Server.ofModules importing) (default.start ())).2).1.map Graph.topologicalSort =
      some (.ok [fileUrl "util.js", fileUrl "main.js"]) := by
    decide +kernel
  obtain ⟨g, hrun, hsort⟩ := Option.map_eq_some_iff.1 hbuild
  have hsteps := Op.steps_of_fst_run hrun
  have hlast := (topologicalSort_of_buildGraph (Server.ofModules importing) default).2
    (fun _ => True) _ _ 3 (fileUrl "main.js") g hreached hsteps
  exact ⟨_, _, g, _, hreached, hsteps, hsort, hlast.2 _ hsort⟩

end Loader

end ModuleLoader
