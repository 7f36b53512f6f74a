import ModuleLoader.Proofs.Loader.Closedness
import ModuleLoader.Proofs.Loader.History

/-! # Graphs that agree on a module

Graphs are built at different times and remembered. What two of them record of a module they share
is the same, unless a discovery missed the module: then it may be a leaf of one of them and not of
the other. Which graph an import goes by makes no difference as long as that is not so of anything
that is evaluated along with the module.

* **`Graph.eagerDependencies_eq_of_eagerEdges_eq`** says that graphs with the same eager edges
  wherever a module leads have the same eager dependencies for it, in the same order.
* **`Loader.importBy`** imports a compiled module and goes by a given graph.
* **`Loader.graphs_agree_of_reached`** says where remembered graphs agree, and what becomes of an
  import. -/

namespace ModuleLoader

open Relation

/-! ## Searches that agree -/

namespace Graph

variable {g g' : Graph}

/-- Two searches that have rounds enough find the same, in the same order, if the modules that the
queue leads to have the same eager edges. -/
theorem reach_eq_of_eagerEdges_eq (fuel : Nat) {fuel' : Nat} {queue seen : List Url}
    (hfuel : queue.length + g.unseenEdges seen ≤ fuel)
    (hfuel' : queue.length + g'.unseenEdges seen ≤ fuel')
    (hsame : ∀ u ∈ queue, ∀ v, ReflTransGen g.ImportsEagerly u v →
      g'.eagerEdges v = g.eagerEdges v) :
    g'.reach fuel' queue seen = g.reach fuel queue seen := by
  induction fuel generalizing fuel' queue seen with
  | zero =>
    obtain rfl : queue = [] := List.length_eq_zero_iff.1 (by omega)
    cases fuel' <;> rfl
  | succ fuel ih =>
    cases queue with
    | nil => cases fuel' <;> rfl
    | cons next queue =>
      rw [List.forall_mem_cons] at hsame
      obtain ⟨hnext, hqueue⟩ := hsame
      rw [List.length_cons] at hfuel hfuel'
      obtain ⟨fuel', rfl⟩ : ∃ n, fuel' = n + 1 := ⟨fuel' - 1, by omega⟩
      rw [reach, reach]
      by_cases hseen : next ∈ seen
      · rw [if_pos hseen, if_pos hseen]
        exact ih (by omega) (by omega) hqueue
      · have hless := g.length_queue_add_unseenEdges_le hseen queue
        have hless' := g'.length_queue_add_unseenEdges_le hseen queue
        rw [if_neg hseen, if_neg hseen]
        rw [hnext next .refl] at hless' ⊢
        refine ih (by omega) (by omega) fun u hu => ?_
        -- what is put into the queue is imported by the module that was next
        rcases List.mem_append.1 hu with hu | hu
        · have hedge : g.ImportsEagerly next u := (List.mem_filter.1 (List.mem_reverse.1 hu)).1
          exact fun v hv => hnext v (.head hedge hv)
        · exact hqueue u hu

/-- Graphs with the same eager edges wherever a module leads have the same eager dependencies for
it, in the same order. -/
theorem eagerDependencies_eq_of_eagerEdges_eq {url : Url}
    (hsame : ∀ v, ReflTransGen g.ImportsEagerly url v → g'.eagerEdges v = g.eagerEdges v) :
    g'.eagerDependencies url = g.eagerDependencies url := by
  have hurl := hsame url .refl
  have hfuel' := g'.length_eagerEdges_add_unseenEdges_le url
  unfold eagerDependencies
  rw [hurl] at hfuel' ⊢
  refine reach_eq_of_eagerEdges_eq _ (g.length_eagerEdges_add_unseenEdges_le url) hfuel' ?_
  intro u hu v hv
  have hedge : g.ImportsEagerly url u := List.mem_reverse.1 hu
  exact hsame v (.head hedge hv)

/-- Two graphs record the same of a module. -/
structure AgreeOn (g g' : Graph) (url : Url) : Prop where
  /-- It imports the same modules, in the same order. -/
  dependencies : g.dependencies url = g'.dependencies url
  /-- It imports the same ones by `import()` alone. -/
  lazyDependencies : g.lazyDependencies url = g'.lazyDependencies url

/-- A module of which two graphs record the same has the same eager edges. -/
theorem AgreeOn.eagerEdges_eq {url : Url} (h : g.AgreeOn g' url) :
    g'.eagerEdges url = g.eagerEdges url := by
  rw [Graph.eagerEdges_eq, Graph.eagerEdges_eq, h.dependencies, h.lazyDependencies]

end Graph

namespace Loader

variable {ω : Type} {server : Server ω} {l : Loader} {s : Session} {g g' : Graph} {m u : Url}

/-! ## Graphs that were described -/

/-- Two graphs differ in a module that a discovery missed: it imports nothing in one of them, and
something in the other. -/
structure DifferIn (s : Session) (g g' : Graph) (m : Url) : Prop where
  /-- A discovery could not have the source of the module. -/
  missed : s.Missed m
  /-- The module is a leaf of one of the graphs only. -/
  leaf : g.dependencies m = [] ∧ g'.dependencies m ≠ [] ∨
    g.dependencies m ≠ [] ∧ g'.dependencies m = []

/-- Graphs that have the same imports for a module agree on it. -/
theorem Records.agreeOn {imports : List (Url × Bool)} (h : l.Records s g m imports)
    (h' : l.Records s g' m imports) : g.AgreeOn g' m where
  dependencies := by rw [h.dependencies, h'.dependencies]
  lazyDependencies := by rw [h.lazyDependencies, h'.lazyDependencies]

/-- Without imports there is nothing to record. -/
theorem Records.dependencies_eq_nil (h : l.Records s g m []) : g.dependencies m = [] := by
  rw [h.dependencies]
  rfl

/-- A graph that has some imports of a module and one that has none agree on it if they come to
nothing; otherwise the module is a leaf of the second graph only. -/
theorem Records.agreeOn_or_ne_nil {imports : List (Url × Bool)} (h : l.Records s g m imports)
    (h' : l.Records s g' m []) :
    g.AgreeOn g' m ∨ g.dependencies m ≠ [] ∧ g'.dependencies m = [] := by
  have hnil' := h'.dependencies_eq_nil
  by_cases hnil : g.dependencies m = []
  · have hlocal : l.localDependencies s.cache imports = [] := by
      rw [h.dependencies] at hnil
      exact List.map_eq_nil_iff.1 hnil
    refine .inl ⟨hnil.trans hnil'.symm, ?_⟩
    rw [h.lazyDependencies, h'.lazyDependencies, hlocal]
    rfl
  · exact .inr ⟨hnil, hnil'⟩

/-- Two graphs that have what was scanned agree on a module that they share, or they differ in
it. -/
theorem Describes.agreeOn_or_differIn {e e' : Url} (h : l.Describes s e g)
    (h' : l.Describes s e' g') (hm : m ∈ g.urls) (hm' : m ∈ g'.urls) :
    g.AgreeOn g' m ∨ DifferIn s g g' m := by
  obtain ⟨imports, hscan, hrec⟩ := h.recorded m hm
  obtain ⟨imports', hscan', hrec'⟩ := h'.recorded m hm'
  rcases hscan with ⟨source, hsource, rfl⟩ | ⟨rfl, hmissed⟩
  · rcases hscan' with ⟨source', hsource', rfl⟩ | ⟨rfl, hmissed⟩
    -- the source is remembered once
    · obtain rfl := Option.some.inj (hsource.symm.trans hsource')
      exact .inl (hrec.agreeOn hrec')
    · exact (hrec.agreeOn_or_ne_nil hrec').imp_right fun hleaf => ⟨hmissed, .inr hleaf⟩
  · rcases hrec'.agreeOn_or_ne_nil hrec with hagree | hleaf
    · exact .inl ⟨hagree.dependencies.symm, hagree.lazyDependencies.symm⟩
    · exact .inr ⟨hmissed, .inl hleaf.symm⟩

/-- Two graphs that agree on all that a shared module leads to eagerly have the same eager
dependencies for it; otherwise they differ in something that it leads to. -/
theorem Describes.eagerDependencies_eq_or_differIn {e e' : Url} (h : l.Describes s e g)
    (h' : l.Describes s e' g') (hu : u ∈ g.urls) (hu' : u ∈ g'.urls) :
    g'.eagerDependencies u = g.eagerDependencies u ∨
      ∃ v, ReflTransGen g.ImportsEagerly u v ∧ v ∈ g'.urls ∧ DifferIn s g g' v := by
  by_cases hdiffer : ∃ v, ReflTransGen g.ImportsEagerly u v ∧ v ∈ g'.urls ∧ DifferIn s g g' v
  · exact .inr hdiffer
  refine .inl (Graph.eagerDependencies_eq_of_eagerEdges_eq fun v hv => ?_)
  -- both graphs have the modules on the way, as they agree on those before
  have hagree : ∀ v, v ∈ g.urls → v ∈ g'.urls → ReflTransGen g.ImportsEagerly u v →
      g'.eagerEdges v = g.eagerEdges v := fun v hv hv' hreach =>
    ((h.agreeOn_or_differIn h' hv hv').resolve_right
      fun hd => hdiffer ⟨v, hreach, hv', hd⟩).eagerEdges_eq
  have hmem : v ∈ g.urls ∧ v ∈ g'.urls := by
    induction hv with
    | refl => exact ⟨hu, hu'⟩
    | @tail v t hv hedge ih =>
      have hedge' : t ∈ g'.eagerEdges v := by
        rw [hagree v ih.1 ih.2 hv]
        exact hedge
      rw [Graph.ImportsEagerly, Graph.eagerEdges_eq] at hedge
      rw [Graph.eagerEdges_eq] at hedge'
      exact ⟨h.wellFormed.closed v t (List.mem_filter.1 hedge).1,
        h'.wellFormed.closed v t (List.mem_filter.1 hedge').1⟩
  exact hagree v hmem.1 hmem.2 hv

/-! ## Imports that go by one graph or another -/

/-- Imports a module that has been compiled, and goes by a given graph for what is evaluated along
with it. -/
def importBy (graph : Option Graph) (url : Url) : StateM Session (Except Failure Module) := do
  let c := (← get).cache
  match c.modules.get? url with
  | some m => return .ok m
  | none =>
    match c.compiled.get? url with
    | none => return .error (.importing url "module has not been compiled")
    | some a => Session.importEager url graph a

/-- A compiled module is imported by a graph that contains it. -/
theorem importCompiled_eq_importBy (url : Url) (s : Session) :
    importCompiled url s = importBy (s.cache.graphContaining? url) url s := rfl

/-- An import goes by the eager dependencies of the module only. -/
theorem importEager_eq_of_eagerDependencies_eq {url : Url} (a : Artifact)
    (h : g'.eagerDependencies url = g.eagerDependencies url) :
    Session.importEager url (some g') a = Session.importEager url (some g) a := by
  unfold Session.importEager
  simp only [Option.elim_some, h]

/-- So does the import of a module that has been compiled. -/
theorem importBy_eq_of_eagerDependencies_eq {url : Url}
    (h : g'.eagerDependencies url = g.eagerDependencies url) :
    importBy (some g') url = importBy (some g) url := by
  unfold importBy
  simp only [importEager_eq_of_eagerDependencies_eq _ h]

/-! ## All graphs that are remembered -/

/-- Every graph that is remembered has what was scanned. -/
def AllDescribed (l : Loader) (s : Session) : Prop :=
  ∀ e ∈ s.cache.graphs.entries, l.Describes s e.1 e.2

/-- Graphs have what was scanned as long as none is new. -/
theorem AllDescribed.of_sameGraphs {s' : Session} (h : l.AllDescribed s) (hg : s.Grows s')
    (hgraphs : s'.cache.graphs = s.cache.graphs) : l.AllDescribed s' := by
  unfold AllDescribed
  rw [hgraphs]
  exact fun e he => (h e he).of_grows hg

/-- Graphs have what was scanned after every act. -/
theorem AllDescribed.of_acts {possible : Url → Answer → Prop}
    {drawn : Session → Url → Graph → Prop} {free : Prop} {s' : Session} (h : l.AllDescribed s)
    (ha : l.Acts possible drawn free s s') : l.AllDescribed s' := by
  cases ha with
  | learns hl => exact h.of_sameGraphs hl.toGrows hl.sameGraphs
  | draws entry g hd hg heq =>
    subst heq
    have hgrows := (prepares_insertGraph hd).toGrows
    intro e he
    rcases Memo.mem_entries_insert he with hold | rfl
    · exact (h e hold).of_grows hgrows
    · exact hd.of_grows hgrows
  | registers m hnew hturn hreg =>
    obtain ⟨a, hc, -⟩ := hreg.registers.compiles
    exact h.of_sameGraphs hc.grows hc.sameGraphs
  | imports url a ha heq =>
    subst heq
    have hi := Session.imports_importEager url (s.cache.graphContaining? url) a s
    exact h.of_sameGraphs hi.toGrows hi.sameGraphs
  | clears heq =>
    subst heq
    exact fun _ h => nomatch h

/-- Graphs have what was scanned wherever calls lead. -/
theorem allDescribed_of_reached {kind : Call → Prop} {w : World Session ω}
    (hw : l.Reached server kind w) : l.AllDescribed w.state :=
  inv_of_reached (fun _ _ _ => True) True server.says_something (fun _ h => nomatch h)
    (fun w _ _ => mayDiscover_true server w) (fun _ _ _ h ha => h.of_acts ha)
    (fun _ _ => trivial) hw

/-- Whatever calls have led to, two graphs that are remembered record the same dependencies, in the
same order, and the same lazy ones of a module that both contain, unless a discovery missed the
module and it is a leaf of one of them only. An import of the module comes to the same and leaves
the same behind whichever of them it goes by, unless they differ so in something that the module
leads to eagerly; and it does go by one that contains the module. -/
theorem graphs_agree_of_reached {kind : Call → Prop} {w : World Session ω}
    (hw : l.Reached server kind w) {e e' : Url × Graph} (he : e ∈ w.state.cache.graphs.entries)
    (he' : e' ∈ w.state.cache.graphs.entries) {u : Url} (hu : u ∈ e.2.urls) (hu' : u ∈ e'.2.urls) :
    (e.2.AgreeOn e'.2 u ∨ DifferIn w.state e.2 e'.2 u) ∧
      (importBy (some e'.2) u w.state = importBy (some e.2) u w.state ∨
        ∃ v, ReflTransGen e.2.ImportsEagerly u v ∧ v ∈ e'.2.urls ∧
          DifferIn w.state e.2 e'.2 v) ∧
      ∃ e'' ∈ w.state.cache.graphs.entries, u ∈ e''.2.urls ∧
        importCompiled u w.state = importBy (some e''.2) u w.state := by
  have hall := allDescribed_of_reached hw
  have hd := hall e he
  have hd' := hall e' he'
  refine ⟨hd.agreeOn_or_differIn hd' hu hu', ?_, ?_⟩
  · refine (hd.eagerDependencies_eq_or_differIn hd' hu hu').imp_left fun heager => ?_
    rw [importBy_eq_of_eagerDependencies_eq heager]
  · obtain ⟨e'', he'', hu'', hcontaining⟩ :=
      exists_graphContaining?_of_mem (fun e he => (hall e he).entry_mem) he hu
    refine ⟨e'', he'', hu'', ?_⟩
    rw [importCompiled_eq_importBy, hcontaining]

/-- After a load of a module, the graph of a module that it imports is built: both contain the
latter, and its import goes the same way by both. -/
theorem graphs_agree_of_reached_importing :
    ∃ (w : World Session Unit) (g g' : Graph),
      default.Reached (Server.ofModules importing) (fun _ => True) w ∧
      (fileUrl "main.js", g) ∈ w.state.cache.graphs.entries ∧
      (fileUrl "util.js", g') ∈ w.state.cache.graphs.entries ∧
      fileUrl "util.js" ∈ g.urls ∧ fileUrl "util.js" ∈ g'.urls ∧
      (g.AgreeOn g' (fileUrl "util.js") ∨ DifferIn w.state g g' (fileUrl "util.js")) := by
  have hends : ((default.performAll [.loadModule 3 (fileUrl "main.js"),
      .buildGraph 3 (fileUrl "util.js")]).run (Server.ofModules importing)
      (default.start ())).1 = some () := by
    decide +kernel
  have hgraphs : ((default.performAll [.loadModule 3 (fileUrl "main.js"),
      .buildGraph 3 (fileUrl "util.js")]).run (Server.ofModules importing)
      (default.start ())).2.state.cache.graphs.entries.map (fun e => (e.1, e.2.urls)) =
        [(fileUrl "main.js", [fileUrl "main.js", fileUrl "util.js"]),
          (fileUrl "util.js", [fileUrl "util.js"])] := by
    decide +kernel
  have hreached : default.Reached (Server.ofModules importing) (fun _ => True) _ :=
    Reached.performAll (.start ()) (fun _ _ => trivial) (Op.steps_of_fst_run hends)
  obtain ⟨⟨_, g⟩, hg, heq⟩ := List.mem_map.1 (hgraphs ▸ List.mem_cons_self)
  obtain ⟨⟨_, g'⟩, hg', heq'⟩ :=
    List.mem_map.1 (hgraphs ▸ List.mem_cons_of_mem _ List.mem_cons_self)
  obtain ⟨rfl, hurls⟩ := Prod.mk.inj heq
  obtain ⟨rfl, hurls'⟩ := Prod.mk.inj heq'
  have hutil : fileUrl "util.js" ∈ g.urls := by simp [hurls]
  have hutil' : fileUrl "util.js" ∈ g'.urls := by simp [hurls']
  exact ⟨_, g, g', hreached, hg, hg', hutil, hutil',
    (graphs_agree_of_reached hreached hg hg' hutil hutil').1⟩

/-! ## Graphs that differ -/

/-- A server that has no answer to the first request, and some modules from then on. -/
def wakingServer (modules : List (String × String)) : Server Bool := fun q awake =>
  (if awake then answerOf modules q.url else .response ⟨404, none, ""⟩, true)

/-- A module that imports a second, which imports one that there is not. -/
def chained : List (String × String) :=
  [("other.js", "import \"./main.js\";\n"), ("main.js", "import \"./util.js\";\n")]

-- irreducible, lest the calls are run wherever two worlds are compared
/-- What comes of building the graph of the second module before there is an answer, and loading the
first. -/
@[irreducible]
def loadChained : Option Unit × World Session Bool :=
  (default.performAll [.buildGraph 3 (fileUrl "main.js"), .loadModule 4 (fileUrl "other.js")]).run
    (wakingServer chained) (default.start false)

/-- The graph of the second module is built before there is an answer, and the first is loaded: both
graphs have the second module, which is a leaf of its own and imports the third in that of the
first. Its import fails by one of them and not by the other. -/
theorem importBy_ne_of_miss :
    ∃ (w : World Session Bool) (g g' : Graph),
      default.Reached (wakingServer chained) (·.isLoading = true) w ∧
      (fileUrl "main.js", g) ∈ w.state.cache.graphs.entries ∧
      (fileUrl "other.js", g') ∈ w.state.cache.graphs.entries ∧
      fileUrl "main.js" ∈ g.urls ∧ fileUrl "main.js" ∈ g'.urls ∧
      g.dependencies (fileUrl "main.js") = [] ∧
      g'.dependencies (fileUrl "main.js") = [fileUrl "util.js"] ∧
      (importBy (some g) (fileUrl "main.js") w.state).1.isOk = true ∧
      (importBy (some g') (fileUrl "main.js") w.state).1.isOk = false := by
  obtain ⟨hends, hown, hother⟩ :
      loadChained.1 = some () ∧
      (∃ e ∈ loadChained.2.state.cache.graphs.entries,
        e.1 = fileUrl "main.js" ∧ fileUrl "main.js" ∈ e.2.urls ∧
        e.2.dependencies (fileUrl "main.js") = [] ∧
        (importBy (some e.2) (fileUrl "main.js") loadChained.2.state).1.isOk = true) ∧
      ∃ e ∈ loadChained.2.state.cache.graphs.entries,
        e.1 = fileUrl "other.js" ∧ fileUrl "main.js" ∈ e.2.urls ∧
        e.2.dependencies (fileUrl "main.js") = [fileUrl "util.js"] ∧
        (importBy (some e.2) (fileUrl "main.js") loadChained.2.state).1.isOk = false := by
    decide +kernel
  have hreached : default.Reached (wakingServer chained) (·.isLoading = true) loadChained.2 := by
    unfold loadChained at hends ⊢
    exact Reached.performAll (.start false) (by decide) (Op.steps_of_fst_run hends)
  obtain ⟨⟨_, g⟩, hg, rfl, hmem, hdeps, hok⟩ := hown
  obtain ⟨⟨_, g'⟩, hg', rfl, hmem', hdeps', hfails⟩ := hother
  exact ⟨_, g, g', hreached, hg, hg', hmem, hmem', hdeps, hdeps', hok, hfails⟩

end Loader

end ModuleLoader
