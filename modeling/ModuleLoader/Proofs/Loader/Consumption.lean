import ModuleLoader.Proofs.Loader.Agreement

/-! # Importing what has been compiled is loading it

With a server that always answers a URL the same way, a compiled module comes to the same whether it
is imported as it is, by any graph that has it, or loaded. The graph of a load lists what the module
leads to, and every other graph that has the module records the same of all that; all of it has been
compiled, so the load finds no circle and compiles nothing.

* **`Loader.IsClosure.eagerDependencies_eq`** says that two closures agree on what they share.
* **`Loader.Consistent.steps_finish`** says what a load of a compiled module does with its graph.
* **`Loader.loadModule_eq_importCompiled`** compares loading and importing. -/

namespace ModuleLoader.Loader

open Relation

variable {ω : Type} {server : Server ω} {f : Url → Answer} {l : Loader}
variable {s s' : Session} {m url e e' : Url} {g g' : Graph}

/-! ## Closures agree -/

namespace IsClosure

/-- A module has the same eager edges in every closure that has it. -/
theorem eagerEdges_eq (h : l.IsClosure f e g) (h' : l.IsClosure f e' g') (hm : m ∈ g.urls)
    (hm' : m ∈ g'.urls) : g'.eagerEdges m = g.eagerEdges m := by
  have hdeps : g'.dependencies m = g.dependencies m := by
    rw [h.dependencies m hm, h'.dependencies m hm']
  have hlazy : ∀ t, t ∈ g'.lazyDependencies m ↔ t ∈ g.lazyDependencies m := by
    intro t
    rw [h.lazyDependencies m hm, h'.lazyDependencies m hm', hdeps]
  rw [Graph.eagerEdges_eq, Graph.eagerEdges_eq, hdeps]
  exact List.filter_congr fun t _ => decide_eq_decide.2 (not_congr (hlazy t))

/-- What is evaluated along with a module, and in which order that is gone through, is the same in
every closure that has the module. -/
theorem eagerDependencies_eq (h : l.IsClosure f e g) (h' : l.IsClosure f e' g') (hm : m ∈ g.urls)
    (hm' : m ∈ g'.urls) : g'.eagerDependencies m = g.eagerDependencies m := by
  refine Graph.eagerDependencies_eq_of_eagerEdges_eq fun v hv => ?_
  have hleads : ReflTransGen (l.LeadsTo f) m v :=
    ReflTransGen.mono (fun _ _ => LeadsEagerly.leadsTo) _ _
      ((h.reflTransGen_importsEagerly_iff hm).1 hv)
  exact h.eagerEdges_eq h' ((h.mem_urls v).2 (((h.mem_urls m).1 hm).trans hleads))
    ((h'.mem_urls v).2 (((h'.mem_urls m).1 hm').trans hleads))

end IsClosure

/-! ## Loads of compiled modules -/

/-- Where all modules of an order have been compiled, compiling them changes nothing. -/
theorem afterCompiling_eq_self (l : Loader) (server : Server ω) {order : List Url}
    {w : World Session ω} (h : ∀ m ∈ order, w.state.cache.isCompiled m = true) :
    l.afterCompiling server order w = w := by
  induction order with
  | nil => rfl
  | cons m order ih =>
    rw [List.forall_mem_cons] at h
    have hturn : ((l.compileModule m).run server w).2 = w := by
      rw [compileModule, Task.run_look, if_pos h.1]
      rfl
    rw [afterCompiling_cons, hturn]
    exact ih h.2

/-- A load that has the graph of a compiled module finds no circle in it and compiles nothing: all
that it does is to import the module. -/
theorem Consistent.steps_finish {w w' : World Session ω} {r : Except Failure Module}
    (h : l.Consistent f w.state) (hurl : w.state.cache.isCompiled url = true)
    (hg : Discovery.IsGraphOf (l.dependenciesAt f) url g)
    (hsteps : Op.Steps server (l.finish url g, w) (.done r, w')) :
    r = (importEntry url g w.state).1 ∧ w'.state = (importEntry url g w.state).2 := by
  have hclosure := isClosure_of_isGraphOf hg
  have hwell := (hg.recorded (l.nodup_dependenciesAt f)).wellFormed
  have hcompiled : ∀ m ∈ g.urls, w.state.cache.isCompiled m = true :=
    fun m hm => h.isCompiled_of_reach hurl ((hclosure.mem_urls m).1 hm)
  obtain ⟨order, hsort⟩ :=
    (Graph.exists_topologicalSort_iff hwell).2 (h.acyclic hclosure hwell hcompiled)
  obtain ⟨-, hmem⟩ := Graph.sorted_of_topologicalSort hwell hsort
  have hsame : l.afterCompiling server order w = w :=
    afterCompiling_eq_self l server fun m hm => hcompiled m ((hmem m).1 hm)
  obtain ⟨rfl, rfl⟩ := (steps_finish_iff hsort).1 hsteps
  rw [hsame]
  exact ⟨rfl, rfl⟩

/-- An import of a compiled module that has not been imported goes by the graph. -/
theorem importBy_of_compiled {a : Artifact} {graph : Option Graph}
    (hmodule : s.cache.modules.get? url = none) (ha : s.cache.compiled.get? url = some a) :
    importBy graph url s = Session.importEager url graph a s := by
  rw [importBy, Session.look_bind]
  simp only [hmodule, ha]

/-- An import of a module that has been imported gives it back. -/
theorem importBy_of_imported {x : Module} (graph : Option Graph)
    (hmodule : s.cache.modules.get? url = some x) : importBy graph url s = (.ok x, s) := by
  rw [importBy, Session.look_bind]
  simp only [hmodule]
  rfl

/-- A compiled module is imported in the same way by every graph that has it. -/
theorem Consistent.importBy_eq_importCompiled (h : l.Consistent f s)
    (hurl : s.cache.isCompiled url = true) (hg : l.IsClosure f e g) (hmem : url ∈ g.urls) :
    importBy (some g) url s = importCompiled url s := by
  obtain ⟨e', g', hcontaining, hclosure, hmem'⟩ := h.exists_graphContaining? hurl
  rw [importCompiled_eq_importBy, hcontaining]
  rw [importBy_eq_of_eagerDependencies_eq (hclosure.eagerDependencies_eq hg hmem' hmem)]

/-- What a load of a compiled module comes to is what importing it does, and nothing is compiled. -/
theorem Consistent.eq_importCompiled_of_steps (hf : server.AnswersBy f) {limit : Nat}
    {w w' : World Session ω} {r : Except Failure Module} (hs : l.Sound w.state)
    (h : l.Consistent f w.state) (hurl : w.state.cache.isCompiled url = true)
    (hsteps : Op.Steps server (l.loadModule limit url, w) (.done r, w')) :
    r = (importCompiled url w.state).1 ∧ w'.state.cache.compiled = w.state.cache.compiled ∧
      w'.state.compilations = w.state.compilations := by
  cases hmodule : w.state.cache.modules.get? url with
  | some x =>
    obtain ⟨rfl, rfl⟩ := eq_of_steps_loadModule hmodule hsteps
    rw [importCompiled_eq_importBy, importBy_of_imported _ hmodule]
    exact ⟨rfl, rfl, rfl⟩
  | none =>
    obtain ⟨g, w₁, hbuild, hfinish⟩ := (steps_loadModule_iff hmodule).1 hsteps
    obtain ⟨-, hgraph, -⟩ :=
      (keeps_attempt_buildGraph hf h.toFaithful limit url).of_attempt.steps hbuild
    have hprepares := prepares_of_preparing ((keeps_buildGraph l limit url w).steps hbuild).1
    -- what is remembered after the graph has been built is as it should be, too
    have hkeeps : (l.buildGraph limit url).Keeps server
        (l.acting (fun u a => a = f u) (l.IsDrawn f) False) _ w :=
      acts_buildGraph (h.toFaithful.mayDiscover hf) limit fun _ => hs.wellFormed
    obtain ⟨-, h₁⟩ :=
      inv_of_acting (fun _ _ _ h ha => h.of_acts ha) (hkeeps.steps hbuild).1 hs h
    have hurl₁ : w₁.state.cache.isCompiled url = true := hprepares.isCompiled hurl
    obtain ⟨rfl, hw'⟩ := h₁.steps_finish hurl₁ hgraph hfinish
    have himports := imports_importEntry url g w₁.state
    have hclosure := isClosure_of_isGraphOf hgraph
    obtain ⟨a, ha⟩ := Option.isSome_iff_exists.1 hurl
    refine ⟨?_, ?_, ?_⟩
    · calc (importEntry url g w₁.state).1 = (importEntry url g w.state).1 :=
            importEntry_congr hprepares.sameBlobs hprepares.sameSerial hprepares.sameModules
              fun m _ => by rw [hprepares.sameCompiled]
        _ = (importBy (some g) url w.state).1 := by
            rw [importEntry_of_compiled ha, importBy_of_compiled hmodule ha]
        _ = (importCompiled url w.state).1 := by
            rw [h.importBy_eq_importCompiled hurl hclosure ((hclosure.mem_urls url).2 .refl)]
    · rw [hw', himports.sameCompiled, hprepares.sameCompiled]
    · rw [hw', himports.sameCompilations, hprepares.sameCompilations]

/-- With a server that always answers a URL the same way, whatever loads, discoveries, fetches and
imports have led to, a load of a compiled module comes to an end, in whatever order its answers
come, and to nothing else than importing the module does: to the same module object, or to the same
failure. It compiles nothing, and by which graph the module is imported makes no difference. -/
theorem loadModule_eq_importCompiled (hf : server.AnswersBy f) {w : World Session ω}
    (hw : l.Reached server (keepsOrder ·) w) (hurl : w.state.cache.isCompiled url = true) :
    (∃ n, ∀ limit, n ≤ limit → Op.Terminates server (l.loadModule limit url, w)) ∧
      (∀ limit r w', Op.Steps server (l.loadModule limit url, w) (.done r, w') →
        r = (importCompiled url w.state).1 ∧ w'.state.cache.compiled = w.state.cache.compiled ∧
          w'.state.compilations = w.state.compilations) ∧
      ∀ e ∈ w.state.cache.graphs.entries, url ∈ e.2.urls →
        importBy (some e.2) url w.state = importCompiled url w.state := by
  have h : l.Consistent f w.state := consistent_of_reached hf (fun _ h => nomatch h) hw
  refine ⟨?_, fun limit r w' hsteps => ?_, fun e he hmem => ?_⟩
  -- the graph that a load builds is a part of one that is remembered
  · obtain ⟨g, n, hpending, -⟩ := h.exists_isGraphOf hurl
    refine ⟨n, fun limit hlimit => terminates_loadModule hf h.toFaithful ?_⟩
    rw [Discovery.rounds_eq_of_le hpending hlimit]
    exact hpending
  · exact h.eq_importCompiled_of_steps hf (sound_of_reached hw) hurl hsteps
  · exact h.importBy_eq_importCompiled hurl (isClosure_of_isGraphOf (h.graphs e he).isGraphOf) hmem

/-- When a module has been loaded that imports another, a load of the latter, which has been
compiled and not imported, comes to what importing it does. -/
theorem loadModule_eq_importCompiled_linked :
    ∃ w : World Session Unit,
      byLines.Reached (Server.ofModules linked) (keepsOrder ·) w ∧
      w.state.cache.isCompiled (fileUrl "util.js") = true ∧
      w.state.cache.modules.get? (fileUrl "util.js") = none ∧
      (importCompiled (fileUrl "util.js") w.state).1.isOk = true ∧
      ∀ limit r w', Op.Steps (Server.ofModules linked)
        (byLines.loadModule limit (fileUrl "util.js"), w) (.done r, w') →
          r = (importCompiled (fileUrl "util.js") w.state).1 := by
  have hends : ((byLines.performAll [.loadModule 3 (fileUrl "main.js")]).run
      (Server.ofModules linked) (byLines.start ())).1 = some () := by
    decide +kernel
  have hreached : byLines.Reached (Server.ofModules linked) (keepsOrder ·) _ :=
    Reached.performAll (.start ()) (by decide) (Op.steps_of_fst_run hends)
  have hcompiled : ((byLines.performAll [.loadModule 3 (fileUrl "main.js")]).run
      (Server.ofModules linked) (byLines.start ())).2.state.cache.isCompiled
        (fileUrl "util.js") = true := by
    decide +kernel
  have hmodule : ((byLines.performAll [.loadModule 3 (fileUrl "main.js")]).run
      (Server.ofModules linked) (byLines.start ())).2.state.cache.modules.get?
        (fileUrl "util.js") = none := by
    decide +kernel
  have hok : (importCompiled (fileUrl "util.js")
      ((byLines.performAll [.loadModule 3 (fileUrl "main.js")]).run
        (Server.ofModules linked) (byLines.start ())).2.state).1.isOk = true := by
    decide +kernel
  obtain ⟨-, hsame, -⟩ :=
    loadModule_eq_importCompiled (answersBy_ofModules linked) hreached hcompiled
  exact ⟨_, hreached, hcompiled, hmodule, hok, fun limit r w' h => (hsame limit r w' h).1⟩

end ModuleLoader.Loader
