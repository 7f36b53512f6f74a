import ModuleLoader.Proofs.Loader.Faithful
import ModuleLoader.Proofs.Loader.Requests

/-! # The graph of an entry is all that it leads to

With a server that always answers a URL the same way and has only finitely many modules, a graph is
built whatever has been called before, and it is the same graph each time: it lists what the entry
leads to and nothing else, and has what each of these modules imports.

* **`Loader.IsClosure`** is the graph of all that an entry leads to.
* **`Loader.keeps_attempt_buildGraph`** says what building a graph comes to if there may be so many
  waves only.
* **`Loader.isClosure_of_buildGraph`** says that there are enough of them. -/

namespace ModuleLoader.Loader

open Relation

variable {ω : Type} {server : Server ω} {f : Url → Answer} {l : Loader} {entry : Url} {g : Graph}

/-- The graph is that of all that an entry leads to. -/
structure IsClosure (l : Loader) (f : Url → Answer) (entry : Url) (g : Graph) : Prop where
  /-- No module is listed twice. -/
  nodup : g.urls.Nodup
  /-- What the entry leads to is listed, and nothing else. -/
  mem_urls : ∀ m, m ∈ g.urls ↔ ReflTransGen (l.LeadsTo f) entry m
  /-- A module imports the modules that it leads to, in the order of their first imports. -/
  dependencies : ∀ m ∈ g.urls, g.dependencies m = l.targetsAt f m
  /-- It imports one of them by `import()` alone if all references that lead there are so. -/
  lazyDependencies : ∀ m ∈ g.urls, ∀ t, t ∈ g.lazyDependencies m ↔
    t ∈ g.dependencies m ∧ ∀ r u, l.Names f m r u → l.targetOf f u = t → r.isDynamic = true

/-- The graph of a discovery that has come to its end is that of all that the entry leads to. -/
theorem isClosure_of_isGraphOf (h : Discovery.IsGraphOf (l.dependenciesAt f) entry g) :
    l.IsClosure f entry g := by
  have hrecorded := h.recorded (l.nodup_dependenciesAt f)
  refine ⟨hrecorded.wellFormed.nodup, fun m => ?_, fun m hm => ?_, fun m hm t => ?_⟩
  · rw [h.mem_urls_iff, leadsTo_dependenciesAt]
  · rw [hrecorded.dependencies m hm, map_fst_dependenciesAt]
  · rw [hrecorded.lazyDependencies m hm, mem_lazy_dependenciesAt_iff,
      hrecorded.dependencies m hm, map_fst_dependenciesAt]

/-! ## Building the graph -/

/-- What has been asked for meanwhile may be asked for. -/
def asking (may : Request → Prop) (w w' : World Session ω) : Prop :=
  ∃ qs, w'.requests = w.requests ++ qs ∧ ∀ q ∈ qs, may q

/-- What has been asked for in some steps may be asked for. -/
theorem asking_of_steps {may : Request → Prop} {w w' : World Session ω}
    (h : ReflTransGen (asking may) w w') : asking may w w' := by
  induction h with
  | refl => exact ⟨[], (List.append_nil _).symm, fun _ h => nomatch h⟩
  | tail _ h ih =>
    obtain ⟨qs, hqs, hmay⟩ := ih
    obtain ⟨qs', hqs', hmay'⟩ := h
    refine ⟨qs ++ qs', by rw [hqs', hqs, List.append_assoc], fun q hq => ?_⟩
    exact (List.mem_append.1 hq).elim (hmay q) (hmay' q)

/-- What building a graph comes to: the graph of a discovery that has come to its end, with each of
its modules scanned once unless the graph was remembered; or nothing, if there are not waves
enough. -/
def Builds (l : Loader) (f : Url → Answer) (entry : Url) (limit : Nat) (start : Session) :
    Option Graph → World Session ω → Prop
  | some g, w => Discovery.IsGraphOf (l.dependenciesAt f) entry g ∧ ∀ m, scans w.state m =
      scans start m + if start.cache.graphs.get? entry = none ∧ m ∈ g.urls then 1 else 0
  | none, _ => (Discovery.rounds (l.dependenciesAt f) entry limit).pending ≠ []

/-- Building a graph asks for nothing but what the entry leads to, and comes to what it should. -/
theorem keeps_attempt_buildGraph (hf : server.AnswersBy f) {w : World Session ω}
    (h : l.Faithful f w.state) (limit : Nat) (entry : Url) :
    (l.buildGraph limit entry).attempt.Keeps server (asking (l.AskedFrom f entry))
      (l.Builds f entry limit w.state) w := by
  have hnone : ∀ s : Session, asking (l.AskedFrom f entry) w { w with state := s } :=
    fun s => ⟨[], (List.append_nil _).symm, List.forall_mem_nil _⟩
  unfold buildGraph
  rw [Op.attempt_act_bind]
  refine Op.keeps_look (hnone w.state) ?_
  cases hgraph : w.state.cache.graphs.get? entry with
  | some g =>
    dsimp only
    rw [Op.attempt_act_bind]
    refine Op.keeps_bind (Op.keeps_act (hnone _) ⟨(h.isDrawn_of_get? hgraph).isGraphOf, fun m => ?_⟩)
    rw [if_neg (by simp [hgraph])]
    exact scans_report (e := .graphHit entry) trivial w.state m
  | none =>
    dsimp only
    rw [Op.attempt_bind]
    refine Op.keeps_bind (((inRounds_discover hf h limit entry).mono
      fun _ _ h => h.requests).imp ?_)
    rintro (_ | ⟨graph, waves⟩) w₁ hw₁
    · obtain ⟨d, ⟨-, ⟨n, rfl, rfl⟩, -, -⟩, hpending⟩ := hw₁
      exact hpending
    · obtain ⟨-, k, d, hrounds, hpending, rfl⟩ := hw₁
      have hgraphOf := (hrounds.isDrawn hpending).isGraphOf
      obtain ⟨hfaithful, ⟨n, -, hd⟩, -, hscans⟩ := hrounds
      have hasked : ∀ s : Session, asking (l.AskedFrom f entry) w₁ { w₁ with state := s } :=
        fun s => ⟨[], (List.append_nil _).symm, List.forall_mem_nil _⟩
      refine Op.keeps_bind (Op.keeps_act (hasked _) ?_)
      change Op.Keeps server _ _ (Op.act (Session.remember fun c => c.insertGraph entry d.graph) >>=
        fun g => Op.done (some g)) _
      -- if there is a graph now, it is the same
      refine Op.keeps_bind (Op.keeps_act (hasked _) ?_)
      have hsame : ((w₁.state.cache.graphs.insert entry d.graph).get? entry).getD d.graph =
          d.graph := by
        rw [Memo.get?_insert_self, Option.getD_some]
        cases hold : w₁.state.cache.graphs.get? entry with
        | none => rfl
        | some g => exact (hfaithful.isDrawn_of_get? hold).isGraphOf.eq hgraphOf
      change l.Builds f entry limit w.state
        (some (((w₁.state.cache.graphs.insert entry d.graph).get? entry).getD d.graph)) _
      rw [hsame]
      refine ⟨hgraphOf, fun m => ?_⟩
      have hcount : d.processed.count m = if m ∈ d.graph.urls then 1 else 0 := by
        subst hd
        rw [(List.nodup_append.1 (Discovery.searched_rounds _ entry n).nodup).1.count]
        exact if_congr (Discovery.mem_urls_rounds_iff hpending).symm rfl rfl
      rw [if_congr (and_iff_right hgraph) rfl rfl, ← hcount, ← hscans m]
      exact scans_report (e := .graphBuilt entry d.graph.size waves) trivial w₁.state m

/-! ## The graph of an entry -/

/-- Only modules lead anywhere. -/
theorem isModuleAt_of_leadsTo {m t : Url} (h : Discovery.LeadsTo (l.dependenciesAt f) m t) :
    Resolver.isModuleAt f m = true := by
  rw [leadsTo_dependenciesAt] at h
  obtain ⟨r, u, ⟨⟨body, hbody, -⟩, -, -⟩, -⟩ := h
  rw [Resolver.isModuleAt, hbody]
  rfl

/-- With a server that always answers a URL the same way and has a module at finitely many URLs
only, whatever calls have led to, and in whatever order the answers come, building the graph of an
entry ends with the graph of all that the entry leads to. Each of these modules has been scanned
once, unless the graph was remembered, and nothing has been asked for but the sources of these
modules and the candidates for what they name without extension. -/
theorem isClosure_of_buildGraph (hf : server.AnswersBy f) {modules : List Url}
    (hfinite : ∀ u, Resolver.isModuleAt f u = true → u ∈ modules) {kind : Call → Prop}
    {w : World Session ω} (hw : l.Reached server kind w) {limit : Nat}
    (hlimit : modules.length < limit) (entry : Url) :
    Op.Terminates server (l.buildGraph limit entry, w) ∧
      ∀ g w', Op.Steps server (l.buildGraph limit entry, w) (.done g, w') →
        l.IsClosure f entry g ∧
        (∀ m, scans w'.state m = scans w.state m +
          if w.state.cache.graphs.get? entry = none ∧ m ∈ g.urls then 1 else 0) ∧
        ∃ qs, w'.requests = w.requests ++ qs ∧ ∀ q ∈ qs, l.AskedFrom f entry q := by
  have hkeeps := keeps_attempt_buildGraph hf (faithful_of_reached hf hw) limit entry
  have hleads : ∀ m t, ReflTransGen (Discovery.LeadsTo (l.dependenciesAt f)) entry m →
      Discovery.LeadsTo (l.dependenciesAt f) m t → m ∈ modules :=
    fun m t _ h => hfinite m (isModuleAt_of_leadsTo h)
  refine ⟨Op.terminates_of_keeps_attempt hkeeps fun w' h => ?_, fun g w' hsteps => ?_⟩
  · exact h (Discovery.pending_rounds_eq_nil modules hleads hlimit)
  · obtain ⟨hasking, hgraph, hscans⟩ := hkeeps.of_attempt.steps hsteps
    exact ⟨isClosure_of_isGraphOf hgraph, hscans, asking_of_steps hasking⟩

/-- A server of a few modules has no others. -/
theorem exists_mem_of_moduleBody? {modules : List (String × String)} {u : Url} {source : String}
    (h : (answerOf modules u).moduleBody? = some source) :
    ∃ e ∈ modules, fileUrl e.1 = u ∧ e.2 = source := by
  unfold answerOf at h
  cases hfind : modules.find? fun e => fileUrl e.1 = u with
  | none =>
    rw [hfind] at h
    cases h
  | some e =>
    rw [hfind] at h
    refine ⟨e, List.mem_of_find?_eq_some hfind, ?_, ?_⟩
    · simpa using List.find?_some hfind
    · have hbody := (Answer.moduleBody?_eq_some_iff _ u source).1 h
      exact ((Response.source_eq_ok_iff _ u source).1 hbody).2

/-- The modules of a server of a few are at their URLs. -/
theorem mem_of_isModuleAt_answerOf {modules : List (String × String)} {u : Url}
    (h : Resolver.isModuleAt (answerOf modules) u = true) :
    u ∈ modules.map fun e => fileUrl e.1 := by
  obtain ⟨source, hbody⟩ := Option.isSome_iff_exists.1 h
  obtain ⟨e, he, hu, -⟩ := exists_mem_of_moduleBody? hbody
  exact List.mem_map.2 ⟨e, he, hu⟩

/-- Two modules that import each other, one of them without extension; the first imports a bare
specifier, too. -/
def circular : List (String × String) :=
  [("main.js", "import \"./util\";\nimport \"react\";\n"), ("util.js", "import \"./main.js\";\n")]

/-- After a load of the second, the graph of the first is built, and has both. -/
theorem isClosure_of_buildGraph_circular :
    ∃ (w w' : World Session Unit) (g : Graph),
      default.Reached (Server.ofModules circular) (fun _ => True) w ∧
      Op.Terminates (Server.ofModules circular) (default.buildGraph 3 (fileUrl "main.js"), w) ∧
      Op.Steps (Server.ofModules circular) (default.buildGraph 3 (fileUrl "main.js"), w)
        (.done g, w') ∧
      default.IsClosure (answerOf circular) (fileUrl "main.js") g ∧
      g.urls = [fileUrl "main.js", fileUrl "util.js"] := by
  have hfetch : ((default.perform (.loadModule 3 (fileUrl "util.js"))).run
      (Server.ofModules circular) (default.start ())).1 = some () := by
    decide +kernel
  have hreached : default.Reached (Server.ofModules circular) (fun _ => True) _ :=
    .call (.start ()) trivial (Op.steps_of_fst_run hfetch)
  obtain ⟨hterminates, hends⟩ := isClosure_of_buildGraph (answersBy_ofModules circular)
    (fun _ => mem_of_isModuleAt_answerOf) hreached
    (by decide : (circular.map fun e => fileUrl e.1).length < 3) (fileUrl "main.js")
  have hbuild : ((default.buildGraph 3 (fileUrl "main.js")).run (Server.ofModules circular)
      ((default.perform (.loadModule 3 (fileUrl "util.js"))).run
        (Server.ofModules circular) (default.start ())).2).1.map Graph.urls =
      some [fileUrl "main.js", fileUrl "util.js"] := by
    decide +kernel
  obtain ⟨g, hrun, hurls⟩ := Option.map_eq_some_iff.1 hbuild
  have hsteps := Op.steps_of_fst_run hrun
  exact ⟨_, _, g, hreached, hterminates, hsteps, (hends g _ hsteps).1, hurls⟩

end ModuleLoader.Loader
