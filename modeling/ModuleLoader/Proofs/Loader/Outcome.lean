import ModuleLoader.Proofs.Loader.Consistency
import ModuleLoader.Proofs.Loader.Failures

/-! # What a load leaves behind

A load that has come to an end has found a circle and compiled nothing, or it has compiled all
modules of its graph and come to a conclusion about the entry. That is so in whatever order its
answers have come, and of a module, too, that had been imported before.

* **`Loader.Concluded`** is what comes of an entry, **`Loader.Leaves`** what a load leaves behind.
* **`Loader.leaves_of_loadModule`** says that every load leaves that behind, and its graph.
* **`Loader.terminates_loadModule`** says when a load comes to an end. -/

namespace ModuleLoader

open Relation

variable {ω : Type} {server : Server ω} {f : Url → Answer}

/-! ## What comes of an entry -/

/-- The first that has failed of a module and those that are evaluated along with it. -/
def Session.obstacle? (s : Session) (g : Graph) (url : Url) : Option (Url × Artifact) :=
  firstFailed s.cache (url :: g.eagerDependencies url)

/-- A module has been handed on to be run: it has been imported from its blob, or the blob was read
and could not be imported. -/
inductive Session.Executes (s : Session) (url : Url) : Except Failure Module → Prop
  /-- It has been imported from its blob. -/
  | imported (x : Module) (hx : s.cache.modules.get? url = some x)
      (hcode : s.cache.compiled.get? url = some (.ready x.blobUrl)) : Executes s url (.ok x)
  /-- Its blob cannot be imported. -/
  | refused (blobUrl reason : String) (hcode : s.cache.compiled.get? url = some (.ready blobUrl))
      (hread : s.readBlob blobUrl = .error reason) : Executes s url (.error (.importing url reason))

namespace Loader

variable {l : Loader} {s s' : Session} {m t url : Url} {g : Graph}

/-- What comes of an entry: it is handed on to be run if nothing that is evaluated along with it
has failed, and the first failure is what comes of it otherwise. -/
inductive Concluded (g : Graph) (url : Url) (s : Session) : Except Failure Module → Prop
  /-- It is handed on. -/
  | executed (r : Except Failure Module) (hclear : s.obstacle? g url = none)
      (h : s.Executes url r) : Concluded g url s r
  /-- Something has failed. -/
  | failed (v u : Url) (cause : Failure) (h : s.obstacle? g url = some (v, .failed u cause)) :
      Concluded g url s (.error (.failed u cause))

/-- What failed first depends on nothing but what came of the modules. -/
theorem obstacle?_eq (g : Graph) (url : Url) (h : s'.cache.compiled = s.cache.compiled) :
    s'.obstacle? g url = s.obstacle? g url :=
  firstFailed_congr fun dep _ => by rw [h]

/-- An entry that has been compiled comes to a conclusion. -/
theorem concluded_importEntry (hcoherent : l.Coherent (importEntry url g s).2)
    (hcompiled : s.cache.isCompiled url = true) :
    Concluded g url (importEntry url g s).2 (importEntry url g s).1 := by
  have hsame := obstacle?_eq g url (imports_importEntry url g s).sameCompiled
  obtain ⟨a, ha⟩ := Option.isSome_iff_exists.1 hcompiled
  have hequation := importEntry_of_compiled (g := g) ha
  cases a with
  | failed u cause =>
    have hfirst : s.obstacle? g url = some (url, .failed u cause) := by
      rw [Session.obstacle?, Session.firstFailed, ha]
      rfl
    rw [hequation] at hsame ⊢
    exact .failed url u cause (hsame.trans hfirst)
  | ready blobUrl =>
    have hrest : s.obstacle? g url = Session.firstFailed s.cache (g.eagerDependencies url) := by
      rw [Session.obstacle?, Session.firstFailed, ha]
      rfl
    cases hfirst : Session.firstFailed s.cache (g.eagerDependencies url) with
    | some e =>
      obtain ⟨v, failed⟩ := e
      obtain ⟨u, cause, rfl⟩ := Session.exists_failed_of_firstFailed hfirst
      rw [hequation, Session.importEager_of_firstFailed hfirst] at hsame ⊢
      exact .failed v u cause (hsame.trans (hrest.trans hfirst))
    | none =>
      rw [hequation, Session.importEager_of_ready hfirst] at hsame hcoherent ⊢
      refine .executed _ (hsame.trans (hrest.trans hfirst)) ?_
      cases hread : s.readBlob blobUrl with
      | error reason =>
        rw [Session.importBlob_of_error hread]
        exact .refused blobUrl reason ha hread
      | ok x =>
        rw [Session.importBlob_of_ok hread] at hcoherent ⊢
        have hx := Memo.get?_insert_eq_getD s.cache.modules url x
        exact .imported _ hx (hcoherent.imported url _ hx)

/-! ## What a load leaves behind -/

/-- What a load of an entry leaves behind when it has come to an end: nothing new if the graph has a
circle, and else all modules of the graph compiled and a conclusion about the entry. -/
inductive Leaves (g : Graph) (url : Url) (s s' : Session) : Except Failure Module → Prop
  /-- The graph has a circle. -/
  | circular (circle : Graph.Cycle) (hsort : g.topologicalSort = .error circle)
      (hsame : s'.cache.compiled = s.cache.compiled) :
      Leaves g url s s' (.error (.circularDependency circle.closing circle.path))
  /-- It has none. -/
  | concluded (order : List Url) (r : Except Failure Module) (hsort : g.topologicalSort = .ok order)
      (hcompiled : ∀ m ∈ g.urls, s'.cache.isCompiled m = true) (h : Concluded g url s' r) :
      Leaves g url s s' r

/-- A module that has been compiled has a graph. -/
theorem Consistent.exists_isGraphOf (h : l.Consistent f s) (hm : s.cache.isCompiled m = true) :
    ∃ g, Discovery.IsGraphOf (l.dependenciesAt f) m g := by
  obtain ⟨entry, g, -, hclosure, hmem⟩ := h.exists_graphContaining? hm
  -- the graph that lists the module lists all that it leads to
  refine ⟨_, g.urls.length + 1, Discovery.pending_rounds_eq_nil g.urls (fun v t hv _ => ?_)
    (Nat.lt_succ_self _), rfl⟩
  rw [leadsTo_dependenciesAt] at hv
  exact (hclosure.mem_urls v).2 (((hclosure.mem_urls m).1 hmem).trans hv)

/-- A load of a module that has been imported gives it back. -/
theorem eq_of_steps_loadModule {limit : Nat} {w w' : World Session ω} {x : Module}
    {r : Except Failure Module} (h : w.state.cache.modules.get? url = some x)
    (hsteps : Op.Steps server (l.loadModule limit url, w) (.done r, w')) :
    r = .ok x ∧ w' = { w with state := (Session.report (.moduleHit url) w.state).2 } := by
  rw [loadModule, Op.steps_look_iff, h] at hsteps
  exact Op.eq_of_steps_done (Op.steps_act_iff.1 hsteps)

/-- A module that has been imported comes to a conclusion without a load, and its graph has no
circle. -/
theorem Consistent.leaves_of_imported (h : l.Consistent f s) {x : Module}
    (hx : s.cache.modules.get? url = some x) :
    ∃ g, Discovery.IsGraphOf (l.dependenciesAt f) url g ∧ Leaves g url s s (.ok x) := by
  have hcode := h.imported url x hx
  have hurl : s.cache.isCompiled url = true := Option.isSome_iff_exists.2 ⟨_, hcode⟩
  obtain ⟨g, hg⟩ := h.exists_isGraphOf hurl
  have hclosure := isClosure_of_isGraphOf hg
  have hwell := (hg.recorded (l.nodup_dependenciesAt f)).wellFormed
  have hcompiled : ∀ m ∈ g.urls, s.cache.isCompiled m = true :=
    fun m hm => h.isCompiled_of_reach hurl ((hclosure.mem_urls m).1 hm)
  obtain ⟨order, hsort⟩ :=
    (Graph.exists_topologicalSort_iff hwell).2 (h.acyclic hclosure hwell hcompiled)
  refine ⟨g, hg, .concluded order _ hsort hcompiled (.executed _ ?_ (.imported x hx hcode))⟩
  -- all that is evaluated along with the module has code
  refine Session.firstFailed_eq_none_iff.2 fun dep hdep a ha => ?_
  have hreach : ReflTransGen g.ImportsEagerly url dep := by
    rcases List.mem_cons.1 hdep with rfl | hdep
    · exact .refl
    · exact ((g.mem_eagerDependencies_iff url dep).1 hdep).to_reflTransGen
  obtain ⟨blobUrl, hready⟩ := h.evaluated url x hx dep
    ((hclosure.reflTransGen_importsEagerly_iff ((hclosure.mem_urls url).2 .refl)).1 hreach)
  rw [hready] at ha
  cases ha
  rfl

/-- A load that has built its graph leaves behind what it should. -/
theorem leaves_of_finish {w w' : World Session ω} {r : Except Failure Module}
    (hg : w.state.cache.graphs.get? url = some g) (hwell : g.WellFormed) (hurl : url ∈ g.urls)
    (hsteps : Op.Steps server (l.finish url g, w) (.done r, w')) (hcoherent : l.Coherent w'.state) :
    w'.state.cache.graphs.get? url = some g ∧ Leaves g url w.state w'.state r := by
  cases hsort : g.topologicalSort with
  | error circle =>
    have hrun := (Op.steps_done_iff (isSequential_finish l url g)).1 hsteps
    rw [finish, hsort] at hrun
    cases hrun
    exact ⟨hg, .circular circle hsort rfl⟩
  | ok order =>
    obtain ⟨rfl, rfl⟩ := (steps_finish_iff hsort).1 hsteps
    obtain ⟨hsorted, hmem⟩ := Graph.sorted_of_topologicalSort hwell hsort
    have himports := imports_importEntry url g (l.afterCompiling server order w).state
    have hcompiled : ∀ m ∈ g.urls,
        (l.afterCompiling server order w).state.cache.isCompiled m = true :=
      fun m hm => isCompiled_afterCompiling l server ((hmem m).2 hm) w
    obtain ⟨-, hg', -⟩ := (keeps_compileOrder hg hsort hsorted).steps
      (Op.steps_of_run (run_compileModules l server order w))
    exact ⟨himports.graphs url g hg', .concluded order _ hsort
      (fun m hm => himports.toGrows.isCompiled (hcompiled m hm))
      (concluded_importEntry hcoherent (hcompiled url hurl))⟩

/-- In whatever order its answers come, a load leaves behind what it should. -/
theorem leaves_of_loadModule (hf : server.AnswersBy f) {limit : Nat} {w w' : World Session ω}
    (hs : l.Sound w.state) (h : l.Consistent f w.state) {r : Except Failure Module}
    (hsteps : Op.Steps server (l.loadModule limit url, w) (.done r, w')) :
    l.Consistent f w'.state ∧ ∃ g, Discovery.IsGraphOf (l.dependenciesAt f) url g ∧
      (w.state.cache.modules.get? url = none → w'.state.cache.graphs.get? url = some g) ∧
      Leaves g url w.state w'.state r := by
  have hkeeps : (l.loadModule limit url).Keeps server
      (l.acting (fun u a => a = f u) (l.IsDrawn f) False) (fun _ _ => True) w :=
    acts_loadModule hf.says (h.toFaithful.mayDiscover hf) hs limit url
  obtain ⟨-, h'⟩ := inv_of_acting (fun _ _ _ h ha => h.of_acts ha) (hkeeps.steps hsteps).1 hs h
  refine ⟨h', ?_⟩
  cases hmodule : w.state.cache.modules.get? url with
  | some x =>
    obtain ⟨rfl, rfl⟩ := eq_of_steps_loadModule hmodule hsteps
    obtain ⟨g, hg, hleaves⟩ := h'.leaves_of_imported (x := x) hmodule
    refine ⟨g, hg, fun h => (nomatch h), ?_⟩
    cases hleaves with
    | concluded order _ hsort hcompiled hr => exact .concluded order _ hsort hcompiled hr
  | none =>
    obtain ⟨g, w₁, hbuild, hfinish⟩ := (steps_loadModule_iff hmodule).1 hsteps
    obtain ⟨-, hgraph, -⟩ :=
      (keeps_attempt_buildGraph hf h.toFaithful limit url).of_attempt.steps hbuild
    obtain ⟨hmoved, hg⟩ := (keeps_buildGraph l limit url w).steps hbuild
    have hwell := (hgraph.recorded (l.nodup_dependenciesAt f)).wellFormed
    obtain ⟨hg', hleaves⟩ :=
      leaves_of_finish hg hwell (hgraph.mem_urls_iff.2 .refl) hfinish h'.toCoherent
    refine ⟨g, hgraph, fun _ => hg', ?_⟩
    -- building the graph has compiled nothing
    cases hleaves with
    | circular circle hsort hsame =>
      exact .circular circle hsort (hsame.trans (compiled_of_preparing hmoved))
    | concluded order _ hsort hcompiled hr => exact .concluded order _ hsort hcompiled hr

/-! ## Loads that end -/

/-- What a load does with its graph ends. -/
theorem terminates_finish (l : Loader) (server : Server ω) (url : Url) (g : Graph)
    (w : World Session ω) : Op.Terminates server (l.finish url g, w) := by
  have hseq := isSequential_finish l url g
  cases hsort : g.topologicalSort with
  | error circle =>
    have hrun : (l.finish url g).run server w =
        (some (.error (.circularDependency circle.closing circle.path)), w) := by
      rw [finish, hsort]
      rfl
    exact Op.terminates_of_run hseq hrun
  | ok order =>
    exact Op.terminates_of_run hseq
      ((Op.steps_done_iff hseq).1 ((steps_finish_iff hsort).2 ⟨rfl, rfl⟩))

/-- A load ends, in whatever order its answers come, if there may be waves enough. -/
theorem terminates_loadModule (hf : server.AnswersBy f) {w : World Session ω}
    (h : l.Faithful f w.state) {limit : Nat}
    (hlimit : (Discovery.rounds (l.dependenciesAt f) url limit).pending = []) :
    Op.Terminates server (l.loadModule limit url, w) := by
  unfold loadModule
  refine Op.Terminates.look ?_
  cases w.state.cache.modules.get? url with
  | some x => exact Op.terminates_of_run (fun _ => trivial) rfl
  | none =>
    have hbuild := Op.terminates_of_keeps_attempt (keeps_attempt_buildGraph hf h limit url)
      fun _ hpending => hpending hlimit
    exact hbuild.bind fun g w₂ _ => terminates_finish l server url g w₂

end Loader

end ModuleLoader
