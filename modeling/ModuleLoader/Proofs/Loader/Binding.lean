import ModuleLoader.Proofs.Loader.Consistency
import ModuleLoader.Proofs.Loader.Identity

/-! # Specifiers that are replaced, and what the graph lists for them

A specifier is replaced by the blob of the module that it leads to when its importer is compiled.
Without extension it may lead to a candidate that happens to have been compiled by then, where a
discovery would have found another module. The graph lists the latter.

* **`Loader.Faithful.lookupTarget_eq_iff`** says when the two are the same module.
* **`Loader.ListsFor`** is a graph that lists a module for a specifier of another.
* **`Loader.listsFor_of_run`** compares the graphs with the specifiers replaced in a run. -/

namespace ModuleLoader.Loader

variable {ω : Type} {server : Server ω} {f : Url → Answer} {l : Loader} {s s' : Session}
variable {m t u : Url} {specifier blobUrl : String} {w w' v₁ v₂ : World Session ω}

/-! ## The first candidate -/

/-- The first element with a property that has another one as well is the first with both. -/
theorem find?_and_eq_some {α : Type} {p q : α → Bool} {xs : List α} {x : α}
    (h : xs.find? p = some x) (hq : q x = true) : xs.find? (fun y => p y && q y) = some x := by
  obtain ⟨hp, front, back, heq, hfront⟩ := List.find?_eq_some_iff_append.1 h
  refine List.find?_eq_some_iff_append.2 ⟨by rw [hp, hq]; rfl, front, back, heq, fun y hy => ?_⟩
  have hnot : p y = false := by simpa using hfront y hy
  rw [hnot]
  rfl

/-- The first elements with two properties are the same if each has the other property as well. -/
theorem find?_eq_find? {α : Type} {p q : α → Bool} {xs : List α} {x y : α}
    (hx : xs.find? p = some x) (hy : xs.find? q = some y) (hqx : q x = true) (hpy : p y = true) :
    x = y := by
  have hboth := find?_and_eq_some hx hqx
  have hboth' := find?_and_eq_some hy hpy
  simp only [Bool.and_comm (q _)] at hboth'
  exact Option.some.inj (hboth.symm.trans hboth')

/-- A module with code is there, by the answers. -/
theorem Faithful.isModuleAt_of_isReady (h : l.Faithful f s) (hc : l.Coherent s)
    (ht : s.IsReady t) : Resolver.isModuleAt f t = true := by
  obtain ⟨blobUrl, hblob⟩ := ht
  obtain ⟨source, -, -, hsource, -⟩ := hc.code t blobUrl hblob
  rw [Resolver.isModuleAt, h.sources t source hsource]
  rfl

/-- Where a URL stands for a module with code, that is the module that the answers say exactly if
the latter has been compiled. -/
theorem Faithful.lookupTarget_eq_iff (h : l.Faithful f s) (hc : l.Coherent s)
    (ht : s.IsReady (l.lookupTarget s.cache u)) :
    l.lookupTarget s.cache u = l.targetOf f u ↔ s.cache.isCompiled (l.targetOf f u) = true := by
  constructor
  · intro heq
    obtain ⟨blobUrl, hblob⟩ := ht
    exact heq ▸ Option.isSome_iff_exists.2 ⟨_, hblob⟩
  intro hcompiled
  by_cases hset : s.Settled u
  -- what is settled is so as the answers say
  · exact h.lookupTarget_eq hset
  have hmodule := h.isModuleAt_of_isReady hc ht
  obtain ⟨hext, hres⟩ := not_or.1 hset
  have hnone : s.cache.resolutions.get? u = none := Option.not_isSome_iff_eq_none.1 hres
  -- both are the first of the same candidates, with code and with a module
  rw [lookupTarget, if_neg hext, hnone] at hmodule ⊢
  rw [targetOf, if_neg hext, Resolver.standsFor, Resolver.fallback] at hcompiled ⊢
  change ((Resolver.candidates l.config u).find? s.cache.isCompiled).getD _ = _
  change Resolver.isModuleAt f (((Resolver.candidates l.config u).find? s.cache.isCompiled).getD
    _) = true at hmodule
  cases hguess : (Resolver.candidates l.config u).find? s.cache.isCompiled with
  | some c =>
    rw [hguess, Option.getD_some] at hmodule
    cases hfind : (Resolver.candidates l.config u).find? (Resolver.isModuleAt f) with
    | some d =>
      rw [hfind, Option.getD_some] at hcompiled
      exact find?_eq_find? hguess hfind hmodule hcompiled
    | none =>
      exact absurd hmodule (List.find?_eq_none.1 hfind c (List.mem_of_find?_eq_some hguess))
  | none =>
    cases hfind : (Resolver.candidates l.config u).find? (Resolver.isModuleAt f) with
    | some d =>
      rw [hfind, Option.getD_some] at hcompiled
      exact absurd hcompiled (List.find?_eq_none.1 hguess d (List.mem_of_find?_eq_some hfind))
    | none => rfl

/-! ## What graphs list -/

/-- The graph lists a module for a specifier of another: the URL that the specifier joins to stands
for that module for good, and the graph has an edge to it. -/
def ListsFor (l : Loader) (s : Session) (g : Graph) (m : Url) (specifier : String) (t : Url) :
    Prop :=
  ∃ u, resolve? specifier m = some u ∧ s.Settled u ∧ l.lookupTarget s.cache u = t ∧
    t ∈ g.dependencies m

/-- A graph lists one module for a specifier. -/
theorem ListsFor.eq {g g' : Graph} {t' : Url} (h : l.ListsFor s g m specifier t)
    (h' : l.ListsFor s g' m specifier t') : t = t' := by
  obtain ⟨u, hu, -, rfl, -⟩ := h
  obtain ⟨u', hu', -, rfl, -⟩ := h'
  rw [Option.some.inj (hu.symm.trans hu')]

/-- A graph that has a module lists, for each specifier that is scanned in its source, the module
that the answers say. -/
theorem Faithful.listsFor (h : l.Faithful f s) {e : Url × Graph}
    (he : e ∈ s.cache.graphs.entries) (hm : m ∈ e.2.urls) {source : String} {r : Reference}
    (hsource : s.cache.sources.get? m = some source)
    (hr : r ∈ (scan l.config.scanMode source m.pathText).references)
    (hu : resolve? r.specifier m = some u) :
    l.ListsFor s e.2 m r.specifier (l.targetOf f u) := by
  obtain ⟨hbare, hjoin⟩ := resolve?_eq_some_iff.1 hu
  have hnames : l.Names f m r u := ⟨⟨source, h.sources m source hsource, hr⟩, hbare, hjoin⟩
  have hdrawn := h.graphs e he
  have hset := hdrawn.settled m hm (u, r.isDynamic) (mem_importsAt_iff.2 ⟨r, hnames, rfl⟩)
  exact ⟨u, hu, hset, h.lookupTarget_eq hset,
    ((isClosure_of_isGraphOf hdrawn.isGraphOf).mem_dependencies_iff hm).2 ⟨r, u, hnames, rfl⟩⟩

/-! ## What is replaced -/

/-- A specifier that is replaced joins to a URL, and its target is what that stands for. -/
theorem Replaces.exists_resolve? (h : l.Replaces s s' m specifier t blobUrl) :
    ∃ u, resolve? specifier m = some u ∧ t = l.lookupTarget s.cache u := by
  obtain ⟨u, hu, heq⟩ := Option.map_eq_some_iff.1 h.target
  exact ⟨u, hu, heq.symm⟩

/-- With a server that always answers a URL the same way, calls go on from wherever calls have led,
for as long as nothing is forgotten. A specifier that is replaced on the way joins to a URL, and its
target is the module that the answers say for that exactly if the latter has been compiled by then.
It is so if the URL has an extension, or something has been found for it, or there is a graph that
has the importer and whose scan has the specifier. In the end, each graph that has the importer
lists the module that the answers say for a specifier that is scanned there, and so it lists the
target exactly if the module that the answers say had been compiled. -/
theorem listsFor_of_run (hf : server.AnswersBy f) (hw : l.Reached server (fun _ => True) w)
    {trace : List (World Session ω × World Session ω)}
    (hrun : l.Run server (· ≠ .cleanup) w trace w') (hmem : (v₁, v₂) ∈ trace)
    (h : l.Replaces v₁.state v₂.state m specifier t blobUrl) :
    ∃ u source, resolve? specifier m = some u ∧ v₁.state.cache.sources.get? m = some source ∧
      (t = l.targetOf f u ↔ v₁.state.cache.isCompiled (l.targetOf f u) = true) ∧
      (v₁.state.Settled u → t = l.targetOf f u) ∧
      ∀ d, ⟨specifier, d⟩ ∈ (scan l.config.scanMode source m.pathText).references →
        ((∃ e ∈ v₁.state.cache.graphs.entries, m ∈ e.2.urls) → t = l.targetOf f u) ∧
        ∀ e ∈ w'.state.cache.graphs.entries, m ∈ e.2.urls →
          l.ListsFor w'.state e.2 m specifier (l.targetOf f u) ∧
          (l.ListsFor w'.state e.2 m specifier t ↔
            v₁.state.cache.isCompiled (l.targetOf f u) = true) := by
  obtain ⟨hreached, -, hstep, hafter⟩ := hrun.split (fun _ => id) hw hmem
  have hfaithful : l.Faithful f v₁.state := faithful_of_reached hf hreached
  have hfaithful' : l.Faithful f w'.state := faithful_of_reached hf (hrun.reached hw)
  have hcoherent := (coherent_of_reached hreached).1
  obtain ⟨source, hsource, -, -⟩ := h.asked
  obtain ⟨u, hu, rfl⟩ := h.exists_resolve?
  have hiff := hfaithful.lookupTarget_eq_iff hcoherent ⟨blobUrl, h.compiled⟩
  refine ⟨u, source, hu, hsource, hiff, hfaithful.lookupTarget_eq, fun d hr => ⟨?_, ?_⟩⟩
  -- a graph that has the importer has settled what the specifier joins to
  · rintro ⟨e, he, hm⟩
    obtain ⟨u', hu', hset, -⟩ := hfaithful.listsFor he hm hsource hr hu
    obtain rfl := Option.some.inj (hu.symm.trans hu')
    exact hfaithful.lookupTarget_eq hset
  · intro e he hm
    have hlists := hfaithful'.listsFor he hm ((hstep.trans hafter).sources m source hsource) hr hu
    refine ⟨hlists, ?_⟩
    rw [← hiff]
    exact ⟨fun htarget => htarget.eq hlists, fun heq => heq ▸ hlists⟩

/-- A module that has a graph when it is compiled has its specifier replaced by the blob of the
module that the graph lists for it. -/
theorem listsFor_of_run_importingTwice :
    ∃ (w w' v₁ v₂ : World Session Unit) (trace : List (World Session Unit × World Session Unit))
      (blobUrl : String) (e : Url × Graph),
      byLines.Reached (Server.ofModules importingTwice) (fun _ => True) w ∧
      byLines.Run (Server.ofModules importingTwice) (· ≠ .cleanup) w trace w' ∧
      (v₁, v₂) ∈ trace ∧
      byLines.Replaces v₁.state v₂.state (fileUrl "main.js") "./util" (fileUrl "util.js") blobUrl ∧
      e ∈ w'.state.cache.graphs.entries ∧ fileUrl "main.js" ∈ e.2.urls ∧
      byLines.ListsFor w'.state e.2 (fileUrl "main.js") "./util" (fileUrl "util.js") := by
  obtain ⟨hreached, ⟨trace, hrun, hmem⟩, hreplaced⟩ := replaces_compileImporting
  obtain ⟨blobUrl, h⟩ := hreplaced "./util" (by simp)
  obtain ⟨⟨e, he, hm⟩, ⟨e', he', hm'⟩⟩ :
      (∃ e ∈ prepareTwice.2.state.cache.graphs.entries, fileUrl "main.js" ∈ e.2.urls) ∧
      ∃ e ∈ compileImporting.state.cache.graphs.entries, fileUrl "main.js" ∈ e.2.urls := by
    decide +kernel
  have hscan : (⟨"./util", false⟩ : Reference) ∈
      (scan byLines.config.scanMode twice (fileUrl "main.js").pathText).references := by
    decide +kernel
  have hsource : prepareTwice.2.state.cache.sources.get? (fileUrl "main.js") = some twice := by
    decide +kernel
  obtain ⟨u, source, -, hsource', -, -, hlists⟩ :=
    listsFor_of_run (answersBy_ofModules importingTwice) hreached hrun hmem h
  obtain rfl := Option.some.inj (hsource.symm.trans hsource')
  obtain ⟨hagree, hlists⟩ := hlists false hscan
  refine ⟨_, _, _, _, trace, blobUrl, e', hreached, hrun, hmem, h, he', hm', ?_⟩
  rw [hagree ⟨e, he, hm⟩]
  exact (hlists e' he' hm').1

/-- A module that imports one of two that differ in the extension. -/
def choosing : List (String × String) :=
  [("main.js", "import \"./util\";\n"), ("util.js", "export const u = 1;\n"),
    ("util.ts", "export const u = 2;\n")]

-- irreducible, lest the calls are run wherever two worlds are compared
/-- What comes of fetching the source of the first module, and compiling the last. -/
@[irreducible]
def prepareChoice : Option Unit × World Session Unit :=
  (byLines.performAll [.fetchSource (fileUrl "main.js"), .compileModules [fileUrl "util.ts"]]).run
    (Server.ofModules choosing) (byLines.start ())

/-- What comes of compiling the first module then. -/
@[irreducible]
def compileChoice : World Session Unit :=
  { prepareChoice.2 with
    state := (byLines.register (fileUrl "main.js") "import \"./util\";\n" prepareChoice.2.state).2 }

/-- What comes of building its graph in the end. -/
@[irreducible]
def buildChoice : Option Unit × World Session Unit :=
  (byLines.perform (.buildGraph 3 (fileUrl "main.js"))).run (Server.ofModules choosing)
    compileChoice

/-- A module without a graph is compiled behind the last of the candidates that a specifier without
extension may lead to. The specifier is replaced by the blob of that candidate, and the graph that
is built then lists another for it. -/
theorem not_listsFor_of_guess :
    ∃ (w w' v₁ v₂ : World Session Unit) (trace : List (World Session Unit × World Session Unit))
      (blobUrl : String) (e : Url × Graph),
      byLines.Reached (Server.ofModules choosing) (· ≠ .cleanup) w ∧
      byLines.Run (Server.ofModules choosing) (· ≠ .cleanup) w trace w' ∧ (v₁, v₂) ∈ trace ∧
      byLines.Replaces v₁.state v₂.state (fileUrl "main.js") "./util" (fileUrl "util.ts") blobUrl ∧
      e ∈ w'.state.cache.graphs.entries ∧ fileUrl "main.js" ∈ e.2.urls ∧
      e.2.dependencies (fileUrl "main.js") = [fileUrl "util.js"] ∧
      ¬ byLines.ListsFor w'.state e.2 (fileUrl "main.js") "./util" (fileUrl "util.ts") := by
  obtain ⟨hends, hnew, hsource, hasked, htarget, hblob⟩ :
      prepareChoice.1 = some () ∧
      prepareChoice.2.state.cache.compiled.get? (fileUrl "main.js") = none ∧
      prepareChoice.2.state.cache.sources.get? (fileUrl "main.js") =
        some "import \"./util\";\n" ∧
      "./util" ∈ (byLines.transformation prepareChoice.2.state (fileUrl "main.js")
        "import \"./util\";\n").asked ∧
      byLines.specifierTarget? prepareChoice.2.state.cache (fileUrl "main.js") "./util" =
        some (fileUrl "util.ts") ∧
      (byLines.redirectSpecifier prepareChoice.2.state.cache (fileUrl "main.js")
        "./util").isSome := by
    decide +kernel
  obtain ⟨hbuilt, e, he, hm, hdeps⟩ : buildChoice.1 = some () ∧
      ∃ e ∈ buildChoice.2.state.cache.graphs.entries, fileUrl "main.js" ∈ e.2.urls ∧
        e.2.dependencies (fileUrl "main.js") = [fileUrl "util.js"] := by
    decide +kernel
  obtain ⟨blobUrl, hblob⟩ := Option.isSome_iff_exists.1 hblob
  have hreached : byLines.Reached (Server.ofModules choosing) (· ≠ .cleanup) prepareChoice.2 := by
    unfold prepareChoice at hends ⊢
    exact Reached.performAll (.start ()) (by decide) (Op.steps_of_fst_run hends)
  have hcompiled : ∃ trace, byLines.Run (Server.ofModules choosing) (· ≠ .cleanup)
      prepareChoice.2 trace compileChoice ∧ (prepareChoice.2, compileChoice) ∈ trace := by
    unfold compileChoice
    exact exists_run_register (by simp) hnew hsource
  obtain ⟨trace, hrun, hmem⟩ := hcompiled
  have hbuild : ∃ steps, Op.Path (Server.ofModules choosing)
      (byLines.perform (.buildGraph 3 (fileUrl "main.js")), compileChoice) steps
      (.done (), buildChoice.2) := by
    unfold buildChoice at hbuilt ⊢
    exact (Op.steps_of_fst_run hbuilt).exists_path
  obtain ⟨steps, hpath⟩ := hbuild
  refine ⟨_, _, prepareChoice.2, compileChoice, _, blobUrl, e, hreached,
    hrun.call (by simp) hpath, List.mem_append_left _ hmem, ⟨⟨_, hsource, ?_, hasked⟩, htarget,
      hblob⟩, he, hm, hdeps, ?_⟩
  · unfold compileChoice
    rfl
  · rintro ⟨u, -, -, -, hlisted⟩
    rw [hdeps] at hlisted
    exact absurd hlisted (by decide)

end ModuleLoader.Loader
