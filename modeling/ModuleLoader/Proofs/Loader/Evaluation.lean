import ModuleLoader.Proofs.Compile.Declarations
import ModuleLoader.Proofs.Loader.Closedness
import ModuleLoader.Proofs.Loader.Coherence
import ModuleLoader.Proofs.Loader.Outcome

/-! # What is evaluated along with a module

A graph says what is evaluated along with a module by the declarations of its source. What is
evaluated in fact are the imports of its code. The two differ where types are left out: a
declaration that only imports types is not in the code, and still counts for the graph.

* **`Loader.RunsAs`** is a module that has code, with its program as it was read and as it was
  compiled.
* **`Loader.ImportsOrDrops`** leads from a module to those that its code imports, and to those of
  declarations that were left out of it.
* **`Loader.evaluation_of_reached`** compares the edges of graphs with what code imports. -/

namespace ModuleLoader

open Relation Syntax

namespace Loader

variable {l : Loader} {s : Session} {ω : Type} {server : Server ω} {g : Graph}
variable {entry m t : Url} {source : String} {p p' : Program}

/-! ## The programs of a module -/

/-- The source of the module is remembered, and reads as the program. -/
structure Reads (s : Session) (m : Url) (source : String) (p : Program) : Prop where
  /-- The source is remembered. -/
  remembered : s.cache.sources.get? m = some source
  /-- It reads as the program. -/
  read : Program.read (Dialect.ofPath m.pathText) source = .ok p

/-- What holds of the programs of all remembered sources holds of that of a module. -/
theorem Reads.of_forall {P : Url × String → Program → Prop} (h : Reads s m source p)
    (hall : ∀ e ∈ s.cache.sources.entries,
      ∀ p ∈ (Program.read (Dialect.ofPath e.1.pathText) e.2).toOption, P e p) :
    P (m, source) p := by
  refine hall (m, source) (Memo.mem_entries_of_get? h.remembered) p ?_
  rw [h.read]
  rfl

/-- The module has code: its source was read as one program, that was compiled to the other, and the
blob holds that with its specifiers replaced. -/
structure RunsAs (l : Loader) (s : Session) (m : Url) (source : String) (p p' : Program) : Prop
    extends Reads s m source p where
  /-- The first program compiles to the second one. -/
  compiled : p.compile l.config.jsx m.pathText source = .ok p'
  /-- The blob of the module holds the second one, with its specifiers replaced. -/
  printed : ∃ blobUrl f, s.cache.compiled.get? m = some (.ready blobUrl) ∧
    s.blobs.get? blobUrl =
      some ⟨l.config.blobMimeType, (Transformer.redirectProgram p' f).1.print⟩

/-- Where modules are compiled by the compiler, one that has code has its programs. -/
theorem Coherent.exists_runsAs (h : l.Coherent s)
    (hl : l.transformer = Transformer.compiler l.config.jsx) (hm : s.IsReady m) :
    ∃ source p p', l.RunsAs s m source p p' := by
  obtain ⟨blobUrl, hblobUrl⟩ := hm
  obtain ⟨source, code, earlier, hsource, -, houtcome, -, hblob⟩ := h.code m blobUrl hblobUrl
  rw [transformation, hl] at houtcome
  obtain ⟨p, p', hread, hcompile, hcode, -⟩ := Transformer.exists_programs_of_compiler houtcome
  rw [hcode] at hblob
  exact ⟨source, p, p', ⟨hsource, hread⟩, hcompile, blobUrl, _, hblobUrl, hblob⟩

/-- What a module imports as its source says is what its program does, as it was read. -/
theorem Reads.importsStatically_iff (h : Reads s m source p)
    (hscan : l.config.scanMode = .syntaxTree) :
    l.ImportsStatically s m t ↔
      ∃ x, p.Imports x ∧ l.specifierTarget? s.cache m x = some t := by
  have href (x : String) : ⟨x, false⟩ ∈ (scan l.config.scanMode source m.pathText).references ↔
      p.Imports x := by
    rw [hscan, scan, scanProgram, h.read]
    exact static_mem_mergeReferences
  constructor
  · rintro ⟨source', ⟨x, isDynamic⟩, u, hsource, hr, hd, hu, rfl⟩
    obtain rfl := Option.some.inj (hsource.symm.trans h.remembered)
    cases hd
    exact ⟨x, (href x).1 hr, by rw [specifierTarget?, hu]; rfl⟩
  · rintro ⟨x, hx, ht⟩
    obtain ⟨u, hu, rfl⟩ := Option.map_eq_some_iff.1 ht
    exact ⟨source, ⟨x, false⟩, u, h.remembered, (href x).2 hx, rfl, hu, rfl⟩

/-! ## What code imports -/

/-- One module imports another: by its code, or by declarations that were left out of its code. -/
def ImportsOrDrops (l : Loader) (s : Session) (m t : Url) : Prop :=
  ∃ source p p' x, l.RunsAs s m source p p' ∧ l.specifierTarget? s.cache m x = some t ∧
    (p'.Imports x ∨ p.LeavesOut x)

/-- What a graph evaluates along with a module, its code imports, or declarations that were left out
of it do. -/
theorem RunsAs.imports_or_leavesOut (h : l.RunsAs s m source p p') (hd : l.Describes s entry g)
    (hscan : l.config.scanMode = .syntaxTree) (hm : m ∈ g.urls) (ht : g.ImportsEagerly m t) :
    ∃ x, l.specifierTarget? s.cache m x = some t ∧ (p'.Imports x ∨ p.LeavesOut x) := by
  obtain ⟨x, hx, htarget⟩ := (h.importsStatically_iff hscan).1 (hd.importsStatically hm ht)
  exact ⟨x, htarget, Program.imports_or_leavesOut h.compiled hx⟩

/-- What the code of a module imports is evaluated along with it as a graph says, if no discovery
missed the module and what is imported is no function that makes elements. -/
theorem RunsAs.importsEagerly_or_supplies (h : l.RunsAs s m source p p')
    (hd : l.Describes s entry g) (hscan : l.config.scanMode = .syntaxTree) (hm : m ∈ g.urls)
    (hmissed : ¬ s.Missed m) {x : String} (hx : p'.Imports x)
    (ht : l.specifierTarget? s.cache m x = some t) :
    g.ImportsEagerly m t ∨ (p.elementOptions l.config.jsx source).Supplies x := by
  obtain hx | hx := Program.imports_or_supplies h.compiled hx
  · exact .inl (hd.importsEagerly hm hmissed ((h.importsStatically_iff hscan).2 ⟨x, hx, ht⟩))
  · exact .inr hx

/-! ## Failures that are reported -/

/-- Where all modules of a graph have been compiled, the module whose failure keeps the entry from
being imported is reached from the entry by edges that leave modules with code. -/
theorem reach_of_importEntry {u : Url} {cause : Failure} (hs : l.Sound s)
    (hd : l.Describes s entry g) (hcompiled : ∀ m ∈ g.urls, s.cache.isCompiled m = true)
    (h : (importEntry entry g s).1 = .error (.failed u cause)) :
    ReflTransGen (fun m t => s.IsReady m ∧ g.ImportsEagerly m t) entry u := by
  obtain ⟨a, ha⟩ := Option.isSome_iff_exists.1 (hcompiled entry hd.entry_mem)
  rw [importEntry_of_compiled ha] at h
  cases a with
  | failed u' cause' =>
    rw [Session.importEager_of_failed] at h
    cases h
    rw [hs.failed entry u cause ha]
  | ready blobUrl =>
    cases hfirst : Session.firstFailed s.cache (g.eagerDependencies entry) with
    | none =>
      rw [Session.importEager_of_ready hfirst] at h
      exact absurd h (importBlob_ne_failed _ _ _ _ _)
    | some e =>
      obtain ⟨dep, failed⟩ := e
      obtain ⟨u', cause', rfl⟩ := Session.exists_failed_of_firstFailed hfirst
      obtain ⟨-, hget, -⟩ := Session.of_firstFailed hfirst
      obtain ⟨front, back, hdeps, hnone⟩ := Session.exists_append_of_firstFailed hfirst
      rw [Session.importEager_of_firstFailed hfirst] at h
      cases h
      obtain rfl := hs.failed dep u cause hget
      -- the modules before the first that has failed have code
      have hready : ∀ m ∈ front, s.IsReady m := by
        intro m hm
        have hmem : m ∈ g.eagerDependencies entry := hdeps ▸ List.mem_append_left _ hm
        obtain ⟨b, hb⟩ := Option.isSome_iff_exists.1
          (hcompiled m (hd.wellFormed.mem_urls_of_mem_eagerDependencies hmem))
        have hok := Session.firstFailed_eq_none_iff.1 hnone m hm b hb
        cases b with
        | ready blobUrl => exact ⟨blobUrl, hb⟩
        | failed _ _ => cases hok
      exact (Graph.transGen_of_eagerDependencies_eq ⟨blobUrl, ha⟩ hdeps hready).to_reflTransGen

/-- When a load ends with the failure of a module, the graph that is remembered for its entry leads
to that module by edges that leave modules with code. -/
theorem reach_of_failed_load {w w' : World Session ω} {limit : Nat} {url u : Url} {cause : Failure}
    (hs : l.Sound w.state) (hload : Op.Steps server (l.loadModule limit url, w)
      (.done (.error (.failed u cause)), w')) :
    ∃ g, w'.state.cache.graphs.get? url = some g ∧ l.Describes w'.state url g ∧
      ReflTransGen (fun m t => w'.state.IsReady m ∧ g.ImportsEagerly m t) url u := by
  cases hmodule : w.state.cache.modules.get? url with
  | some x =>
    obtain ⟨hr, -⟩ := eq_of_steps_loadModule hmodule hload
    cases hr
  | none =>
    -- the load builds a graph, sorts it, compiles in that order and imports the entry, and only the
    -- last can end with the failure of a module
    obtain ⟨g, w₁, hbuild, hfinish⟩ := (steps_loadModule_iff hmodule).1 hload
    obtain ⟨hmoved, hg⟩ := (keeps_buildGraph l limit url w).steps hbuild
    have hs₁ := sound_of_preparing hmoved hs
    have hd := hs₁.described url g hg
    cases hsort : g.topologicalSort with
    | error circle =>
      have hrun := (Op.steps_done_iff (isSequential_finish l url g)).1 hfinish
      rw [finish, hsort] at hrun
      cases hrun
    | ok order =>
      obtain ⟨hsorted, hmem⟩ := Graph.sorted_of_topologicalSort hd.wellFormed hsort
      obtain ⟨hmoved₂, hg₂, hcompiled⟩ := (keeps_compileOrder hg hsort hsorted).steps
        (Op.steps_of_run (run_compileModules l server order w₁))
      obtain ⟨hs₂, hgrows⟩ := sound_of_loading hmoved₂ hs₁
      obtain ⟨hr, rfl⟩ := (steps_finish_iff hsort).1 hfinish
      have himports := imports_importEntry url g (l.afterCompiling server order w₁).state
      have hready : ∀ m, (l.afterCompiling server order w₁).state.IsReady m →
          (importEntry url g (l.afterCompiling server order w₁).state).2.IsReady m :=
        fun m => himports.toGrows.isReady
      have hd₂ := hd.of_grows hgrows
      refine ⟨g, himports.toGrows.graphs url g hg₂, hd₂.of_grows himports.toGrows, ?_⟩
      have hreach :=
        reach_of_importEntry hs₂ hd₂ (fun m hm => hcompiled m ((hmem m).2 hm)) hr.symm
      exact ReflTransGen.mono (fun m t h => ⟨hready m h.1, h.2⟩) _ _ hreach

/-! ## What counts as evaluated is evaluated -/

/-- One module imports another by its code. -/
def CodeImports (l : Loader) (s : Session) (m t : Url) : Prop :=
  ∃ source p p' x, l.RunsAs s m source p p' ∧ l.specifierTarget? s.cache m x = some t ∧ p'.Imports x

/-- The declarations that are left out of the code of a module are by bare specifiers. -/
def KeepsDeclarations (s : Session) (m : Url) : Prop :=
  ∀ source p, Reads s m source p → p.KeepsDeclarations

/-- The code of a module says what is evaluated along with it as its source does: no discovery
missed the module, the declarations that are left out are by bare specifiers, and functions that
make elements come from packages. -/
structure RunsAsRead (l : Loader) (s : Session) (m : Url) : Prop where
  /-- No discovery missed the module. -/
  found : ¬ s.Missed m
  /-- What is left out is not on the server. -/
  keeps : KeepsDeclarations s m
  /-- Neither is what makes elements. -/
  packages : ∀ source p, Reads s m source p →
    ∀ x, (p.elementOptions l.config.jsx source).Supplies x → isBare x = true

/-- A specifier that leads to a module is not bare. -/
theorem isBare_of_specifierTarget? {c : Cache Module} {x : String}
    (h : l.specifierTarget? c m x = some t) : isBare x = false := by
  by_contra hbare
  rw [specifierTarget?, resolve?_of_isBare x m (by simpa using hbare)] at h
  cases h

/-- Where nothing but bare specifiers is left out, the code of a module imports what is evaluated
along with it. -/
theorem RunsAs.imports_of_keeps (h : l.RunsAs s m source p p') (hd : l.Describes s entry g)
    (hscan : l.config.scanMode = .syntaxTree) (hm : m ∈ g.urls) (hkeeps : KeepsDeclarations s m)
    (ht : g.ImportsEagerly m t) :
    ∃ x, l.specifierTarget? s.cache m x = some t ∧ p'.Imports x := by
  obtain ⟨x, htarget, hx | hx⟩ := h.imports_or_leavesOut hd hscan hm ht
  · exact ⟨x, htarget, hx⟩
  · exact absurd (hkeeps source p h.toReads x hx) (by simp [isBare_of_specifierTarget? htarget])

/-- Wherever calls lead with the compiler, a module of a graph that has code has a program, and what
the graph evaluates along with the module is what the compiled program imports by declarations, but
for declarations that were left out, modules that a discovery missed and functions that make
elements. A load that fails for a module reaches it by declarations of code and by those that were
left out. -/
theorem evaluation_of_reached (hl : l.transformer = Transformer.compiler l.config.jsx)
    (hscan : l.config.scanMode = .syntaxTree) {w : World Session ω}
    (hw : l.Reached server (fun _ => True) w) :
    (∀ entry g, w.state.cache.graphs.get? entry = some g → ∀ m ∈ g.urls, w.state.IsReady m →
      ∃ source p p', l.RunsAs w.state m source p p' ∧
        (∀ t, g.ImportsEagerly m t → ∃ x, l.specifierTarget? w.state.cache m x = some t ∧
          (p'.Imports x ∨ p.LeavesOut x)) ∧
        (¬ w.state.Missed m → ∀ x t, p'.Imports x →
          l.specifierTarget? w.state.cache m x = some t →
          g.ImportsEagerly m t ∨ (p.elementOptions l.config.jsx source).Supplies x) ∧
        (l.RunsAsRead w.state m → ∀ t, t ∈ g.eagerEdges m ↔
          ∃ x, l.specifierTarget? w.state.cache m x = some t ∧ p'.Imports x)) ∧
      ∀ limit url u cause (w' : World Session ω),
        Op.Steps server (l.loadModule limit url, w) (.done (.error (.failed u cause)), w') →
          ReflTransGen (l.ImportsOrDrops w'.state) url u ∧
          ((∀ m, w'.state.IsReady m → KeepsDeclarations w'.state m) →
            ReflTransGen (l.CodeImports w'.state) url u) := by
  have hsound := sound_of_reached hw
  refine ⟨fun entry g hg m hm hready => ?_, fun limit url u cause w' hload => ?_⟩
  · have hd := hsound.described entry g hg
    obtain ⟨source, p, p', h⟩ := (coherent_of_reached hw).1.exists_runsAs hl hready
    refine ⟨source, p, p', h, fun t => h.imports_or_leavesOut hd hscan hm,
      fun hmissed x t => h.importsEagerly_or_supplies hd hscan hm hmissed, fun hplain t => ?_⟩
    refine ⟨h.imports_of_keeps hd hscan hm hplain.keeps, ?_⟩
    rintro ⟨x, htarget, hx⟩
    obtain ht | hsupplies := h.importsEagerly_or_supplies hd hscan hm hplain.found hx htarget
    · exact ht
    · have hbare := hplain.packages source p h.toReads x hsupplies
      exact absurd hbare (by simp [isBare_of_specifierTarget? htarget])
  · have hcall : Op.Steps server (l.perform (.loadModule limit url), w) (.done (), w') :=
      Op.steps_bind_done.2 ⟨_, w', hload, .refl⟩
    have hcoherent := (coherent_of_reached (.call hw trivial hcall)).1
    obtain ⟨g, -, hd, hreach⟩ := reach_of_failed_load hsound hload
    refine ⟨ReflTransGen.mono ?_ _ _ hreach, fun hkeeps => ReflTransGen.mono ?_ _ _ hreach⟩
    · rintro m t ⟨hready, ht⟩
      obtain ⟨source, p, p', h⟩ := hcoherent.exists_runsAs hl hready
      obtain ⟨x, htarget, hx⟩ := h.imports_or_leavesOut hd hscan ht.mem_urls ht
      exact ⟨source, p, p', x, h, htarget, hx⟩
    · rintro m t ⟨hready, ht⟩
      obtain ⟨source, p, p', h⟩ := hcoherent.exists_runsAs hl hready
      obtain ⟨x, htarget, hx⟩ := h.imports_of_keeps hd hscan ht.mem_urls (hkeeps m hready) ht
      exact ⟨source, p, p', x, h, htarget, hx⟩

-- irreducible, lest loads are run wherever two worlds are compared
/-- What comes of loading a file from a server that has some modules. -/
@[irreducible]
def loadOf (modules : List (String × String)) (name : String) :
    Option (Except Failure Module) × World Session Unit :=
  (default.loadModule 3 (fileUrl name)).run (Server.ofModules modules) (default.start ())

/-- A load that ends goes that way. -/
theorem steps_loadOf {modules : List (String × String)} {name : String}
    {r : Except Failure Module} (h : (loadOf modules name).1 = some r) :
    Op.Steps (Server.ofModules modules) (default.loadModule 3 (fileUrl name), default.start ())
      (.done r, (loadOf modules name).2) := by
  unfold loadOf at h ⊢
  exact Op.steps_of_fst_run h

/-- A load that ends is a call. -/
theorem reached_loadOf {modules : List (String × String)} {name : String}
    {r : Except Failure Module} (h : (loadOf modules name).1 = some r) :
    default.Reached (Server.ofModules modules) (fun _ => True) (loadOf modules name).2 := by
  have hcall : Op.Steps (Server.ofModules modules)
      (default.perform (.loadModule 3 (fileUrl name)), default.start ())
      (.done (), (loadOf modules name).2) :=
    Op.steps_bind_done.2 ⟨r, _, steps_loadOf h, .refl⟩
  exact .call (.start ()) trivial hcall

/-- A module that imports two, of which there is one. -/
def importingGone : List (String × String) :=
  [("main.js",
      "import \x7b u \x7d from \"./util.js\";\nimport \"./gone.js\";\nexport default u;\n"),
    ("util.js", "export const u = 1;\n")]

/-- A load of the module fails for the one that there is not, and what the graph evaluates along
with the module is what its code imports. -/
theorem evaluation_of_reached_importingGone :
    ∃ (w : World Session Unit) (cause : Failure) (g : Graph) (source : String) (p p' : Program),
      Op.Steps (Server.ofModules importingGone) (default.loadModule 3 (fileUrl "main.js"),
        default.start ()) (.done (.error (.failed (fileUrl "gone.js") cause)), w) ∧
      w.state.cache.graphs.get? (fileUrl "main.js") = some g ∧
      default.RunsAs w.state (fileUrl "main.js") source p p' ∧
      default.RunsAsRead w.state (fileUrl "main.js") ∧
      fileUrl "gone.js" ∈ g.eagerEdges (fileUrl "main.js") ∧
      (∀ t, t ∈ g.eagerEdges (fileUrl "main.js") ↔
        ∃ x, default.specifierTarget? w.state.cache (fileUrl "main.js") x = some t ∧
          p'.Imports x) ∧
      ReflTransGen (default.CodeImports w.state) (fileUrl "main.js") (fileUrl "gone.js") := by
  obtain ⟨hrun, hready, hgraph, hsources, hevents⟩ :
      (loadOf importingGone "main.js").1 =
        some (.error (.failed (fileUrl "gone.js") (.status (fileUrl "gone.js") 404))) ∧
      (loadOf importingGone "main.js").2.state.cache.compiled.get? (fileUrl "main.js") =
        some (.ready "blob:null/00000002") ∧
      ((loadOf importingGone "main.js").2.state.cache.graphs.get? (fileUrl "main.js")).any (fun g =>
        fileUrl "main.js" ∈ g.urls ∧ fileUrl "gone.js" ∈ g.eagerEdges (fileUrl "main.js")) = true ∧
      (∀ e ∈ (loadOf importingGone "main.js").2.state.cache.sources.entries,
        ∀ p ∈ (Program.read (Dialect.ofPath e.1.pathText) e.2).toOption, p.KeepsDeclarations ∧
          isBare (p.elementOptions default.config.jsx e.2).runtime = true ∧
          isBare (p.elementOptions default.config.jsx e.2).importSource = true) ∧
      (loadOf importingGone "main.js").2.state.events.all (fun
        | .discoveryFailed u _ => u ≠ fileUrl "main.js"
        | _ => true) = true := by
    decide +kernel
  obtain ⟨g, hg, heager⟩ := (Option.any_eq_true _ _).1 hgraph
  obtain ⟨hmain, hgone⟩ := of_decide_eq_true heager
  have hload := steps_loadOf hrun
  have hkeeps (m : Url) : KeepsDeclarations (loadOf importingGone "main.js").2.state m :=
    fun source p h => (h.of_forall hsources).1
  have hplain : default.RunsAsRead (loadOf importingGone "main.js").2.state (fileUrl "main.js") :=
    { found := fun ⟨e, he⟩ => absurd (List.all_eq_true.1 hevents _ he) (by simp)
      keeps := hkeeps _
      packages := fun source p h x hx =>
        hx.elim (· ▸ (h.of_forall hsources).2.1) (· ▸ (h.of_forall hsources).2.2) }
  obtain ⟨hgraphs, -⟩ := evaluation_of_reached rfl rfl (reached_loadOf hrun)
  obtain ⟨source, p, p', h, -, -, hiff⟩ := hgraphs _ g hg _ hmain ⟨_, hready⟩
  obtain ⟨-, hfails⟩ := evaluation_of_reached rfl rfl
    (Reached.start () : default.Reached (Server.ofModules importingGone) (fun _ => True) _)
  exact ⟨_, _, g, source, p, p', hload, hg, h, hplain, hgone, hiff hplain,
    (hfails _ _ _ _ _ hload).2 fun m _ => hkeeps m⟩

/-- A module that imports a type from a module that there is not. -/
def importingType : List (String × String) :=
  [("main.ts", "import type \x7b Props \x7d from \"./types.js\";\nexport const width = 3;\n")]

/-- A load of the module fails for the one that its code does not import. -/
theorem failed_of_import_type :
    ∃ (w : World Session Unit) (cause : Failure) (g : Graph) (source : String) (p p' : Program),
      Op.Steps (Server.ofModules importingType) (default.loadModule 3 (fileUrl "main.ts"),
        default.start ()) (.done (.error (.failed (fileUrl "types.js") cause)), w) ∧
      w.state.cache.graphs.get? (fileUrl "main.ts") = some g ∧
      w.state.IsReady (fileUrl "main.ts") ∧ default.RunsAs w.state (fileUrl "main.ts") source p p' ∧
      fileUrl "types.js" ∈ g.eagerEdges (fileUrl "main.ts") ∧ (∀ x, ¬ p'.Imports x) ∧
      (¬ ∀ t, t ∈ g.eagerEdges (fileUrl "main.ts") ↔
        ∃ x, default.specifierTarget? w.state.cache (fileUrl "main.ts") x = some t ∧
          p'.Imports x) ∧
      ¬ ReflTransGen (default.CodeImports w.state) (fileUrl "main.ts") (fileUrl "types.js") := by
  obtain ⟨hrun, hready, hgraph, hcode⟩ :
      (loadOf importingType "main.ts").1 =
        some (.error (.failed (fileUrl "types.js") (.status (fileUrl "types.js") 404))) ∧
      (loadOf importingType "main.ts").2.state.cache.compiled.get? (fileUrl "main.ts") =
        some (.ready "blob:null/00000001") ∧
      ((loadOf importingType "main.ts").2.state.cache.graphs.get? (fileUrl "main.ts")).any
        (fun g => fileUrl "types.js" ∈ g.eagerEdges (fileUrl "main.ts")) = true ∧
      ∀ e ∈ (loadOf importingType "main.ts").2.state.cache.sources.entries,
        ∀ p ∈ (Program.read (Dialect.ofPath e.1.pathText) e.2).toOption,
        ∀ p' ∈ (p.compile default.config.jsx e.1.pathText e.2).toOption,
          bodyReferences p'.body = [] := by
    decide +kernel
  have hnone {m : Url} {source : String} {p p' : Program}
      (h : default.RunsAs (loadOf importingType "main.ts").2.state m source p p') (x : String) :
      ¬ p'.Imports x := by
    have hempty := h.of_forall hcode p' (by rw [h.compiled]; rfl)
    rw [Program.Imports, hempty]
    exact List.not_mem_nil
  obtain ⟨g, hg, hdecided⟩ := (Option.any_eq_true _ _).1 hgraph
  have heager := of_decide_eq_true hdecided
  obtain ⟨source, p, p', h⟩ :=
    (coherent_of_reached (reached_loadOf hrun)).1.exists_runsAs rfl ⟨_, hready⟩
  refine ⟨_, _, g, source, p, p', steps_loadOf hrun, hg, ⟨_, hready⟩, h, heager, hnone h,
    fun hiff => ?_, fun hreach => ?_⟩
  · obtain ⟨x, -, hx⟩ := (hiff _).1 heager
    exact hnone h x hx
  · obtain heq | ⟨t, ⟨_, _, _, x, h', -, hx⟩, -⟩ := hreach.cases_head
    · exact absurd heq (by decide)
    · exact hnone h' x hx

end Loader

end ModuleLoader
