import ModuleLoader.Loader.Call
import ModuleLoader.Proofs.Graph.Closure
import ModuleLoader.Proofs.Graph.Sorting
import ModuleLoader.Proofs.Loader.Discovery
import ModuleLoader.Proofs.Loader.Importing

/-! # What a load compiles

The modules of a graph are compiled one at a time, each behind those that it imports. Whatever a
load does, what is remembered stays sound.

* **`Loader.Registers`** is the moment at which a module is compiled, **`Loader.CompilesNext`** that
  moment in a load.
* **`Loader.Loads`** is what the steps of a load may do, and **`Loader.keeps_loadModule`** says that
  they do nothing else.
* **`Loader.sound_of_reached`** says that calls lead to sound states. -/

namespace ModuleLoader

open Relation

variable {l : Loader} {s s' : Session} {ω : Type} {server : Server ω}

namespace Loader

/-! ## The moment at which a module is compiled -/

/-- What the transformer makes of a source when it is called now. -/
def transformation (l : Loader) (s : Session) (m : Url) (source : String) : Transformation :=
  l.transformer m source (l.redirectSpecifier s.cache m)

/-- The state in which the transformer has been called, and what came of that is not remembered
yet. -/
def called (l : Loader) (s : Session) (m : Url) (source : String) : Session :=
  { s with
    events := s.events ++
      ((l.transformation s m source).asked.flatMap (l.redirectEvents s.cache m) ++
        (l.transformation s m source).reports)
    compilations :=
      s.compilations ++ [⟨m, (l.transformation s m source).outcome.map (·.replaced)⟩] }

/-- Registering a source is calling the transformer, and remembering what came of that. -/
theorem register_eq (l : Loader) (m : Url) (source : String) (s : Session) :
    l.register m source s =
      (match (l.transformation s m source).outcome with
        | .ok compiled => l.registerCode m compiled.code
        | .error cause => registerFailure m cause) (l.called s m source) :=
  rfl

/-- What comes of a transformation: the blob that is next, or the module's own failure. -/
def artifactOf (s : Session) (m : Url) : Except Failure Compiled → Artifact
  | .ok _ => .ready (BlobStore.urlOf s.blobs.origin s.blobs.next)
  | .error cause => .failed m cause

/-- Registering changes nothing but reports, blobs, calls of the transformer and compiled modules,
of which there is one more. -/
structure Compiles (s s' : Session) (m : Url) (a : Artifact) : Prop where
  /-- What came of the module is remembered. -/
  compiled : s'.cache.compiled = s.cache.compiled.insert m a
  /-- No source is remembered. -/
  sameSources : s'.cache.sources = s.cache.sources
  /-- Nothing is imported. -/
  sameModules : s'.cache.modules = s.cache.modules
  /-- No graph is remembered. -/
  sameGraphs : s'.cache.graphs = s.cache.graphs
  /-- No URL is resolved. -/
  sameResolutions : s'.cache.resolutions = s.cache.resolutions
  /-- Reports stay. -/
  events : s.events <+: s'.events

/-- Registering a failure compiles the module to it. -/
theorem compiles_registerFailure (m : Url) (cause : Failure) (s : Session) :
    Compiles s (registerFailure m cause s).2 m (.failed m cause) :=
  ⟨rfl, rfl, rfl, rfl, rfl, List.prefix_append s.events _⟩

/-- Registering code compiles the module to the next blob. -/
theorem compiles_registerCode (l : Loader) (m : Url) (code : String) (s : Session) :
    Compiles s (l.registerCode m code s).2 m
      (.ready (BlobStore.urlOf s.blobs.origin s.blobs.next)) :=
  ⟨rfl, rfl, rfl, rfl, rfl, List.prefix_append s.events _⟩

/-- Registering a source compiles the module to what came of the transformation. -/
theorem compiles_register (l : Loader) (m : Url) (source : String) (s : Session) :
    Compiles s (l.register m source s).2 m
      (artifactOf s m (l.transformation s m source).outcome) := by
  rw [register_eq]
  have hevents : s.events <+: (l.called s m source).events := List.prefix_append s.events _
  cases (l.transformation s m source).outcome with
  | ok compiled =>
    have h := compiles_registerCode l m compiled.code (l.called s m source)
    exact { h with events := hevents.trans h.events }
  | error cause =>
    have h := compiles_registerFailure m cause (l.called s m source)
    exact { h with events := hevents.trans h.events }

/-- Registering a source calls the transformer once. -/
theorem compilations_register (l : Loader) (m : Url) (source : String) (s : Session) :
    (l.register m source s).2.compilations = (l.called s m source).compilations := by
  rw [register_eq]
  cases (l.transformation s m source).outcome <;> rfl

/-- What a state remembers stays when a module is compiled. -/
theorem Compiles.grows {m : Url} {a : Artifact} (h : Compiles s s' m a) : s.Grows s' where
  sources := by rw [h.sameSources]; exact .refl _
  compiled := by rw [h.compiled]; exact Memo.extends_insert _ m a
  modules := by rw [h.sameModules]; exact .refl _
  graphs := by rw [h.sameGraphs]; exact .refl _
  resolutions := by rw [h.sameResolutions]; exact .refl _
  events := h.events

/-- A state stays sound when a module is compiled, if its failure is its own. -/
theorem Compiles.sound {m : Url} {a : Artifact} (h : Compiles s s' m a)
    (ha : ∀ u cause, a = .failed u cause → u = m) (hs : l.Sound s) : l.Sound s' where
  described := by
    intro entry g hg
    rw [h.sameGraphs] at hg
    exact (hs.described entry g hg).of_grows h.grows
  failed := by
    intro v u cause hv
    rw [h.compiled] at hv
    rcases Memo.get?_insert_elim hv with hold | ⟨rfl, hv, -⟩
    · exact hs.failed v u cause hold
    · exact ha u cause hv.symm

/-- What comes of a module is remembered: of its source, or of the failure to get it. -/
inductive Registers (l : Loader) (s : Session) (m : Url) : Session → Prop
  /-- The transformer is called on the source. -/
  | source (source : String) (h : s.cache.sources.get? m = some source) :
      Registers l s m (l.register m source s).2
  /-- The source could not be had. -/
  | failure (cause : Failure) : Registers l s m (registerFailure m cause s).2

/-- Registering compiles the module, and a failure is the module's own. -/
theorem Registers.compiles {m : Url} (h : l.Registers s m s') :
    ∃ a, Compiles s s' m a ∧ ∀ u cause, a = .failed u cause → u = m := by
  cases h with
  | source source _ =>
    refine ⟨_, compiles_register l m source s, ?_⟩
    cases (l.transformation s m source).outcome with
    | ok compiled => exact fun u cause h => nomatch h
    | error cause =>
      rintro u cause' ⟨rfl, rfl⟩
      rfl
  | failure cause =>
    refine ⟨_, compiles_registerFailure m cause s, ?_⟩
    rintro u cause' ⟨rfl, rfl⟩
    rfl

theorem Registers.grows {m : Url} (h : l.Registers s m s') : s.Grows s' := by
  obtain ⟨a, hc, -⟩ := h.compiles
  exact hc.grows

theorem Registers.sound {m : Url} (h : l.Registers s m s') (hs : l.Sound s) : l.Sound s' := by
  obtain ⟨a, hc, ha⟩ := h.compiles
  exact hc.sound ha hs

/-- The module has been compiled then. -/
theorem Registers.isCompiled {m : Url} (h : l.Registers s m s') :
    s'.cache.isCompiled m = true := by
  obtain ⟨a, hc, -⟩ := h.compiles
  rw [Cache.isCompiled, hc.compiled]
  exact Memo.contains_insert _ m a

/-! ## One module after another -/

/-- Compiling a module searches for its source and then registers what comes of it, unless it has
been compiled. -/
theorem keeps_compileModule {promise : World Session ω → World Session ω → Prop} (m : Url)
    {w : World Session ω} (hsearch : ∀ w₁ w₂, searching w₁ w₂ → promise w₁ w₂)
    (hregister : ∀ w₁ w₂ : World Session ω, w.state.Searches w₁.state →
      w₁.state.cache.compiled.get? m = none → l.Registers w₁.state m w₂.state → promise w₁ w₂) :
    (l.compileModule m).Keeps server (fun _ _ => False) promise
      (fun _ _ w' => w.state.Grows w'.state ∧ w'.state.cache.isCompiled m = true) [] w := by
  unfold compileModule
  refine Task.keeps_bind (Task.keeps_act (hsearch _ _ (.refl _)) fun w₁ hw₁ => ?_)
  -- modules are compiled one at a time, so nothing changes between two acts of this one
  obtain rfl : w₁ = w := Task.eq_of_alone hw₁
  split
  · next hdone => exact ⟨.refl _, hdone⟩
  · next hnew =>
    refine Task.keeps_bind ((((keeps_fetchSource m [] w₁).alone.moved .refl).mono
      (fun _ _ h => h) hsearch).imp fun r qs w₂ hr => ?_)
    obtain ⟨hsource, hmoved⟩ := hr
    have hsearches := searches_of_searching hmoved
    have hnone : w₂.state.cache.compiled.get? m = none := by
      rw [hsearches.sameCompiled]
      exact Option.not_isSome_iff_eq_none.1 hnew
    cases r with
    | ok source =>
      have hreg := Registers.source (l := l) source (hsource source rfl)
      refine Task.keeps_act (hregister w₂ _ hsearches hnone hreg) fun w₃ hw₃ => ?_
      obtain rfl := Task.eq_of_alone hw₃
      exact ⟨hsearches.toGrows.trans hreg.grows, hreg.isCompiled⟩
    | error cause =>
      have hreg := Registers.failure (l := l) (s := w₂.state) (m := m) cause
      refine Task.keeps_act (hregister w₂ _ hsearches hnone hreg) fun w₃ hw₃ => ?_
      obtain rfl := Task.eq_of_alone hw₃
      exact ⟨hsearches.toGrows.trans hreg.grows, hreg.isCompiled⟩

/-- Compiling modules in some order keeps what the turn of each of them does. -/
theorem keeps_compileModules {promise : World Session ω → World Session ω → Prop}
    (inv : List Url → World Session ω → Prop) {order : List Url}
    (hturn : ∀ front m rest w, order = front ++ m :: rest → inv front w →
      (Op.one (l.compileModule m)).Keeps server promise (fun _ => inv (front ++ [m])) w)
    {w : World Session ω} (hinv : inv [] w) :
    (l.compileModules order).Keeps server promise (fun _ => inv order) w := by
  -- the induction is on the modules whose turn is still to come
  have hrest : ∀ rest front w, order = front ++ rest → inv front w →
      (l.compileModules rest).Keeps server promise (fun _ => inv order) w := by
    intro rest
    induction rest with
    | nil =>
      intro front w horder hinv
      rw [List.append_nil] at horder
      exact horder ▸ hinv
    | cons m rest ih =>
      intro front w horder hinv
      refine Op.keeps_bind ((hturn front m rest w horder hinv).imp fun _ w₁ hinv₁ => ?_)
      exact ih (front ++ [m]) w₁ (by rw [horder, List.append_assoc]; rfl) hinv₁
  exact hrest order [] w rfl hinv

end Loader

/-! ## The steps of a load -/

namespace Session

/-- Every imported module has a graph, and can be evaluated as that says. -/
def Linked (s : Session) : Prop :=
  ∀ url m, s.cache.modules.get? url = some m →
    ∃ g, s.cache.graphs.get? url = some g ∧ s.CanEvaluate g url

/-- When no module is imported, the imported modules stay linked. -/
theorem Grows.linked (h : s.Grows s') (hm : s'.cache.modules = s.cache.modules) (hs : s.Linked) :
    s'.Linked := by
  intro url m hurl
  rw [hm] at hurl
  obtain ⟨g, hg, hc⟩ := hs url m hurl
  exact ⟨g, h.graphs url g hg, h.canEvaluate hc⟩

end Session

namespace Loader

/-- A module of the graph of an entry is compiled, behind all that it imports. -/
structure CompilesNext (l : Loader) (entry : Url) (s : Session) (m : Url) (s' : Session) :
    Prop where
  /-- The graph lists the module, and what it imports has been compiled. -/
  listed : ∃ g order, s.cache.graphs.get? entry = some g ∧ g.topologicalSort = .ok order ∧
    m ∈ order ∧ ∀ dep ∈ g.dependencies m, s.cache.isCompiled dep = true
  /-- The module has not been compiled before. -/
  new : s.cache.compiled.get? m = none
  /-- What comes of it is remembered. -/
  registers : l.Registers s m s'

/-- What a step of a load may do: it compiles the next module, or compiles nothing. -/
structure Loads (l : Loader) (entry : Url) (s s' : Session) : Prop extends s.Grows s' where
  /-- The next module is compiled, or none. -/
  compiles : s'.cache.compiled = s.cache.compiled ∧ s'.compilations = s.compilations ∨
    ∃ m, l.CompilesNext entry s m s'
  /-- A sound state stays sound. -/
  sound : l.Sound s → l.Sound s'
  /-- Linked modules stay linked. -/
  linked : s.Linked → s'.Linked

/-- What building a graph may do, a load may. -/
theorem loads_of_prepares {entry : Url} (h : l.Prepares s s') : l.Loads entry s s' where
  toGrows := h.toGrows
  compiles := .inl ⟨h.sameCompiled, h.sameCompilations⟩
  sound := h.sound
  linked := h.linked h.sameModules

/-- Searching is all right while a module is loaded. -/
theorem loads_of_searches {entry : Url} (h : s.Searches s') : l.Loads entry s s' :=
  loads_of_prepares (prepares_of_searches h)

/-- Compiling the next module is all right while a module is loaded. -/
theorem loads_of_compilesNext {entry m : Url} (h : l.CompilesNext entry s m s') :
    l.Loads entry s s' where
  toGrows := h.registers.grows
  compiles := .inr ⟨m, h⟩
  sound := h.registers.sound
  linked := by
    obtain ⟨a, hc, -⟩ := h.registers.compiles
    exact h.registers.grows.linked hc.sameModules

/-- What a load promises. -/
def loading (l : Loader) (entry : Url) (w w' : World Session ω) : Prop :=
  l.Loads entry w.state w'.state

/-- The modules of a graph are compiled in their order. -/
theorem keeps_compileOrder {entry : Url} {g : Graph} {order : List Url} {w : World Session ω}
    (hg : w.state.cache.graphs.get? entry = some g) (hsort : g.topologicalSort = .ok order)
    (hsorted : g.Sorted order) :
    (l.compileModules order).Keeps server (l.loading entry)
      (fun _ w' => w'.state.cache.graphs.get? entry = some g ∧
        ∀ m ∈ order, w'.state.cache.isCompiled m = true) w := by
  refine keeps_compileModules (fun front w' =>
    w'.state.cache.graphs.get? entry = some g ∧ ∀ m ∈ front, w'.state.cache.isCompiled m = true)
    (fun front m rest w₁ horder hinv => ?_) ⟨hg, by simp⟩
  obtain ⟨hg₁, hfront⟩ := hinv
  refine Op.keeps_one ((keeps_compileModule m (fun _ _ => loads_of_searches)
    fun w₂ w₃ hw₂ hnew hreg => ?_).imp fun _ _ w₂ hw₂ _ => ?_)
  -- what the module imports comes before it in the order, and so has had its turn
  · refine loads_of_compilesNext ⟨⟨g, order, hw₂.graphs entry g hg₁, hsort, ?_, ?_⟩, hnew, hreg⟩
    · simp [horder]
    · exact fun dep hdep =>
        hw₂.isCompiled (hfront dep (hsorted.behind front m rest horder dep hdep))
  · refine ⟨hw₂.1.graphs entry g hg₁, fun v hv => ?_⟩
    rcases List.mem_append.1 hv with hv | hv
    · exact hw₂.1.isCompiled (hfront v hv)
    · rw [List.mem_singleton] at hv
      exact hv ▸ hw₂.2

/-! ## A whole load -/

/-- Importing leaves a state sound. -/
theorem Sound.of_imports {url : Url} (h : l.Sound s) (hi : s.Imports s' url) : l.Sound s' where
  described := by
    intro entry g hg
    rw [hi.sameGraphs] at hg
    exact (h.described entry g hg).of_grows hi.toGrows
  failed := by
    intro m u cause hm
    rw [hi.sameCompiled] at hm
    exact h.failed m u cause hm

/-- Importing the entry is all right when the modules of its graph have been compiled, and an entry
that is imported can be evaluated. -/
theorem loads_importEntry {entry : Url} {g : Graph} (hd : l.Describes s entry g)
    (hg : s.cache.graphs.get? entry = some g)
    (hcompiled : ∀ m ∈ g.urls, s.cache.isCompiled m = true) :
    l.Loads entry s (importEntry entry g s).2 ∧
      ∀ m, (importEntry entry g s).1 = .ok m →
        (importEntry entry g s).2.CanEvaluate g entry := by
  rcases importEntry_cases hd.wellFormed hd.entry_mem hcompiled with
    ⟨hcan, blobUrl, -, heq⟩ | ⟨f, u, cause, -, -, heq⟩
  · have himports := Session.imports_importBlob entry blobUrl s
    rw [heq]
    refine ⟨⟨himports.toGrows, .inl ⟨himports.sameCompiled, himports.sameCompilations⟩,
      fun hs => hs.of_imports himports, fun hl v m hv => ?_⟩, fun _ _ =>
      himports.toGrows.canEvaluate hcan⟩
    by_cases hve : v = entry
    · subst hve
      exact ⟨g, himports.graphs v g hg, himports.toGrows.canEvaluate hcan⟩
    · rw [himports.sameModules v hve] at hv
      obtain ⟨g', hg', hc⟩ := hl v m hv
      exact ⟨g', himports.graphs v g' hg', himports.toGrows.canEvaluate hc⟩
  · rw [heq]
    exact ⟨loads_of_searches (Session.searches_report _ s), fun _ h => nomatch h⟩

/-- Building a graph prepares, in however many steps. -/
theorem prepares_of_preparing {w w' : World Session ω} (h : ReflTransGen l.preparing w w') :
    l.Prepares w.state w'.state := by
  induction h with
  | refl => exact prepares_of_searches (.refl _)
  | tail _ h ih => exact ih.trans h

/-- While a graph is built, a sound state stays sound. -/
theorem sound_of_preparing {w w' : World Session ω} (h : ReflTransGen l.preparing w w')
    (hs : l.Sound w.state) : l.Sound w'.state :=
  (prepares_of_preparing h).sound hs

/-- While a graph is built, nothing is compiled. -/
theorem compiled_of_preparing {w w' : World Session ω} (h : ReflTransGen l.preparing w w') :
    w'.state.cache.compiled = w.state.cache.compiled :=
  (prepares_of_preparing h).sameCompiled

/-- For some steps, a sound state stays sound and what it remembers stays. -/
theorem sound_of_loading {entry : Url} {w w' : World Session ω}
    (h : ReflTransGen (l.loading entry) w w') (hs : l.Sound w.state) :
    l.Sound w'.state ∧ w.state.Grows w'.state := by
  induction h with
  | refl => exact ⟨hs, .refl _⟩
  | tail _ h ih => exact ⟨h.sound ih.1, ih.2.trans h.toGrows⟩

/-- A load does what it may. What it ends with can be evaluated, if that was so of the modules that
had been imported before. -/
theorem keeps_loadModule (limit : Nat) (url : Url) {w : World Session ω} (hs : l.Sound w.state) :
    (l.loadModule limit url).Keeps server (l.loading url)
      (fun r w' => ∀ m, r = .ok m → w.state.Linked →
        ∃ g, w'.state.cache.graphs.get? url = some g ∧ w'.state.CanEvaluate g url) w := by
  unfold loadModule
  refine Op.keeps_look (loads_of_searches (.refl _)) ?_
  cases hmodule : w.state.cache.modules.get? url with
  -- a module that is imported already came from a load that came to something
  | some m =>
    refine Op.keeps_bind (Op.keeps_act (loads_of_searches (Session.searches_report _ _)) ?_)
    intro _ _ hl
    obtain ⟨g, hg, hc⟩ := hl url m hmodule
    exact ⟨g, hg, hc⟩
  -- the graph is built, its modules are compiled in order, and then the entry is imported
  | none =>
    refine Op.keeps_bind ((((keeps_buildGraph l limit url w).moved .refl).mono
      fun _ _ => loads_of_prepares).imp fun g w₁ hw₁ => ?_)
    obtain ⟨hg, hmoved⟩ := hw₁
    have hs₁ := sound_of_preparing hmoved hs
    have hd := hs₁.described url g hg
    cases hsort : g.topologicalSort with
    | error circle => exact fun _ h => nomatch h
    | ok order =>
      obtain ⟨hsorted, hmem⟩ := Graph.sorted_of_topologicalSort hd.wellFormed hsort
      refine Op.keeps_bind (((keeps_compileOrder hg hsort hsorted).moved .refl).imp
        fun _ w₂ hw₂ => ?_)
      obtain ⟨⟨hg₂, hcompiled⟩, hmoved₂⟩ := hw₂
      obtain ⟨hs₂, hgrows⟩ := sound_of_loading hmoved₂ hs₁
      obtain ⟨hloads, hend⟩ := loads_importEntry (hd.of_grows hgrows) hg₂
        fun m hm => hcompiled m ((hmem m).2 hm)
      exact Op.keeps_act hloads fun m hm _ => ⟨g, hloads.graphs url g hg₂, hend m hm⟩

/-! ## Calls -/

/-- What every call promises: a sound state stays sound. -/
def staying (l : Loader) (w w' : World Session ω) : Prop := l.Sound w.state → l.Sound w'.state

/-- A load leaves a state sound. -/
theorem staying_of_loading {entry : Url} {w w' : World Session ω} (h : l.loading entry w w') :
    l.staying w w' :=
  h.sound

/-- Loading what a text names leaves a state sound. -/
theorem keeps_load (limit : Nat) (entry : String) {w : World Session ω} (hs : l.Sound w.state) :
    (l.load limit entry).Keeps server l.staying (fun _ _ => True) w := by
  unfold load
  cases Url.parse entry with
  | error e => trivial
  | ok url =>
    exact ((keeps_loadModule limit url hs).mono fun _ _ => staying_of_loading).imp
      fun _ _ _ => trivial

/-- Every call leaves a state sound. -/
theorem keeps_perform (c : Call) {w : World Session ω} (hs : l.Sound w.state) :
    (l.perform c).Keeps server l.staying (fun _ _ => True) w := by
  cases c with
  | load limit entry =>
    exact Op.keeps_bind ((keeps_load limit entry hs).imp fun _ _ _ => trivial)
  | loadModule limit url =>
    exact Op.keeps_bind (((keeps_loadModule limit url hs).mono fun _ _ =>
      staying_of_loading).imp fun _ _ _ => trivial)
  | buildGraph limit entry =>
    exact Op.keeps_bind (((keeps_buildGraph l limit entry w).mono fun _ _ h => h.sound).imp
      fun _ _ _ => trivial)
  | fetchSource url =>
    exact Op.keeps_bind (Op.keeps_one (((keeps_fetchSource url [] w).alone.mono
      (fun _ _ h => h) fun _ _ h hs => hs.of_searches h).imp fun _ _ _ _ _ => trivial))
  | compileModules order =>
    refine keeps_compileModules (fun _ _ => True) (fun front m rest w₁ _ _ => ?_) trivial
    refine Op.keeps_one ((keeps_compileModule m (fun _ _ h hs => hs.of_searches h)
      fun _ _ _ _ hreg => hreg.sound).imp fun _ _ _ _ _ => trivial)
  | importCompiled url =>
    refine Op.keeps_bind (Op.keeps_act (fun hs => ?_) trivial)
    exact hs.of_imports (imports_importCompiled url w.state)
  | cleanup =>
    refine Op.keeps_bind (Op.keeps_act (fun _ => ?_) trivial)
    exact ⟨fun _ _ h => (nomatch h), fun _ _ _ h => (nomatch h)⟩

/-- For some steps of a call, a sound state stays sound. -/
theorem sound_of_staying {w w' : World Session ω} (h : ReflTransGen l.staying w w')
    (hs : l.Sound w.state) : l.Sound w'.state := by
  induction h with
  | refl => exact hs
  | tail _ h ih => exact h ih

/-- Calls of whatever kind lead to sound states, even if they have been given up. -/
theorem sound_of_reached {kind : Call → Prop} {w : World Session ω}
    (h : l.Reached server kind w) : l.Sound w.state := by
  induction h with
  | start x => exact sound_start l
  | call _ _ hsteps ih =>
    exact sound_of_staying ((keeps_perform _ ih).steps hsteps).1 ih

end Loader

end ModuleLoader
