import ModuleLoader.Proofs.Loader.Waves

/-! # The acts of a loader

Whatever a loader is asked for, each of its steps is one of a few acts: it learns something from an
answer, remembers a graph, registers what came of a module, imports a compiled module, or forgets
everything. What every act keeps holds in every world that calls lead to.

* **`Loader.Acts`** lists the acts.
* **`Loader.acts_perform`** says that calls do nothing else.
* **`Loader.inv_of_reached`** is the induction over calls. -/

namespace ModuleLoader.Loader

open Relation

variable {ω : Type} {server : Server ω} {possible : Url → Answer → Prop}
variable {drawn : Session → Url → Graph → Prop} {free : Prop} {l : Loader} {s s' : Session}

/-! ## The acts -/

/-- What comes of a module is remembered: of its source, or of an answer that has none. -/
inductive RegistersFrom (l : Loader) (possible : Url → Answer → Prop) (s : Session) (m : Url) :
    Session → Prop
  /-- The transformer is called on the source. -/
  | source (source : String) (h : s.cache.sources.get? m = some source) :
      RegistersFrom l possible s m (l.register m source s).2
  /-- The answer has no source. -/
  | failure {a : Answer} {cause : Failure} (ha : possible m a) (h : a.source m = .error cause) :
      RegistersFrom l possible s m (registerFailure m cause s).2

/-- What comes of a module is remembered in one of two ways. -/
theorem RegistersFrom.registers {m : Url} (h : l.RegistersFrom possible s m s') :
    l.Registers s m s' := by
  cases h with
  | source source h => exact .source source h
  | failure _ _ => exact .failure _

/-- It is the turn of a module of a graph: all that it imports has been compiled. -/
def IsTurn (s : Session) (m : Url) : Prop :=
  ∃ entry g, s.cache.graphs.get? entry = some g ∧ m ∈ g.urls ∧
    ∀ dep ∈ g.dependencies m, s.cache.isCompiled dep = true

/-- What one step may do. The graphs that are remembered are such as may be drawn, and modules are
compiled in their turn unless the order is free. -/
inductive Acts (l : Loader) (possible : Url → Answer → Prop) (drawn : Session → Url → Graph → Prop)
    (free : Prop) (s s' : Session) : Prop
  /-- Something is learnt. -/
  | learns (h : l.Learns possible s s')
  /-- A graph is remembered. -/
  | draws (entry : Url) (g : Graph) (hd : l.Describes s entry g) (hg : drawn s entry g)
      (h : s' = (Session.remember (fun c => c.insertGraph entry g) s).2)
  /-- What came of a module is registered. -/
  | registers (m : Url) (hnew : s.cache.compiled.get? m = none) (hturn : free ∨ IsTurn s m)
      (h : l.RegistersFrom possible s m s')
  /-- A compiled module is imported, or is not, as its graph says. -/
  | imports (url : Url) (a : Artifact) (ha : s.cache.compiled.get? url = some a)
      (h : s' = (Session.importEager url (s.cache.graphContaining? url) a s).2)
  /-- Everything is forgotten. -/
  | clears (h : s' = (Session.cleanup s).2)

/-- Every act leaves a state sound. -/
theorem Acts.sound (h : l.Acts possible drawn free s s') (hs : l.Sound s) : l.Sound s' := by
  cases h with
  | learns h => exact hs.of_searches h.toSearches
  | draws entry g hd hg h => exact h ▸ (prepares_insertGraph hd).sound hs
  | registers m hnew hturn h => exact h.registers.sound hs
  | imports url a ha h => exact h ▸ hs.of_imports (Session.imports_importEager url _ a s)
  | clears h => exact h ▸ ⟨fun _ _ h => (nomatch h), fun _ _ _ h => (nomatch h)⟩

/-- What a call promises. -/
def acting (l : Loader) (possible : Url → Answer → Prop) (drawn : Session → Url → Graph → Prop)
    (free : Prop) (w w' : World Session ω) : Prop :=
  l.Acts possible drawn free w.state w'.state

/-! ## Calls act -/

/-- Compiling a module learns its source and then registers what comes of it, unless it has been
compiled. -/
theorem acts_compileModule {promise : World Session ω → World Session ω → Prop}
    (hs : server.Says possible) (m : Url) {w : World Session ω}
    (hlearn : ∀ w₁ w₂ : World Session ω, l.Learns possible w₁.state w₂.state → promise w₁ w₂)
    (hregister : ∀ w₁ w₂ : World Session ω, l.Learns possible w.state w₁.state →
      w₁.state.cache.compiled.get? m = none → l.RegistersFrom possible w₁.state m w₂.state →
        promise w₁ w₂) :
    (l.compileModule m).Keeps server (fun _ _ => False) promise
      (fun _ _ w' => w.state.Grows w'.state ∧ w'.state.cache.isCompiled m = true) [] w := by
  unfold compileModule
  refine Task.keeps_bind (Task.keeps_act (hlearn _ _ (.refl l possible _)) fun w₁ hw₁ => ?_)
  obtain rfl : w₁ = w := Task.eq_of_alone hw₁
  split
  · next hdone => exact ⟨.refl _, hdone⟩
  · next hnew =>
    have hfetch := (inquires_fetchSource l (fun _ => True) hs m trivial [] w₁).alone
    refine Task.keeps_bind (((hfetch.moved .refl).mono (fun _ _ h => h)
      fun _ _ h => hlearn _ _ h.learns).imp fun r qs w₂ hr => ?_)
    obtain ⟨⟨hsource, hfailure⟩, hmoved⟩ := hr
    have hlearns : l.Learns possible w₁.state w₂.state := (Inquires.of_steps hmoved).learns
    have hnone : w₂.state.cache.compiled.get? m = none := by
      rw [hlearns.sameCompiled]
      exact Option.not_isSome_iff_eq_none.1 hnew
    -- what comes of the module is registered in the same step, whether or not there is a source
    suffices ∀ w₃ : World Session ω, l.RegistersFrom possible w₂.state m w₃.state →
        promise w₂ w₃ ∧ w₁.state.Grows w₃.state ∧ w₃.state.cache.isCompiled m = true by
      cases r with
      | ok source =>
        obtain ⟨hpromise, hend⟩ := this { w₂ with state := (l.register m source w₂.state).2 }
          (.source source (hsource source rfl))
        exact Task.keeps_act hpromise fun w₃ hw₃ => Task.eq_of_alone hw₃ ▸ hend
      | error cause =>
        obtain ⟨a, ha, hcause⟩ := hfailure cause rfl
        obtain ⟨hpromise, hend⟩ := this { w₂ with state := (registerFailure m cause w₂.state).2 }
          (.failure ha hcause)
        exact Task.keeps_act hpromise fun w₃ hw₃ => Task.eq_of_alone hw₃ ▸ hend
    intro w₃ hreg
    exact ⟨hregister w₂ w₃ hlearns hnone hreg, hlearns.toGrows.trans hreg.registers.grows,
      hreg.registers.isCompiled⟩

/-- The modules of a sorted graph are compiled in their turns. -/
theorem acts_compileOrder (hs : server.Says possible) {entry : Url} {g : Graph} {order : List Url}
    {w : World Session ω} (hg : w.state.cache.graphs.get? entry = some g)
    (hsorted : g.Sorted order) (hlisted : ∀ m ∈ order, m ∈ g.urls) :
    (l.compileModules order).Keeps server (l.acting possible drawn free)
      (fun _ w' => w'.state.cache.graphs.get? entry = some g) w := by
  refine (keeps_compileModules (fun front w' => w'.state.cache.graphs.get? entry = some g ∧
    ∀ m ∈ front, w'.state.cache.isCompiled m = true) (fun front m rest w₁ horder hinv => ?_)
    ⟨hg, by simp⟩).imp fun _ _ h => h.1
  obtain ⟨hg₁, hfront⟩ := hinv
  refine Op.keeps_one ((acts_compileModule hs m (fun _ _ h => .learns h)
    fun w₂ w₃ hw₂ hnew hreg => ?_).imp fun _ _ w₂ hw₂ _ => ?_)
  -- what the module imports comes before it in the order, and so has had its turn
  · refine .registers m hnew (.inr ⟨entry, g, hw₂.graphs entry g hg₁, ?_, ?_⟩) hreg
    · exact hlisted m (by simp [horder])
    · exact fun dep hdep =>
        hw₂.toGrows.isCompiled (hfront dep (hsorted.behind front m rest horder dep hdep))
  · refine ⟨hw₂.1.graphs entry g hg₁, fun v hv => ?_⟩
    rcases List.mem_append.1 hv with hv | hv
    · exact hw₂.1.isCompiled (hfront v hv)
    · rw [List.mem_singleton] at hv
      exact hv ▸ hw₂.2

/-- Importing the entry of a graph that is remembered is an act. -/
theorem acts_importEntry {entry : Url} {g : Graph} (hg : s.cache.graphs.get? entry = some g) :
    l.Acts possible drawn free s (importEntry entry g s).2 := by
  have hgraph : s.cache.graphContaining? entry = some g := by
    rw [Cache.graphContaining?, hg]
  cases ha : s.cache.compiled.get? entry with
  | none =>
    rw [importEntry_of_notCompiled ha]
    exact .learns (.refl l possible s)
  | some a =>
    rw [importEntry_of_compiled ha]
    exact .imports entry a ha (by rw [hgraph])

/-- Importing a compiled module is an act. -/
theorem acts_importCompiled (url : Url) (s : Session) :
    l.Acts possible drawn free s (importCompiled url s).2 := by
  rcases importCompiled_cases url s with heq | ⟨a, ha, heq⟩
  · rw [heq]
    exact .learns (.refl l possible s)
  · exact .imports url a ha (by rw [heq])

/-- The discoveries that may begin now end with graphs that may be drawn, and only explore. -/
def MayDiscover (l : Loader) (server : Server ω) (possible : Url → Answer → Prop)
    (drawn : Session → Url → Graph → Prop) (w : World Session ω) : Prop :=
  ∀ limit entry, (l.discover limit 0 (.start entry)).Keeps server
    (l.Explores possible fun _ => True)
    (fun r w' => l.Describes w'.state entry r.1 ∧
      ∀ s', l.Learns possible w'.state s' → drawn s' entry r.1) w

/-- A graph that is remembered by a sound state is well-formed. -/
theorem Sound.wellFormed (hs : l.Sound s) {entry : Url} {g : Graph}
    (hg : s.cache.graphs.get? entry = some g) : g.WellFormed :=
  (hs.described entry g hg).wellFormed

/-- Building a graph acts, and ends with a graph that is remembered for the entry. -/
theorem acts_buildGraph {w : World Session ω} (hdiscover : l.MayDiscover server possible drawn w)
    (limit : Nat) {entry : Url}
    (hgraphs : ∀ g, w.state.cache.graphs.get? entry = some g → g.WellFormed) :
    (l.buildGraph limit entry).Keeps server (l.acting possible drawn free)
      (fun g w' => w'.state.cache.graphs.get? entry = some g ∧ g.WellFormed) w := by
  unfold buildGraph
  refine Op.keeps_look (.learns (.refl l possible _)) ?_
  cases hgraph : w.state.cache.graphs.get? entry with
  | some g =>
    refine Op.keeps_bind (Op.keeps_act ?_ ⟨hgraph, hgraphs g hgraph⟩)
    exact .learns (learns_report (.graphHit entry) _)
  | none =>
    refine Op.keeps_bind ((((hdiscover limit entry).moved .refl).mono
      fun _ _ h => .learns h.learns).imp ?_)
    rintro ⟨graph, waves⟩ w₁ ⟨⟨hd, hg⟩, hmoved⟩
    have hnone : w₁.state.cache.graphs.get? entry = none := by
      rw [(Explores.of_steps hmoved).learns.sameGraphs, hgraph]
    have hreport : l.Learns possible w₁.state
        (Session.report (.graphBuilt entry graph.size waves) w₁.state).2 :=
      learns_report (.graphBuilt entry graph.size waves) _
    refine Op.keeps_bind (Op.keeps_act (.learns hreport) ?_)
    refine Op.keeps_act (.draws entry graph (hd.of_grows hreport.toGrows) (hg _ hreport) rfl) ?_
    refine ⟨Memo.get?_insert_eq_getD w₁.state.cache.graphs entry graph, ?_⟩
    change (((w₁.state.cache.graphs.insert entry graph).get? entry).getD graph).WellFormed
    rw [Memo.get?_insert_self, hnone]
    exact hd.wellFormed

/-- Loading a module acts. -/
theorem acts_loadModule (hserver : server.Says possible) {w : World Session ω}
    (hdiscover : l.MayDiscover server possible drawn w) (hs : l.Sound w.state) (limit : Nat)
    (url : Url) :
    (l.loadModule limit url).Keeps server (l.acting possible drawn free) (fun _ _ => True) w := by
  unfold loadModule
  refine Op.keeps_look (.learns (.refl l possible _)) ?_
  cases w.state.cache.modules.get? url with
  | some m =>
    refine Op.keeps_bind (Op.keeps_act (.learns ?_) trivial)
    exact learns_report (.moduleHit url) _
  | none =>
    refine Op.keeps_bind ((acts_buildGraph hdiscover limit fun _ => hs.wellFormed).imp
      fun g w₁ hw₁ => ?_)
    obtain ⟨hg, hwell⟩ := hw₁
    cases hsort : g.topologicalSort with
    | error circle => trivial
    | ok order =>
      obtain ⟨hsorted, hmem⟩ := Graph.sorted_of_topologicalSort hwell hsort
      refine Op.keeps_bind ((acts_compileOrder hserver hg hsorted fun m => (hmem m).1).imp
        fun _ w₂ hg₂ => ?_)
      exact Op.keeps_act (acts_importEntry hg₂) trivial

/-- Every call acts. -/
theorem acts_perform (hserver : server.Says possible) {w : World Session ω}
    (hdiscover : l.MayDiscover server possible drawn w) (hs : l.Sound w.state) (c : Call)
    (hfree : ∀ order, c = .compileModules order → free) :
    (l.perform c).Keeps server (l.acting possible drawn free) (fun _ _ => True) w := by
  cases c with
  | load limit entry =>
    refine Op.keeps_bind ?_
    unfold load
    cases Url.parse entry with
    | error e => trivial
    | ok url => exact (acts_loadModule hserver hdiscover hs limit url).imp fun _ _ _ => trivial
  | loadModule limit url =>
    exact Op.keeps_bind ((acts_loadModule hserver hdiscover hs limit url).imp fun _ _ _ => trivial)
  | buildGraph limit entry =>
    exact Op.keeps_bind ((acts_buildGraph hdiscover limit fun _ => hs.wellFormed).imp
      fun _ _ _ => trivial)
  | fetchSource url =>
    have hfetch := (inquires_fetchSource l (fun _ => True) hserver url trivial [] w).alone
    refine Op.keeps_bind (Op.keeps_one ((hfetch.mono (fun _ _ h => h) fun _ _ h => ?_).imp
      fun _ _ _ _ _ => trivial))
    exact .learns h.learns
  | compileModules order =>
    refine keeps_compileModules (fun _ _ => True) (fun front m rest w₁ _ _ => ?_) trivial
    refine Op.keeps_one ((acts_compileModule hserver m (fun _ _ h => .learns h)
      fun _ _ _ hnew hreg => ?_).imp fun _ _ _ _ _ => trivial)
    exact .registers m hnew (.inl (hfree order rfl)) hreg
  | importCompiled url =>
    exact Op.keeps_bind (Op.keeps_act (acts_importCompiled url w.state) trivial)
  | cleanup =>
    exact Op.keeps_bind (Op.keeps_act (.clears rfl) trivial)

/-! ## What all acts keep -/

/-- What all acts keep, for some steps. -/
theorem inv_of_acting {inv : Session → Prop} {w w' : World Session ω}
    (hact : ∀ s s', l.Sound s → inv s → l.Acts possible drawn free s s' → inv s')
    (h : ReflTransGen (l.acting possible drawn free) w w') (hs : l.Sound w.state)
    (hinv : inv w.state) : l.Sound w'.state ∧ inv w'.state := by
  induction h with
  | refl => exact ⟨hs, hinv⟩
  | tail _ h ih => exact ⟨h.sound ih.1, hact _ _ ih.1 ih.2 h⟩

/-- What holds of a new loader and is kept by all acts holds of every world that calls lead to. -/
theorem inv_of_reached (drawn : Session → Url → Graph → Prop) (free : Prop) {kind : Call → Prop}
    {inv : Session → Prop} (hserver : server.Says possible) (hstart : inv (.start l.config))
    (hdiscover : ∀ w : World Session ω, l.Sound w.state → inv w.state →
      l.MayDiscover server possible drawn w)
    (hact : ∀ s s', l.Sound s → inv s → l.Acts possible drawn free s s' → inv s')
    (hfree : ∀ order, kind (.compileModules order) → free) {w : World Session ω}
    (hw : l.Reached server kind w) : inv w.state := by
  suffices l.Sound w.state ∧ inv w.state from this.2
  induction hw with
  | start x => exact ⟨sound_start l, hstart⟩
  | @call w w' c op _ hc hsteps ih =>
    have hkeeps : (l.perform c).Keeps server (l.acting possible drawn free) (fun _ _ => True) w :=
      acts_perform hserver (hdiscover w ih.1 ih.2) ih.1 c
        fun order horder => hfree order (horder ▸ hc)
    exact inv_of_acting hact (hkeeps.steps hsteps).1 ih.1 ih.2

/-- Any server may be asked while a graph is discovered. -/
theorem mayDiscover_true (server : Server ω) (w : World Session ω) :
    l.MayDiscover server (fun _ _ => True) (fun _ _ _ => True) w := by
  intro limit entry
  have hwaves := (waveInvariant_true (ω := ω) l fun _ _ => True).keeps_attempt_discover
    server.says_something limit 0 (Discovered.start l w.state entry)
    (.inr (List.mem_singleton.2 rfl)) trivial
  exact hwaves.of_attempt.imp fun _ _ h => ⟨h.1, fun _ _ => trivial⟩

end ModuleLoader.Loader
