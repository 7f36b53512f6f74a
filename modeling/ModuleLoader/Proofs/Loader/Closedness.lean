import ModuleLoader.Proofs.Loader.DependencyOrder

/-! # What a module that has been loaded imports

A load that comes to something may hand out a module some of whose imports were never discovered:
one whose source could not be had while the graph was built, and could be had when the module was
compiled.

* **`Loader.ImportsStatically`** leads from a module to those that its source imports.
* **`Loader.IsReplaced`** is a module all of whose imports were replaced when it was compiled.
* **`Loader.IsClosed`** says so of all modules that an entry leads to.
* **`Loader.isClosed_of_load`** says when what has been loaded is closed. -/

namespace ModuleLoader.Loader

open Relation

variable {l : Loader} {s s' s'' : Session} {ω : Type} {server : Server ω}

/-! ## Modules that are closed -/

/-- One module imports another otherwise than by `import()`, as the source that is remembered of it
says. -/
def ImportsStatically (l : Loader) (s : Session) (m t : Url) : Prop :=
  ∃ source r u, s.cache.sources.get? m = some source ∧
    r ∈ (scan l.config.scanMode source m.pathText).references ∧ r.isDynamic = false ∧
    resolve? r.specifier m = some u ∧ t = l.lookupTarget s.cache u

/-- In the step between two states the module was compiled, and each of its imports otherwise than
by `import()` was replaced by the blob of a module that has code. -/
structure ReplacedIn (l : Loader) (s before after : Session) (m : Url) : Prop where
  /-- The module had not been compiled. -/
  new : before.cache.compiled.get? m = none
  /-- It has been compiled then. -/
  isCompiled : after.cache.isCompiled m = true
  /-- Its imports were replaced. -/
  replaced : ∀ source r u, s.cache.sources.get? m = some source →
    r ∈ (scan l.config.scanMode source m.pathText).references → r.isDynamic = false →
    resolve? r.specifier m = some u →
    ∃ blobUrl t, l.redirectSpecifier before.cache m r.specifier = some blobUrl ∧
      s.cache.compiled.get? t = some (.ready blobUrl)

/-- The module was compiled on the way with its imports replaced. -/
def IsReplaced (l : Loader) (trace : List (World Session ω × World Session ω)) (s : Session)
    (m : Url) : Prop :=
  ∃ w w', (w, w') ∈ trace ∧ l.ReplacedIn s w.state w'.state m

/-- Every module that the entry leads to has code, and was compiled with its imports replaced. -/
def IsClosed (l : Loader) (trace : List (World Session ω × World Session ω)) (s : Session)
    (entry : Url) : Prop :=
  ∀ m, ReflTransGen (l.ImportsStatically s) entry m → s.IsReady m ∧ l.IsReplaced trace s m

/-! ## Loading calls -/

/-- What calls that load promise: to do what a load may. -/
def working (l : Loader) (w w' : World Session ω) : Prop := ∃ entry, l.loading entry w w'

/-- For some steps, a sound state stays sound, linked modules stay linked, and what is remembered
stays. -/
theorem stays_of_working {w w' : World Session ω} (h : ReflTransGen l.working w w') :
    (l.Sound w.state → l.Sound w'.state) ∧ (w.state.Linked → w'.state.Linked) ∧
      w.state.Grows w'.state := by
  induction h with
  | refl => exact ⟨id, id, .refl _⟩
  | tail _ h ih =>
    obtain ⟨entry, h⟩ := h
    exact ⟨fun hs => h.sound (ih.1 hs), fun hl => h.linked (ih.2.1 hl), ih.2.2.trans h.toGrows⟩

/-- A call that loads does what a load may. -/
theorem keeps_perform_loading {c : Call} (hc : c.isLoading = true) {w : World Session ω}
    (hs : l.Sound w.state) :
    (l.perform c).Keeps server l.working (fun _ _ => True) w := by
  cases c with
  | load limit entry =>
    refine Op.keeps_bind ?_
    unfold load
    cases Url.parse entry with
    | error e => trivial
    | ok url =>
      exact ((keeps_loadModule limit url hs).mono fun _ _ h => ⟨url, h⟩).imp
        fun _ _ _ => trivial
  | loadModule limit url =>
    exact Op.keeps_bind (((keeps_loadModule limit url hs).mono fun _ _ h => ⟨url, h⟩).imp
      fun _ _ _ => trivial)
  | buildGraph limit entry =>
    exact Op.keeps_bind (((keeps_buildGraph l limit entry w).mono fun _ _ h =>
      ⟨entry, loads_of_prepares h⟩).imp fun _ _ _ => trivial)
  | fetchSource url =>
    refine Op.keeps_bind (Op.keeps_one (((keeps_fetchSource url [] w).alone.mono
      (fun _ _ h => h) fun _ _ h => ⟨url, loads_of_searches h⟩).imp fun _ _ _ _ _ => trivial))
  | compileModules order => cases hc
  | importCompiled url => cases hc
  | cleanup => cases hc

/-- Calls that load, one after the other, do what a load may. -/
theorem keeps_performAll_loading {calls : List Call} (hc : ∀ c ∈ calls, c.isLoading = true)
    {w : World Session ω} (hs : l.Sound w.state) :
    (l.performAll calls).Keeps server l.working (fun _ w' => ReflTransGen l.working w w') w := by
  induction calls generalizing w with
  | nil => exact .refl
  | cons c calls ih =>
    rw [List.forall_mem_cons] at hc
    refine Op.keeps_bind (((keeps_perform_loading hc.1 hs).moved .refl).imp fun _ w₁ h₁ => ?_)
    have hs₁ := (stays_of_working h₁.2).1 hs
    exact (ih hc.2 hs₁).imp fun _ w₂ h₂ => h₁.2.trans h₂

/-- When a load comes to something after calls that load, its entry can be evaluated as the graph
says that is remembered for it. -/
theorem keeps_load_of_calls (l : Loader) (server : Server ω) {calls : List Call}
    (hc : ∀ c ∈ calls, c.isLoading = true) (limit : Nat) (entry : Url) (x : ω) :
    (l.performAll calls >>= fun _ => l.loadModule limit entry).Keeps server l.working
      (fun r w' => ∀ m, r = .ok m →
        ∃ g, w'.state.cache.graphs.get? entry = some g ∧ w'.state.CanEvaluate g entry)
      (l.start x) := by
  have hstart : (l.start x).state.Linked := fun _ _ h => nomatch h
  refine Op.keeps_bind ((keeps_performAll_loading hc (sound_start l)).imp fun _ w₁ h₁ => ?_)
  obtain ⟨hsound, hlinked, -⟩ := stays_of_working h₁
  exact ((keeps_loadModule limit entry (hsound (sound_start l))).mono fun _ _ h =>
    ⟨entry, h⟩).imp fun r w' h m hm => h m hm (hlinked hstart)

/-! ## Imports that were scanned -/

/-- What a module imports otherwise than by `import()` is among what its source imports. -/
theorem mem_importsIn {m u : Url} {source : String} {r : Reference}
    (hr : r ∈ (scan l.config.scanMode source m.pathText).references) (hd : r.isDynamic = false)
    (hu : resolve? r.specifier m = some u) : (u, false) ∈ l.importsIn m source := by
  refine List.mem_filterMap.2 ⟨r, hr, ?_⟩
  rw [hu, hd]
  rfl

/-- What was scanned in a module that was never missed is what its source imports. -/
theorem Scanned.of_not_missed {m : Url} {imports : List (Url × Bool)} {source : String}
    (h : l.Scanned s m imports) (hm : ¬ s.Missed m) (hs : s.cache.sources.get? m = some source) :
    imports = l.importsIn m source := by
  obtain ⟨source', hs', rfl⟩ := h.resolve_right fun h => hm h.2
  rw [Option.some.inj (hs.symm.trans hs')]

/-- In a graph, what a module that was never missed imports otherwise than by `import()` is
evaluated along with it. -/
theorem Describes.importsEagerly {entry m t : Url} {g : Graph} (h : l.Describes s entry g)
    (hm : m ∈ g.urls) (hmissed : ¬ s.Missed m) (ht : l.ImportsStatically s m t) :
    g.ImportsEagerly m t := by
  obtain ⟨source, r, u, hsource, hr, hd, hu, rfl⟩ := ht
  obtain ⟨imports, hscan, hrec⟩ := h.recorded m hm
  rw [hscan.of_not_missed hmissed hsource] at hrec
  exact hrec.mem_eagerEdges_iff.2 ⟨(u, false), mem_importsIn hr hd hu, rfl, rfl⟩

/-- What a graph evaluates along with a module, the source of the module imports. -/
theorem Describes.importsStatically {entry m t : Url} {g : Graph} (h : l.Describes s entry g)
    (hm : m ∈ g.urls) (ht : g.ImportsEagerly m t) : l.ImportsStatically s m t := by
  obtain ⟨imports, hscan, hrec⟩ := h.recorded m hm
  obtain ⟨⟨u, isDynamic⟩, hi, hd, rfl⟩ := hrec.mem_eagerEdges_iff.1 ht
  obtain ⟨source, hsource, rfl⟩ | ⟨rfl, -⟩ := hscan
  · obtain ⟨r, hr, hu⟩ := List.mem_filterMap.1 hi
    obtain ⟨u', hu', heq⟩ := Option.map_eq_some_iff.1 hu
    cases heq
    exact ⟨source, r, u, hsource, hr, hd, hu', rfl⟩
  · cases hi

/-- A module that the entry leads to is evaluated along with it, or one that was missed leads to
it. -/
theorem Describes.reaches {entry m : Url} {g : Graph} (h : l.Describes s entry g)
    (hm : ReflTransGen (l.ImportsStatically s) entry m) :
    (∃ v, ReflTransGen (l.ImportsStatically s) entry v ∧ s.Missed v ∧
        ReflTransGen (l.ImportsStatically s) v m) ∨
      m ∈ g.urls ∧ (m = entry ∨ m ∈ g.eagerDependencies entry) := by
  induction hm with
  | refl => exact .inr ⟨h.entry_mem, .inl rfl⟩
  | @tail v m hv hedge ih =>
    rcases ih with ⟨u, hu, hmissed, hreach⟩ | ⟨hurl, hreach⟩
    · exact .inl ⟨u, hu, hmissed, hreach.tail hedge⟩
    -- the graph has what the module imports unless the module was missed
    by_cases hmissed : s.Missed v
    · exact .inl ⟨v, hv, hmissed, .single hedge⟩
    · have heager := h.importsEagerly hurl hmissed hedge
      have hmem : m ∈ g.eagerDependencies entry := by
        rw [Graph.mem_eagerDependencies_iff]
        rcases hreach with rfl | hreach
        · exact .single heager
        · exact ((g.mem_eagerDependencies_iff entry v).1 hreach).tail heager
      exact .inr ⟨h.wellFormed.mem_urls_of_mem_eagerDependencies hmem, .inr hmem⟩

/-- When a module that was never missed is compiled, and all that it imports otherwise than by
`import()` has code in the end, its imports are replaced. -/
theorem CompilesNext.replacedIn {entry m : Url} {s₁ s₂ : Session}
    (h : l.CompilesNext entry s₁ m s₂) (hs₁ : l.Sound s₁) (hg : s₁.Grows s)
    (hmissed : ¬ s.Missed m) (hready : ∀ t, l.ImportsStatically s m t → s.IsReady t) :
    l.ReplacedIn s s₁ s₂ m where
  new := h.new
  isCompiled := h.registers.isCompiled
  replaced := by
    intro source r u hsource hr hd hu
    obtain ⟨g, order, hgraph, hsort, hmem, hdeps⟩ := h.listed
    have hdescribes := hs₁.described entry g hgraph
    have hurl := ((Graph.sorted_of_topologicalSort hdescribes.wellFormed hsort).2 m).1 hmem
    obtain ⟨imports, hscan, hrec⟩ := hdescribes.recorded m hurl
    rw [(hscan.of_grows hg).of_not_missed hmissed hsource] at hrec
    have himport := mem_importsIn hr hd hu
    have hdep := hrec.mem_dependencies_iff.2 ⟨(u, false), himport, rfl⟩
    -- what the specifier stands for when the module is compiled is what it stands for in the end
    have htarget := lookupTarget_eq_of_grows (l := l) hg (hrec.settled (u, false) himport)
    obtain ⟨a, ha⟩ := Option.isSome_iff_exists.1 (hdeps _ hdep)
    obtain ⟨blobUrl, hblob⟩ := hready _ ⟨source, r, u, hsource, hr, hd, hu, rfl⟩
    rw [htarget] at hblob
    obtain rfl := Option.some.inj ((hg.compiled _ a ha).symm.trans hblob)
    exact ⟨blobUrl, _, (redirectSpecifier_eq_some_iff hu).2 ha, hblob⟩

/-! ## Closed loads -/

/-- A module whose imports were replaced led to modules that have code. -/
theorem ReplacedIn.isReady {m u : Url} {source : String} {r : Reference}
    (h : l.ReplacedIn s s' s'' m) (hg : s'.Grows s)
    (hsource : s.cache.sources.get? m = some source)
    (hr : r ∈ (scan l.config.scanMode source m.pathText).references) (hd : r.isDynamic = false)
    (hu : resolve? r.specifier m = some u) (hext : u.hasExtension = true) : s.IsReady u := by
  obtain ⟨blobUrl, -, hredirect, -⟩ := h.replaced source r u hsource hr hd hu
  rw [redirectSpecifier_eq_some_iff hu, lookupTarget_of_hasExtension _ hext] at hredirect
  exact ⟨blobUrl, hg.compiled u _ hredirect⟩

/-- A step of a load that compiles a module compiles the next one. -/
theorem Loads.compilesNext {entry m : Url} (h : l.Loads entry s s')
    (hnew : ¬ s.cache.isCompiled m = true) (hm : s'.cache.isCompiled m = true) :
    l.CompilesNext entry s m s' := by
  rcases h.compiles with ⟨hsame, -⟩ | ⟨v, hnext⟩
  · rw [Cache.isCompiled, hsame] at hm
    exact absurd hm hnew
  -- the turn of a module compiles no other
  · obtain ⟨a, hc, -⟩ := hnext.registers.compiles
    obtain ⟨b, hb⟩ := Option.isSome_iff_exists.1 hm
    rw [hc.compiled] at hb
    rcases Memo.get?_insert_elim hb with hold | ⟨rfl, -, -⟩
    · exact absurd (Option.isSome_iff_exists.2 ⟨b, hold⟩) hnew
    · exact hnext

/-- On the way through calls that load and a load behind them, a step that changes anything does
what a load may, in a sound state, and what is remembered then stays. -/
theorem loads_of_mem_trace {calls : List Call} (hc : ∀ c ∈ calls, c.isLoading = true)
    {limit : Nat} {entry : Url} {x : ω} {trace : List (World Session ω × World Session ω)}
    {d : Op Session (Except Failure Module) × World Session ω}
    (hrun : Op.Path server (l.performAll calls >>= fun _ => l.loadModule limit entry, l.start x)
      trace d) {w₁ w₂ : World Session ω} (hmem : (w₁, w₂) ∈ trace) :
    l.Sound w₁.state ∧ (w₂ = w₁ ∨ l.working w₁ w₂) ∧ w₁.state.Grows d.2.state := by
  obtain ⟨op₁, op₂, hbefore, hstep, hafter⟩ := hrun.split hmem
  obtain ⟨hmoved, hkeeps⟩ :=
    (keeps_load_of_calls l server hc limit entry x).steps hbefore
  obtain ⟨hmove, hkeeps⟩ := hkeeps.step hstep
  have hgrows := (stays_of_working (hkeeps.steps hafter).1).2.2
  refine ⟨(stays_of_working hmoved).1 (sound_start l), hmove, ?_⟩
  rcases hmove with rfl | ⟨_, hloads⟩
  · exact hgrows
  · exact hloads.toGrows.trans hgrows

/-- On the way to a state, a module was not compiled with its imports replaced if one of them has no
code in the end. -/
theorem not_isReplaced {calls : List Call} (hc : ∀ c ∈ calls, c.isLoading = true) {limit : Nat}
    {entry m u : Url} {x : ω} {trace : List (World Session ω × World Session ω)}
    {op : Op Session (Except Failure Module)} {w : World Session ω}
    (hrun : Op.Path server (l.performAll calls >>= fun _ => l.loadModule limit entry, l.start x)
      trace (op, w)) {source specifier : String}
    (hsource : w.state.cache.sources.get? m = some source)
    (hr : ⟨specifier, false⟩ ∈ (scan l.config.scanMode source m.pathText).references)
    (hu : resolve? specifier m = some u) (hext : u.hasExtension = true)
    (hready : ¬ w.state.IsReady u) : ¬ l.IsReplaced trace w.state m := by
  rintro ⟨w₁, w₂, hmem, hin⟩
  have hgrows := (loads_of_mem_trace hc hrun hmem).2.2
  exact hready (hin.isReady hgrows hsource hr rfl hu hext)

/-- In the end, a module with code that was never missed has been compiled with its imports
replaced, if all that it imports has code. -/
theorem isReplaced_of_not_missed {calls : List Call} (hc : ∀ c ∈ calls, c.isLoading = true)
    {limit : Nat} {entry m : Url} {x : ω} {trace : List (World Session ω × World Session ω)}
    {op : Op Session (Except Failure Module)} {w : World Session ω}
    (hrun : Op.Path server (l.performAll calls >>= fun _ => l.loadModule limit entry, l.start x)
      trace (op, w)) (hcode : w.state.IsReady m) (hmissed : ¬ w.state.Missed m)
    (hready : ∀ t, l.ImportsStatically w.state m t → w.state.IsReady t) :
    l.IsReplaced trace w.state m := by
  obtain ⟨blobUrl, hblob⟩ := hcode
  -- nothing has been compiled at the start
  obtain ⟨w₁, w₂, hmem, hnew, hdone⟩ := hrun.exists_step
    (p := fun w => w.state.cache.isCompiled m = true) (fun h => nomatch h)
    (Option.isSome_iff_exists.2 ⟨_, hblob⟩)
  obtain ⟨hs₁, hmove, hgrows⟩ := loads_of_mem_trace hc hrun hmem
  obtain ⟨entry', hloads⟩ := hmove.resolve_left fun h => hnew (h ▸ hdone)
  exact ⟨w₁, w₂, hmem, (hloads.compilesNext hnew hdone).replacedIn hs₁ hgrows hmissed hready⟩

/-- Calls that load are followed by a load that comes to something. The entry is closed exactly if
every module that it leads to and a discovery missed had its imports replaced all the same, and
leads to modules with code only. So it is closed if no discovery missed such a module. -/
theorem isClosed_of_load {calls : List Call} (hc : ∀ c ∈ calls, c.isLoading = true) {limit : Nat}
    {entry : Url} {x : ω} {trace : List (World Session ω × World Session ω)} {m : Module}
    {w : World Session ω}
    (hrun : Op.Path server (l.performAll calls >>= fun _ => l.loadModule limit entry, l.start x)
      trace (.done (.ok m), w)) :
    l.IsClosed trace w.state entry ↔
      ∀ v, ReflTransGen (l.ImportsStatically w.state) entry v → w.state.Missed v →
        l.IsReplaced trace w.state v ∧
          ∀ t, ReflTransGen (l.ImportsStatically w.state) v t → w.state.IsReady t := by
  constructor
  · intro hclosed v hv _
    exact ⟨(hclosed v hv).2, fun t ht => (hclosed t (hv.trans ht)).1⟩
  · intro hmissed
    obtain ⟨hmoved, hend⟩ := (keeps_load_of_calls l server hc limit entry x).steps hrun.steps
    obtain ⟨g, hg, hentry, hdeps⟩ := hend m rfl
    have hd := ((stays_of_working hmoved).1 (sound_start l)).described entry g hg
    have hready : ∀ v, ReflTransGen (l.ImportsStatically w.state) entry v →
        w.state.IsReady v := by
      intro v hv
      rcases hd.reaches hv with ⟨u, hu, hmiss, hreach⟩ | ⟨-, rfl | hmem⟩
      · exact (hmissed u hu hmiss).2 v hreach
      · exact hentry
      · exact hdeps v hmem
    intro v hv
    refine ⟨hready v hv, ?_⟩
    by_cases hmiss : w.state.Missed v
    · exact (hmissed v hv hmiss).1
    · exact isReplaced_of_not_missed hc hrun (hready v hv) hmiss fun t ht =>
        hready t (hv.tail ht)

/-- Builds the graph of a module, and then loads the module. -/
def buildAndLoad (entry : Url) : Op Session (Except Failure Module) :=
  default.performAll [.buildGraph 3 entry] >>= fun _ => default.loadModule 3 entry

/-- When both modules are there from the start, the load is closed. -/
theorem isClosed_of_load_importing :
    ∃ trace m w,
      Op.Path (Server.ofModules importing)
        (buildAndLoad (fileUrl "main.js"), default.start ()) trace (.done (.ok m), w) ∧
      default.IsClosed trace w.state (fileUrl "main.js") := by
  have hok : ((buildAndLoad (fileUrl "main.js")).run (Server.ofModules importing)
      (default.start ())).1.any Except.isOk = true := by
    decide +kernel
  have hevents : ((buildAndLoad (fileUrl "main.js")).run (Server.ofModules importing)
      (default.start ())).2.state.events.all
        (fun | .discoveryFailed _ _ => false | _ => true) = true := by
    decide +kernel
  obtain ⟨trace, m, hpath⟩ := Op.exists_path_of_run hok
  refine ⟨trace, m, _, hpath, (isClosed_of_load (by simp [Call.isLoading]) hpath).2 ?_⟩
  rintro v - ⟨e, he⟩
  exact absurd (List.all_eq_true.1 hevents _ he) Bool.false_ne_true

/-- A server that has some modules, each from the second request for it on. -/
def lateServer (modules : List (String × String)) : Server (List Url) := fun q seen =>
  (if q.url ∈ seen then answerOf modules q.url else .response ⟨404, none, ""⟩, seen ++ [q.url])

/-- When the first module is missed by the discovery and is there for its compilation, it is loaded
with an import that was never discovered. -/
theorem not_isClosed_after_miss :
    ∃ trace m w source,
      Op.Path (lateServer importing)
        (buildAndLoad (fileUrl "main.js"), default.start []) trace (.done (.ok m), w) ∧
      w.state.cache.sources.get? (fileUrl "main.js") = some source ∧
      ⟨"./util.js", false⟩ ∈
        (scan default.config.scanMode source (fileUrl "main.js").pathText).references ∧
      resolve? "./util.js" (fileUrl "main.js") = some (fileUrl "util.js") ∧
      ¬ w.state.IsReady (fileUrl "util.js") ∧
      ¬ default.IsReplaced trace w.state (fileUrl "main.js") ∧
      ¬ default.IsClosed trace w.state (fileUrl "main.js") := by
  have hok : ((buildAndLoad (fileUrl "main.js")).run (lateServer importing)
      (default.start [])).1.any Except.isOk = true := by
    decide +kernel
  have hsource : ((buildAndLoad (fileUrl "main.js")).run (lateServer importing)
      (default.start [])).2.state.cache.sources.get? (fileUrl "main.js") =
        some "import \x7b u \x7d from \"./util.js\";\nexport default u;\n" := by
    decide +kernel
  have hnone : ((buildAndLoad (fileUrl "main.js")).run (lateServer importing)
      (default.start [])).2.state.cache.compiled.get? (fileUrl "util.js") = none := by
    decide +kernel
  have hscan : (⟨"./util.js", false⟩ : Reference) ∈ (scan default.config.scanMode
      "import \x7b u \x7d from \"./util.js\";\nexport default u;\n"
      (fileUrl "main.js").pathText).references := by
    decide +kernel
  have hresolve : resolve? "./util.js" (fileUrl "main.js") = some (fileUrl "util.js") := by
    decide +kernel
  obtain ⟨trace, m, hpath⟩ := Op.exists_path_of_run hok
  have hready : ¬ ((buildAndLoad (fileUrl "main.js")).run (lateServer importing)
      (default.start [])).2.state.IsReady (fileUrl "util.js") := by
    rintro ⟨blobUrl, hblob⟩
    rw [hnone] at hblob
    cases hblob
  have hreplaced := not_isReplaced (by simp [Call.isLoading]) hpath hsource hscan hresolve
    (by decide +kernel) hready
  exact ⟨trace, m, _, _, hpath, hsource, hscan, hresolve, hready, hreplaced,
    fun h => hreplaced (h _ .refl).2⟩

end ModuleLoader.Loader
