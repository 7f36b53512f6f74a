import ModuleLoader.Proofs.Loader.Compilation

/-! # Dependencies first

When the transformer is called on a module in a load, the modules that it imports have been
compiled, and its specifiers lead to the modules that the graph has recorded for them.

* **`Loader.redirectSpecifier_eq_some_iff`** says what a specifier is replaced by.
* **`Loader.IsBehind`** is what holds of a module when its turn comes behind its imports.
* **`Loader.called_behind_dependencies`** says that it holds at every call of the transformer. -/

namespace ModuleLoader.Loader

variable {l : Loader} {s s' : Session} {ω : Type} {server : Server ω}

/-- A specifier that joins to a URL is replaced by the blob of the module that this stands for. -/
theorem redirectSpecifier_eq_some_iff {c : Cache Module} {m u : Url} {specifier blobUrl : String}
    (h : resolve? specifier m = some u) :
    l.redirectSpecifier c m specifier = some blobUrl ↔
      c.compiled.get? (l.lookupTarget c u) = some (.ready blobUrl) := by
  unfold redirectSpecifier specifierTarget? Cache.blobUrl?
  rw [h]
  cases hc : c.compiled.get? (l.lookupTarget c u) with
  | none => simp [hc]
  | some a => cases a <;> simp [hc, Artifact.blobUrl?]

/-- A bare specifier is left as it is. -/
theorem redirectSpecifier_of_isBare (c : Cache Module) (m : Url) {specifier : String}
    (h : isBare specifier = true) : l.redirectSpecifier c m specifier = none := by
  unfold redirectSpecifier specifierTarget?
  rw [resolve?_of_isBare specifier m h]
  rfl

/-- When a module is compiled in a load and the transformer is called, it is called on the source
of that module. -/
theorem CompilesNext.source {entry m : Url} {c : Compilation} (h : l.CompilesNext entry s m s')
    (hcall : s'.compilations = s.compilations ++ [c]) :
    c.url = m ∧ ∃ source, s.cache.sources.get? m = some source ∧
      s' = (l.register m source s).2 := by
  obtain ⟨-, -, hreg⟩ := h
  cases hreg with
  | source source hsource =>
    rw [compilations_register] at hcall
    have hlast := List.append_cancel_left hcall
    exact ⟨by rw [← (List.cons.inj hlast).1], source, hsource, rfl⟩
  | failure cause =>
    have hsame : s.compilations = s.compilations ++ [c] := hcall
    simp at hsame

/-- A specifier that was scanned in a module leads to a module that the graph has recorded for it:
to the URL that it joins to or what has been found for that. -/
theorem Records.specifierTarget? {g : Graph} {m u : Url} {imports : List (Url × Bool)} {d : Bool}
    {specifier : String} (h : l.Records s g m imports) (hu : resolve? specifier m = some u)
    (hmem : (u, d) ∈ imports) :
    ∃ t ∈ g.dependencies m, l.specifierTarget? s.cache m specifier = some t ∧
      (u.hasExtension = true ∧ t = u ∨ s.cache.resolutions.get? u = some t) := by
  refine ⟨l.lookupTarget s.cache u, h.mem_dependencies_iff.2 ⟨(u, d), hmem, rfl⟩, ?_,
    lookupTarget_settled (h.settled (u, d) hmem)⟩
  rw [Loader.specifierTarget?, hu]
  rfl

/-- A step of a load calls the transformer once, or not at all. -/
theorem Loads.compilations {entry : Url} (h : l.Loads entry s s') :
    s'.compilations = s.compilations ∨ ∃ c, s'.compilations = s.compilations ++ [c] := by
  rcases h.compiles with ⟨-, hsame⟩ | ⟨m, hnext⟩
  · exact .inl hsame
  · cases hnext.registers with
    | source source hsource => exact .inr ⟨_, compilations_register l m source s⟩
    | failure cause => exact .inl rfl

/-- A load that has called the transformer on a module did so in one of its steps. -/
theorem exists_call {limit : Nat} {entry m : Url} {w w' : World Session ω}
    {op : Op Session (Except Failure Module)} (hs : l.Sound w.state)
    (hload : Op.Steps server (l.loadModule limit entry, w) (op, w'))
    (hnew : ∀ c ∈ w.state.compilations, c.url ≠ m)
    (hcalled : ∃ c ∈ w'.state.compilations, c.url = m) :
    ∃ w₁ w₂ op₁ op₂ c, Op.Steps server (l.loadModule limit entry, w) (op₁, w₁) ∧
      Op.Step server (op₁, w₁) (op₂, w₂) ∧
      w₂.state.compilations = w₁.state.compilations ++ [c] ∧ c.url = m := by
  obtain ⟨trace, hpath⟩ := hload.exists_path
  obtain ⟨w₁, w₂, hmem, hbefore, c, hc, hurl⟩ := hpath.exists_step
    (p := fun v => ∃ c ∈ v.state.compilations, c.url = m)
    (fun ⟨c, hc, hurl⟩ => hnew c hc hurl) hcalled
  obtain ⟨op₁, op₂, hsteps, hstep, -⟩ := hpath.split hmem
  -- a step adds one call at most, so the call is the one on the module
  have hcall : ∃ c', w₂.state.compilations = w₁.state.compilations ++ [c'] := by
    rcases (((keeps_loadModule limit entry hs).steps hsteps).2.step hstep).1 with rfl | hloads
    · exact absurd ⟨c, hc, hurl⟩ hbefore
    · refine hloads.compilations.resolve_left fun hsame => ?_
      rw [hsame] at hc
      exact hbefore ⟨c, hc, hurl⟩
  obtain ⟨c', hcall⟩ := hcall
  rw [hcall, List.mem_append, List.mem_singleton] at hc
  rcases hc with hc | rfl
  · exact absurd ⟨c, hc, hurl⟩ hbefore
  · exact ⟨w₁, w₂, op₁, op₂, c, hsteps, hstep, hcall, hurl⟩

/-- What holds of a module when the transformer is called on it for a graph, if the discovery has
scanned some imports in it. -/
structure IsBehind (l : Loader) (s : Session) (g : Graph) (m : Url) (scanned : List (Url × Bool)) :
    Prop where
  /-- All that the graph has the module import has been compiled. -/
  compiled : ∀ dep ∈ g.dependencies m, s.cache.isCompiled dep = true
  /-- The graph has the module import what the URLs scanned stand for. -/
  recorded : ∀ t, t ∈ g.dependencies m ↔ ∃ i ∈ scanned, l.lookupTarget s.cache i.1 = t
  /-- Every specifier scanned leads to the module that the graph has for it, and is replaced exactly
  when that has code, by its blob. -/
  redirected : ∀ specifier u d, resolve? specifier m = some u → (u, d) ∈ scanned →
    ∃ t ∈ g.dependencies m, l.specifierTarget? s.cache m specifier = some t ∧
      (u.hasExtension = true ∧ t = u ∨ s.cache.resolutions.get? u = some t) ∧
      ∀ blobUrl, l.redirectSpecifier s.cache m specifier = some blobUrl ↔
        s.cache.compiled.get? t = some (.ready blobUrl)
  /-- Bare specifiers are never replaced. -/
  bare : ∀ specifier, isBare specifier = true → l.redirectSpecifier s.cache m specifier = none

/-- A module stands behind its imports when the graph has what was scanned in it, and these have
been compiled. -/
theorem isBehind_of_records {g : Graph} {m : Url} {scanned : List (Url × Bool)}
    (hrec : l.Records s g m scanned)
    (hdeps : ∀ dep ∈ g.dependencies m, s.cache.isCompiled dep = true) :
    l.IsBehind s g m scanned where
  compiled := hdeps
  recorded := fun t => hrec.mem_dependencies_iff
  redirected := by
    intro specifier u d hu hscanned
    obtain ⟨t, ht, htarget, hnamed⟩ := hrec.specifierTarget? hu hscanned
    refine ⟨t, ht, htarget, hnamed, fun blobUrl => ?_⟩
    rw [redirectSpecifier_eq_some_iff hu]
    rw [Loader.specifierTarget?, hu] at htarget
    rw [Option.some.inj htarget]
  bare := fun specifier => redirectSpecifier_of_isBare _ _

/-- Whenever a load calls the transformer on a module, it does so for a graph that it has sorted, on
the source that is remembered, and behind all that the graph has the module import. What the
discovery has scanned in the module is what the source imports, or nothing if the discovery missed
the module. -/
theorem called_behind_dependencies {kind : Call → Prop} {w w₁ w₂ : World Session ω} {limit : Nat}
    {entry : Url} {op₁ op₂ : Op Session (Except Failure Module)} {c : Compilation}
    (hw : l.Reached server kind w)
    (hload : Op.Steps server (l.loadModule limit entry, w) (op₁, w₁))
    (hstep : Op.Step server (op₁, w₁) (op₂, w₂))
    (hcall : w₂.state.compilations = w₁.state.compilations ++ [c]) :
    ∃ g order source scanned,
      w₁.state.cache.graphs.get? entry = some g ∧ g.topologicalSort = .ok order ∧
      c.url ∈ order ∧ w₁.state.cache.sources.get? c.url = some source ∧
      w₂.state = (l.register c.url source w₁.state).2 ∧
      (scanned = l.importsIn c.url source ∨ scanned = [] ∧ w₁.state.Missed c.url) ∧
      l.IsBehind w₁.state g c.url scanned := by
  have hs := sound_of_reached hw
  obtain ⟨hmoved, hkeeps⟩ := (keeps_loadModule limit entry hs).steps hload
  obtain ⟨hs₁, -⟩ := sound_of_loading hmoved hs
  -- the step is the turn of some module: no other step calls the transformer
  have hnext : ∃ m, l.CompilesNext entry w₁.state m w₂.state := by
    rcases (hkeeps.step hstep).1 with rfl | hloads
    · simp at hcall
    · refine hloads.compiles.resolve_left fun hsame => ?_
      rw [hsame.2] at hcall
      simp at hcall
  obtain ⟨m, hnext⟩ := hnext
  obtain ⟨rfl, source, hsource, heq⟩ := hnext.source hcall
  obtain ⟨g, order, hg, hsort, hmem, hdeps⟩ := hnext.listed
  have hd := hs₁.described entry g hg
  have hurl := ((Graph.sorted_of_topologicalSort hd.wellFormed hsort).2 c.url).1 hmem
  obtain ⟨scanned, hscan, hrec⟩ := hd.recorded c.url hurl
  refine ⟨g, order, source, scanned, hg, hsort, hmem, hsource, heq, hscan.imp_left ?_,
    isBehind_of_records hrec hdeps⟩
  rintro ⟨source', hsource', rfl⟩
  rw [Option.some.inj (hsource.symm.trans hsource')]

/-- A module that imports another. -/
def importing : List (String × String) :=
  [("main.js", "import \x7b u \x7d from \"./util.js\";\nexport default u;\n"),
    ("util.js", "export const u = 1;\n")]

/-- In a load of the module the transformer is called on it, behind what it imports. -/
theorem called_behind_dependencies_importing :
    ∃ w₁ w₂ op₁ op₂ c,
      Op.Steps (Server.ofModules importing)
        (default.loadModule 3 (fileUrl "main.js"), default.start ()) (op₁, w₁) ∧
      Op.Step (Server.ofModules importing) (op₁, w₁) (op₂, w₂) ∧
      w₂.state.compilations = w₁.state.compilations ++ [c] ∧ c.url = fileUrl "main.js" ∧
      ∃ g scanned, w₁.state.cache.graphs.get? (fileUrl "main.js") = some g ∧
        default.IsBehind w₁.state g c.url scanned := by
  have hok : ((default.loadModule 3 (fileUrl "main.js")).run (Server.ofModules importing)
      (default.start ())).1.any Except.isOk = true := by
    decide +kernel
  have hcalled : ∃ c ∈ ((default.loadModule 3 (fileUrl "main.js")).run
      (Server.ofModules importing) (default.start ())).2.state.compilations,
      c.url = fileUrl "main.js" := by
    decide +kernel
  obtain ⟨trace, m, hpath⟩ := Op.exists_path_of_run hok
  obtain ⟨w₁, w₂, op₁, op₂, c, hload, hstep, hcall, hurl⟩ :=
    exists_call (sound_start default) hpath.steps (fun _ h => nomatch h) hcalled
  have hstart : default.Reached (Server.ofModules importing) (fun _ => True) (default.start ()) :=
    .start ()
  obtain ⟨g, -, -, scanned, hg, -, -, -, -, -, hbehind⟩ :=
    called_behind_dependencies hstart hload hstep hcall
  exact ⟨w₁, w₂, op₁, op₂, c, hload, hstep, hcall, hurl, g, scanned, hg, hbehind⟩

end ModuleLoader.Loader
