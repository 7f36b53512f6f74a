import ModuleLoader.Proofs.Loader.Closedness
import ModuleLoader.Proofs.Loader.Consumption
import ModuleLoader.Proofs.Loader.History

/-! # Failures that an import may hide

The import of a compiled module goes by a graph that has the module, and tells of a module that has
failed if the graph leads there. What the sources lead to may be missing in it: a discovery that
missed a module has recorded nothing of what that imports; and a module that was compiled in an
order of the caller's own may be in no graph at all.

* **`Loader.TellsOfFailure`** is an import that tells of a module that has failed.
* **`Loader.LosesWay`** is a graph in which the way to a module ends at one that was missed.
* **`Loader.tells_of_reached`** says when a failure is told of wherever calls lead. -/

namespace ModuleLoader

open Relation

variable {ω : Type} {server : Server ω}

/-- The module has been compiled, to a failure. -/
def Session.HasFailed (s : Session) (m : Url) : Prop :=
  ∃ cause, s.cache.compiled.get? m = some (.failed m cause)

namespace Loader

variable {l : Loader} {s s' : Session} {g : Graph} {entry url m t failed : Url}

/-! ## Ways through a graph -/

/-- What came of an import is the failure of a module that the imported one leads to, and nothing is
remembered for it. -/
def TellsOfFailure (l : Loader) (s : Session) (url : Url) (r : Except Failure Module × Session) :
    Prop :=
  ∃ v cause, ReflTransGen (l.ImportsStatically s) url v ∧
    s.cache.compiled.get? v = some (.failed v cause) ∧ r.1 = .error (.failed v cause) ∧
    r.2.cache = s.cache

/-- The way from one module to another goes through a leaf of the graph that a discovery missed. -/
def LosesWay (l : Loader) (s : Session) (g : Graph) (url failed : Url) : Prop :=
  ∃ v t, ReflTransGen g.ImportsEagerly url v ∧ s.Missed v ∧ g.dependencies v = [] ∧
    l.ImportsStatically s v t ∧ ReflTransGen (l.ImportsStatically s) t failed

/-- What the source of a module of a graph imports is evaluated along with it, or the module is a
leaf that was missed. -/
theorem Describes.importsEagerly_or_missed (h : l.Describes s entry g) (hm : m ∈ g.urls)
    (ht : l.ImportsStatically s m t) :
    g.ImportsEagerly m t ∨ s.Missed m ∧ g.dependencies m = [] := by
  obtain ⟨source, r, u, hsource, hr, hd, hu, rfl⟩ := ht
  obtain ⟨imports, hscan, hrec⟩ := h.recorded m hm
  rcases hscan with ⟨source', hsource', rfl⟩ | ⟨rfl, hmissed⟩
  · obtain rfl := Option.some.inj (hsource.symm.trans hsource')
    exact .inl (hrec.mem_eagerEdges_iff.2 ⟨(u, false), mem_importsIn hr hd hu, rfl, rfl⟩)
  · exact .inr ⟨hmissed, hrec.dependencies_eq_nil⟩

/-- What a graph reaches from one of its modules, the sources lead to. -/
theorem Describes.leads_of_reaches (h : l.Describes s entry g) (hurl : url ∈ g.urls)
    (hm : ReflTransGen g.ImportsEagerly url m) :
    m ∈ g.urls ∧ ReflTransGen (l.ImportsStatically s) url m := by
  induction hm with
  | refl => exact ⟨hurl, .refl⟩
  | @tail v m _ hedge ih =>
    have hdep := hedge
    rw [Graph.ImportsEagerly, Graph.eagerEdges_eq] at hdep
    exact ⟨h.wellFormed.closed v m (List.mem_filter.1 hdep).1,
      ih.2.tail (h.importsStatically ih.1 hedge)⟩

/-- What the sources lead to from a module of a graph, the graph reaches, or it loses the way. -/
theorem Describes.reaches_or_losesWay (h : l.Describes s entry g) (hurl : url ∈ g.urls)
    (hm : ReflTransGen (l.ImportsStatically s) url m) :
    ReflTransGen g.ImportsEagerly url m ∨ l.LosesWay s g url m := by
  induction hm with
  | refl => exact .inl .refl
  | @tail v m _ hedge ih =>
    rcases ih with hreach | ⟨x, t, hx, hmissed, hleaf, ht, hlead⟩
    · have hv := (h.leads_of_reaches hurl hreach).1
      rcases h.importsEagerly_or_missed hv hedge with heager | ⟨hmissed, hleaf⟩
      · exact .inl (hreach.tail heager)
      · exact .inr ⟨v, m, hreach, hmissed, hleaf, hedge, .refl⟩
    · exact .inr ⟨x, t, hx, hmissed, hleaf, ht, hlead.tail hedge⟩

/-! ## Imports that go by a graph -/

/-- An import that goes by a graph which reaches a module that has failed tells of one. -/
theorem Describes.tellsOfFailure (h : l.Describes s entry g) (hs : l.Sound s) (hurl : url ∈ g.urls)
    (hmodule : s.cache.modules.get? url = none) (hcompiled : s.cache.isCompiled url = true)
    (hfailed : s.HasFailed failed) (hreach : ReflTransGen g.ImportsEagerly url failed) :
    l.TellsOfFailure s url (importBy (some g) url s) := by
  obtain ⟨cause, hcause⟩ := hfailed
  obtain ⟨a, ha⟩ := Option.isSome_iff_exists.1 hcompiled
  rw [importBy_of_compiled hmodule ha]
  cases a with
  | failed u cause =>
    obtain rfl := hs.failed url u cause ha
    exact ⟨u, cause, .refl, ha, rfl, rfl⟩
  | ready blobUrl =>
    have hdep : failed ∈ g.eagerDependencies url := by
      rcases reflTransGen_iff_eq_or_transGen.1 hreach with rfl | hreach
      · rw [hcause] at ha
        cases ha
      · exact (g.mem_eagerDependencies_iff url failed).2 hreach
    cases hfirst : Session.firstFailed s.cache ((some g).elim [] (·.eagerDependencies url)) with
    | none =>
      have hready := Session.firstFailed_eq_none_iff.1 hfirst failed hdep _ hcause
      cases hready
    -- the first that has failed is told of, which need not be the given one
    | some e =>
      obtain ⟨v, b⟩ := e
      obtain ⟨u, cause', rfl⟩ := Session.exists_failed_of_firstFailed hfirst
      obtain ⟨hv, hget, -⟩ := Session.of_firstFailed hfirst
      obtain rfl := hs.failed v u cause' hget
      have hlead := ((g.mem_eagerDependencies_iff url u).1 hv).to_reflTransGen
      rw [Session.importEager_of_firstFailed hfirst]
      exact ⟨u, cause', (h.leads_of_reaches hurl hlead).2, hget, rfl, rfl⟩

/-- An import that goes by no graph tells of a failure exactly if it is that of the module. -/
theorem tellsOfFailure_none_iff (hs : l.Sound s) (hmodule : s.cache.modules.get? url = none)
    (hcompiled : s.cache.isCompiled url = true) :
    l.TellsOfFailure s url (importBy none url s) ↔ s.HasFailed url := by
  obtain ⟨a, ha⟩ := Option.isSome_iff_exists.1 hcompiled
  rw [importBy_of_compiled hmodule ha]
  cases a with
  | failed u cause =>
    obtain rfl := hs.failed url u cause ha
    exact iff_of_true ⟨u, cause, .refl, ha, rfl, rfl⟩ ⟨cause, ha⟩
  | ready blobUrl =>
    refine iff_of_false ?_ ?_
    · rintro ⟨v, cause, -, -, hr, -⟩
      have hblob : Session.importEager url none (.ready blobUrl) s =
          Session.importBlob url blobUrl s := Session.importEager_of_ready rfl
      rw [hblob] at hr
      exact importBlob_ne_failed url v blobUrl cause s hr
    · rintro ⟨cause, hcause⟩
      rw [hcause] at ha
      cases ha

/-! ## Graphs that have a module -/

/-- Where no graph has a module, and each has its entry, none is found that has the module. -/
theorem graphContaining?_eq_none {c : Cache Module}
    (hentries : ∀ e ∈ c.graphs.entries, e.1 ∈ e.2.urls)
    (h : ∀ e ∈ c.graphs.entries, url ∉ e.2.urls) : c.graphContaining? url = none := by
  unfold Cache.graphContaining?
  cases hown : c.graphs.get? url with
  | some g =>
    have hmem := Memo.mem_entries_of_get? hown
    exact absurd (hentries _ hmem) (h _ hmem)
  | none =>
    refine List.find?_eq_none.2 fun g hg hcontains => ?_
    obtain ⟨e, he, rfl⟩ := List.mem_map.1 hg
    refine h e he ?_
    simpa [Graph.contains, Graph.urls] using hcontains

/-- Every compiled module is in a graph that is remembered. -/
def AllListed (s : Session) : Prop :=
  ∀ m, s.cache.isCompiled m = true → ∃ e ∈ s.cache.graphs.entries, m ∈ e.2.urls

/-- Compiled modules are in graphs as long as nothing is compiled. -/
theorem AllListed.of_sameCompiled (h : AllListed s)
    (hcompiled : s'.cache.compiled = s.cache.compiled)
    (hgraphs : ∀ e ∈ s.cache.graphs.entries, e ∈ s'.cache.graphs.entries) : AllListed s' := by
  intro m hm
  rw [Cache.isCompiled, hcompiled] at hm
  obtain ⟨e, he, hmem⟩ := h m hm
  exact ⟨e, hgraphs e he, hmem⟩

/-- Compiled modules are in graphs after every act that compiles in turn. -/
theorem AllListed.of_acts {possible : Url → Answer → Prop} {drawn : Session → Url → Graph → Prop}
    (h : AllListed s) (ha : l.Acts possible drawn False s s') : AllListed s' := by
  cases ha with
  | learns hl =>
    refine h.of_sameCompiled hl.sameCompiled ?_
    rw [hl.sameGraphs]
    exact fun _ => id
  | draws entry g hd hg heq =>
    subst heq
    exact h.of_sameCompiled rfl fun _ => Memo.mem_entries_insert_of_mem
  -- the module has its turn in the order of a graph that is remembered
  | registers m hnew hturn hreg =>
    obtain ⟨entry, g, hg, hm, -⟩ := hturn.resolve_left id
    obtain ⟨a, hc, -⟩ := hreg.registers.compiles
    intro v hv
    rw [hc.sameGraphs]
    obtain ⟨b, hb⟩ := Option.isSome_iff_exists.1 hv
    rw [hc.compiled] at hb
    rcases Memo.get?_insert_elim hb with hold | ⟨rfl, -, -⟩
    · exact h v (Option.isSome_iff_exists.2 ⟨b, hold⟩)
    · exact ⟨_, Memo.mem_entries_of_get? hg, hm⟩
  | imports url a ha heq =>
    subst heq
    have hi := Session.imports_importEager url (s.cache.graphContaining? url) a s
    refine h.of_sameCompiled hi.sameCompiled ?_
    rw [hi.sameGraphs]
    exact fun _ => id
  | clears heq =>
    subst heq
    exact fun _ h => nomatch h

/-- Where no caller has chosen an order, compiled modules are in graphs. -/
theorem allListed_of_reached {kind : Call → Prop} (hkind : ∀ order, ¬ kind (.compileModules order))
    {w : World Session ω} (hw : l.Reached server kind w) : AllListed w.state :=
  inv_of_reached (fun _ _ _ => True) False server.says_something (fun _ h => nomatch h)
    (fun w _ _ => mayDiscover_true server w) (fun _ _ _ h ha => h.of_acts ha)
    (fun order horder => hkind order horder) hw

/-- A graph that agrees with the answers of a server loses no way: it has what the source of each of
its modules imports. -/
theorem Faithful.not_losesWay {f : Url → Answer} (h : l.Faithful f s) (hs : l.AllDescribed s)
    {e : Url × Graph} (he : e ∈ s.cache.graphs.entries) (hurl : url ∈ e.2.urls) :
    ¬ l.LosesWay s e.2 url failed := by
  rintro ⟨v, t, hreach, -, hleaf, ⟨source, r, u, hsource, hr, -, hu, -⟩, -⟩
  have hv := ((hs e he).leads_of_reaches hurl hreach).1
  obtain ⟨hbare, hjoin⟩ := resolve?_eq_some_iff.1 hu
  have hclosure := isClosure_of_isGraphOf (h.graphs e he).isGraphOf
  have hdep := (hclosure.mem_dependencies_iff hv).2
    ⟨r, u, ⟨⟨source, h.sources v source hsource, hr⟩, hbare, hjoin⟩, rfl⟩
  rw [hleaf] at hdep
  cases hdep

/-! ## Wherever calls lead -/

/-- Wherever calls have led, even if they have been given up, let a compiled module that has not
been imported lead to one that has failed, by what the sources import otherwise than by `import()`.
By every graph that has the module, its import tells of a failure unless the graph loses the way.
The import goes by one of these graphs; or there is none, and then it tells of the failure of the
module alone. There is one if no caller has chosen an order of compilation, and none of them loses
the way if the server always answers a URL the same way. -/
theorem tells_of_reached {kind : Call → Prop} {w : World Session ω}
    (hw : l.Reached server kind w) (hcompiled : w.state.cache.isCompiled url = true)
    (hmodule : w.state.cache.modules.get? url = none) (hfailed : w.state.HasFailed failed)
    (hlead : ReflTransGen (l.ImportsStatically w.state) url failed) :
    (∀ e ∈ w.state.cache.graphs.entries, url ∈ e.2.urls →
      l.TellsOfFailure w.state url (importBy (some e.2) url w.state) ∨
        l.LosesWay w.state e.2 url failed) ∧
    ((∃ e ∈ w.state.cache.graphs.entries, url ∈ e.2.urls ∧
        importCompiled url w.state = importBy (some e.2) url w.state) ∨
      (∀ e ∈ w.state.cache.graphs.entries, url ∉ e.2.urls) ∧
        (l.TellsOfFailure w.state url (importCompiled url w.state) ↔ w.state.HasFailed url)) ∧
    ((∀ order, ¬ kind (.compileModules order)) →
      ∃ e ∈ w.state.cache.graphs.entries, url ∈ e.2.urls) ∧
    ((∃ f, server.AnswersBy f) → ∀ e ∈ w.state.cache.graphs.entries, url ∈ e.2.urls →
      ¬ l.LosesWay w.state e.2 url failed) := by
  have hs : l.Sound w.state := sound_of_reached hw
  have hall := allDescribed_of_reached hw
  refine ⟨fun e he hurl => ?_, ?_, fun hkind => allListed_of_reached hkind hw url hcompiled, ?_⟩
  · refine ((hall e he).reaches_or_losesWay hurl hlead).imp_left fun hreach => ?_
    exact (hall e he).tellsOfFailure hs hurl hmodule hcompiled hfailed hreach
  · rw [importCompiled_eq_importBy]
    by_cases hlisted : ∃ e ∈ w.state.cache.graphs.entries, url ∈ e.2.urls
    · obtain ⟨e, he, hurl⟩ := hlisted
      obtain ⟨e', he', hurl', hcontaining⟩ :=
        exists_graphContaining?_of_mem (fun e he => (hall e he).entry_mem) he hurl
      exact .inl ⟨e', he', hurl', by rw [hcontaining]⟩
    · have hnone : ∀ e ∈ w.state.cache.graphs.entries, url ∉ e.2.urls :=
        fun e he hurl => hlisted ⟨e, he, hurl⟩
      have hcontaining : w.state.cache.graphContaining? url = none :=
        graphContaining?_eq_none (fun e he => (hall e he).entry_mem) hnone
      rw [hcontaining]
      exact .inr ⟨hnone, tellsOfFailure_none_iff hs hmodule hcompiled⟩
  · rintro ⟨f, hf⟩ e he hurl
    exact (faithful_of_reached hf hw).not_losesWay hall he hurl

/-- A module that imports one that there is not. -/
def lacking : List (String × String) :=
  [("main.js", "import \"./gone.js\";\n")]

-- irreducible, lest the calls are run wherever two worlds are compared
/-- What comes of some calls. -/
@[irreducible]
def callLacking (calls : List Call) : Option Unit × World Session Unit :=
  (byLines.performAll calls).run (Server.ofModules lacking) (byLines.start ())

/-- Calls that end lead where they do. -/
theorem reached_callLacking {kind : Call → Prop} {calls : List Call} (hcalls : ∀ c ∈ calls, kind c)
    (hends : (callLacking calls).1 = some ()) :
    byLines.Reached (Server.ofModules lacking) kind (callLacking calls).2 := by
  unfold callLacking at hends ⊢
  exact Reached.performAll (.start ()) hcalls (Op.steps_of_fst_run hends)

/-- Whether the module is loaded, or both are compiled in an order of the caller's own, the one that
there is not has failed, and the module has code that imports it. -/
theorem fails_callLacking (calls : List Call)
    (hcalls : calls ∈ [[.loadModule 3 (fileUrl "main.js")],
      [.compileModules [fileUrl "gone.js", fileUrl "main.js"]]]) :
    (callLacking calls).1 = some () ∧
      (callLacking calls).2.state.cache.isCompiled (fileUrl "main.js") = true ∧
      (callLacking calls).2.state.cache.modules.get? (fileUrl "main.js") = none ∧
      (callLacking calls).2.state.HasFailed (fileUrl "gone.js") ∧
      byLines.ImportsStatically (callLacking calls).2.state (fileUrl "main.js")
        (fileUrl "gone.js") := by
  have hruns : ∀ calls ∈ [[.loadModule 3 (fileUrl "main.js")],
      [.compileModules [fileUrl "gone.js", fileUrl "main.js"]]],
      (callLacking calls).1 = some () ∧
      (callLacking calls).2.state.cache.isCompiled (fileUrl "main.js") = true ∧
      (callLacking calls).2.state.cache.modules.get? (fileUrl "main.js") = none ∧
      (callLacking calls).2.state.cache.compiled.get? (fileUrl "gone.js") =
        some (.failed (fileUrl "gone.js") (.status (fileUrl "gone.js") 404)) ∧
      (callLacking calls).2.state.cache.sources.get? (fileUrl "main.js") =
        some "import \"./gone.js\";\n" := by
    decide +kernel
  obtain ⟨hends, hcompiled, hmodule, hfailed, hsource⟩ := hruns calls hcalls
  refine ⟨hends, hcompiled, hmodule, ⟨_, hfailed⟩, _, ⟨"./gone.js", false⟩, fileUrl "gone.js",
    hsource, ?_, rfl, ?_, ?_⟩
  · decide +kernel
  · decide +kernel
  · exact (lookupTarget_of_hasExtension _ (by decide +kernel)).symm

/-- When the module has been loaded, in vain, its import tells of the one that there is not. -/
theorem tells_of_reached_lacking :
    ∃ w : World Session Unit,
      byLines.Reached (Server.ofModules lacking) (keepsOrder ·) w ∧
      w.state.cache.isCompiled (fileUrl "main.js") = true ∧
      w.state.cache.modules.get? (fileUrl "main.js") = none ∧
      w.state.HasFailed (fileUrl "gone.js") ∧
      byLines.ImportsStatically w.state (fileUrl "main.js") (fileUrl "gone.js") ∧
      byLines.TellsOfFailure w.state (fileUrl "main.js")
        (importCompiled (fileUrl "main.js") w.state) := by
  obtain ⟨hends, hcompiled, hmodule, hfailed, hlead⟩ :=
    fails_callLacking [.loadModule 3 (fileUrl "main.js")] (by simp)
  have hreached : byLines.Reached (Server.ofModules lacking) (keepsOrder ·) _ :=
    reached_callLacking (by decide) hends
  obtain ⟨htells, hgoes, hlisted, hloses⟩ :=
    tells_of_reached hreached hcompiled hmodule hfailed (.single hlead)
  refine ⟨_, hreached, hcompiled, hmodule, hfailed, hlead, ?_⟩
  rcases hgoes with ⟨e, he, hurl, heq⟩ | ⟨hnone, -⟩
  · rw [heq]
    exact (htells e he hurl).resolve_right (hloses ⟨_, answersBy_ofModules lacking⟩ e he hurl)
  · obtain ⟨e, he, hurl⟩ := hlisted fun _ h => nomatch h
    exact absurd hurl (hnone e he)

/-- When both have been compiled in an order of the caller's own, no graph has the module.
Its import tells of nothing, and the module is remembered as imported. -/
theorem hides_of_compileModules :
    ∃ w : World Session Unit,
      byLines.Reached (Server.ofModules lacking) (· ≠ .cleanup) w ∧
      w.state.cache.isCompiled (fileUrl "main.js") = true ∧
      w.state.cache.modules.get? (fileUrl "main.js") = none ∧
      w.state.HasFailed (fileUrl "gone.js") ∧
      byLines.ImportsStatically w.state (fileUrl "main.js") (fileUrl "gone.js") ∧
      (importCompiled (fileUrl "main.js") w.state).1.isOk = true ∧
      ((importCompiled (fileUrl "main.js") w.state).2.cache.modules.get?
        (fileUrl "main.js")).isSome = true := by
  obtain ⟨hends, hcompiled, hmodule, hfailed, hlead⟩ := fails_callLacking
    [.compileModules [fileUrl "gone.js", fileUrl "main.js"]] (by simp)
  have hreached : byLines.Reached (Server.ofModules lacking) (· ≠ .cleanup) _ :=
    reached_callLacking (by decide) hends
  exact ⟨_, hreached, hcompiled, hmodule, hfailed, hlead, by decide +kernel, by decide +kernel⟩

end Loader

end ModuleLoader
