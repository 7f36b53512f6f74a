import ModuleLoader.Proofs.Loader.ImportClosure

/-! # What every history leaves behind

As long as modules are compiled in the orders of their graphs, a module is compiled behind all that
it leads to, and what is remembered of it is what its source comes to with its specifiers replaced
by the blobs that are remembered now. So it does not matter which load has compiled it, nor what
else has been loaded or given up.

* **`Loader.Redirects`** is how the specifiers of a module are replaced, **`Loader.Transformed`**
  what came of its source, and **`Loader.Fated`** what came of the module.
* **`Loader.Consistent`** is a state in which all compiled modules are so; every act keeps it.
* **`Loader.consistent_of_reached`** says that calls lead to such states. -/

namespace ModuleLoader.Loader

open Relation

variable {ω : Type} {server : Server ω} {f : Url → Answer} {l : Loader} {s s' : Session}
variable {m t u entry : Url} {g : Graph}

/-! ## Edges of graphs -/

/-- One module leads to another by a reference that is not by `import()`. -/
def LeadsEagerly (l : Loader) (f : Url → Answer) (m t : Url) : Prop :=
  ∃ r u, l.Names f m r u ∧ r.isDynamic = false ∧ l.targetOf f u = t

/-- A module leads where it does so eagerly. -/
theorem LeadsEagerly.leadsTo (h : l.LeadsEagerly f m t) : l.LeadsTo f m t := by
  obtain ⟨r, u, hr, -, ht⟩ := h
  exact ⟨r, u, hr, ht⟩

namespace IsClosure

/-- A module of the graph imports those that it leads to. -/
theorem mem_dependencies_iff (h : l.IsClosure f entry g) (hm : m ∈ g.urls) :
    t ∈ g.dependencies m ↔ l.LeadsTo f m t := by
  rw [h.dependencies m hm, mem_targetsAt_iff]
  rfl

/-- What a module of the graph leads to is in the graph. -/
theorem mem_urls_of_leadsTo (h : l.IsClosure f entry g) (hm : m ∈ g.urls)
    (ht : l.LeadsTo f m t) : t ∈ g.urls :=
  (h.mem_urls t).2 (((h.mem_urls m).1 hm).tail ht)

/-- What a module of the graph imports in some steps, it leads to. -/
theorem transGen_leadsTo (h : l.IsClosure f entry g) (hm : m ∈ g.urls)
    (hreach : TransGen g.Imports m t) : TransGen (l.LeadsTo f) m t := by
  induction hreach with
  | single hedge => exact .single ((h.mem_dependencies_iff hm).1 hedge)
  | tail _ hedge ih =>
    have hmem := (h.mem_urls _).2 (((h.mem_urls m).1 hm).trans ih.to_reflTransGen)
    exact ih.tail ((h.mem_dependencies_iff hmem).1 hedge)

/-- A module of the graph imports otherwise than by `import()` alone those that it leads to
eagerly. -/
theorem importsEagerly_iff (h : l.IsClosure f entry g) (hm : m ∈ g.urls) :
    g.ImportsEagerly m t ↔ l.LeadsEagerly f m t := by
  rw [Graph.ImportsEagerly, Graph.eagerEdges_eq, List.mem_filter, decide_eq_true_eq,
    h.lazyDependencies m hm t, h.mem_dependencies_iff hm]
  constructor
  -- an edge that is not lazy has a reference that makes it so
  · rintro ⟨hleads, hnot⟩
    by_contra hnone
    refine hnot ⟨hleads, fun r u hr ht => ?_⟩
    by_contra hdynamic
    exact hnone ⟨r, u, hr, Bool.eq_false_iff.2 hdynamic, ht⟩
  · rintro ⟨r, u, hr, hstatic, ht⟩
    refine ⟨⟨r, u, hr, ht⟩, fun hlazy => ?_⟩
    rw [hlazy.2 r u hr ht] at hstatic
    cases hstatic

/-- What a module of the graph leads to eagerly in some steps, it imports so. -/
theorem reflTransGen_importsEagerly_iff (h : l.IsClosure f entry g) (hm : m ∈ g.urls) :
    ReflTransGen g.ImportsEagerly m t ↔ ReflTransGen (l.LeadsEagerly f) m t := by
  constructor
  · intro hreach
    induction hreach using ReflTransGen.head_induction_on with
    | refl => exact .refl
    | head hedge _ ih =>
      have hleads := (h.importsEagerly_iff hm).1 hedge
      exact .head hleads (ih (h.mem_urls_of_leadsTo hm hleads.leadsTo))
  · intro hreach
    induction hreach using ReflTransGen.head_induction_on with
    | refl => exact .refl
    | head hleads _ ih =>
      exact .head ((h.importsEagerly_iff hm).2 hleads)
        (ih (h.mem_urls_of_leadsTo hm hleads.leadsTo))

end IsClosure

/-! ## What comes of a module -/

/-- The specifiers of a module are replaced by the blobs of the modules that they lead to, where
these have code, and a specifier that names no URL is not replaced. -/
structure Redirects (l : Loader) (f : Url → Answer) (s : Session) (m : Url)
    (redirect : String → Option String) : Prop where
  /-- What names a URL is replaced by the blob of the module that this leads to. -/
  named : ∀ r u, l.Names f m r u → redirect r.specifier = s.cache.blobUrl? (l.targetOf f u)
  /-- What names none is not replaced. -/
  unnamed : ∀ specifier, resolve? specifier m = none → redirect specifier = none

/-- What came of calling the transformer is remembered: its code is in a blob, or its failure is
that of the module. -/
inductive Yields (l : Loader) (s : Session) (m : Url) : Except Failure Compiled → Artifact → Prop
  /-- The code is in a blob. -/
  | code {compiled : Compiled} {blobUrl : String}
      (hcall : ⟨m, .ok compiled.replaced⟩ ∈ s.compilations)
      (hblob : s.blobs.get? blobUrl = some ⟨l.config.blobMimeType, compiled.code⟩) :
      Yields l s m (.ok compiled) (.ready blobUrl)
  /-- There is no code. -/
  | failure {cause : Failure} (hcall : ⟨m, .error cause⟩ ∈ s.compilations) :
      Yields l s m (.error cause) (.failed m cause)

/-- What came of calling the transformer stays. -/
theorem Yields.of_grows {outcome : Except Failure Compiled} {a : Artifact}
    (h : l.Yields s m outcome a) (hcompilations : s.compilations <+: s'.compilations)
    (hblobs : ∀ blobUrl b, s.blobs.get? blobUrl = some b → s'.blobs.get? blobUrl = some b) :
    l.Yields s' m outcome a := by
  cases h with
  | code hcall hblob => exact .code (hcompilations.subset hcall) (hblobs _ _ hblob)
  | failure hcall => exact .failure (hcompilations.subset hcall)

/-- The transformer was called on the source of a module, with its specifiers replaced as they
should be, and what came of that is remembered. -/
structure Transformed (l : Loader) (f : Url → Answer) (s : Session) (m : Url) (source : String)
    (redirect : String → Option String) (a : Artifact) : Prop where
  /-- The source is remembered. -/
  remembered : s.cache.sources.get? m = some source
  /-- The specifiers were replaced as they should be. -/
  redirects : l.Redirects f s m redirect
  /-- What came of the call is remembered. -/
  yields : l.Yields s m (l.transformer m source redirect).outcome a

/-- What came of a module: the failure of its answer, or what came of its source. -/
inductive Fated (l : Loader) (f : Url → Answer) (s : Session) (m : Url) (a : Artifact) : Prop
  /-- There is no module at the URL. -/
  | missing (cause : Failure) (h : (f m).source m = .error cause) (ha : a = .failed m cause)
  /-- There is one. -/
  | transformed (source : String) (redirect : String → Option String)
      (hbody : (f m).moduleBody? = some source) (h : l.Transformed f s m source redirect a)

/-- What came of a module stays, as long as nothing new comes of the modules that it leads to. -/
theorem Fated.of_grows {a : Artifact} (h : l.Fated f s m a) (hg : s.Grows s')
    (hcompilations : s.compilations <+: s'.compilations)
    (hblobs : ∀ blobUrl b, s.blobs.get? blobUrl = some b → s'.blobs.get? blobUrl = some b)
    (htargets : ∀ t, l.LeadsTo f m t → s'.cache.blobUrl? t = s.cache.blobUrl? t) :
    l.Fated f s' m a := by
  cases h with
  | missing cause h ha => exact .missing cause h ha
  | transformed source redirect hbody h =>
    refine .transformed source redirect hbody ⟨hg.sources m source h.remembered, ?_,
      h.yields.of_grows hcompilations hblobs⟩
    refine ⟨fun r u hr => ?_, h.redirects.unnamed⟩
    rw [h.redirects.named r u hr, htargets _ ⟨r, u, hr, rfl⟩]

/-- What came of the modules that have been compiled stays when a new one is compiled. -/
theorem blobUrl?_of_compiles {a : Artifact} (hnew : s.cache.compiled.get? m = none)
    (hc : Compiles s s' m a) (ht : s.cache.isCompiled t = true) :
    s'.cache.blobUrl? t = s.cache.blobUrl? t := by
  have hne : t ≠ m := by
    rintro rfl
    rw [Cache.isCompiled, Memo.contains, hnew] at ht
    cases ht
  rw [Cache.blobUrl?, Cache.blobUrl?, hc.compiled, Memo.get?_insert_of_ne _ m t a hne]

/-- In its turn, the specifiers of a module are replaced as they should be. -/
theorem redirects_of_isTurn (hf : l.Faithful f s) {a : Artifact}
    (hnew : s.cache.compiled.get? m = none) (hturn : IsTurn s m) (hc : Compiles s s' m a) :
    l.Redirects f s' m (l.redirectSpecifier s.cache m) := by
  obtain ⟨entry, g, hg, hm, hdeps⟩ := hturn
  have hdrawn := hf.isDrawn_of_get? hg
  have hclosure := isClosure_of_isGraphOf hdrawn.isGraphOf
  refine ⟨fun r u hr => ?_, fun specifier hnone => ?_⟩
  · have hset := hdrawn.settled m hm (u, r.isDynamic) (mem_importsAt_iff.2 ⟨r, hr, rfl⟩)
    rw [redirectSpecifier, specifierTarget?, resolve?_eq_some_iff.2 ⟨hr.notBare, hr.joined⟩,
      Option.map_some, Option.bind_some, hf.lookupTarget_eq hset]
    refine (blobUrl?_of_compiles hnew hc (hdeps _ ?_)).symm
    exact (hclosure.mem_dependencies_iff hm).2 ⟨r, u, hr, rfl⟩
  · rw [redirectSpecifier, specifierTarget?, hnone]
    rfl

/-! ## Consistent states -/

/-- All that is remembered is as any history leaves it. -/
structure Consistent (l : Loader) (f : Url → Answer) (s : Session) : Prop
    extends l.Coherent s, l.Faithful f s where
  /-- A module was compiled behind those that it leads to. -/
  behind : ∀ front e back, s.cache.compiled.entries = front ++ e :: back →
    ∀ t, l.LeadsTo f e.1 t → t ∈ front.map Prod.fst
  /-- A module that was compiled is in a graph. -/
  listed : ∀ url, s.cache.isCompiled url = true → ∃ e ∈ s.cache.graphs.entries, url ∈ e.2.urls
  /-- What came of a module is what should. -/
  fated : ∀ url a, s.cache.compiled.get? url = some a → l.Fated f s url a
  /-- All that is evaluated along with an imported module has code. -/
  evaluated : ∀ url x, s.cache.modules.get? url = some x →
    ∀ t, ReflTransGen (l.LeadsEagerly f) url t → s.IsReady t

/-- Nothing is remembered at the start. -/
theorem consistent_start (l : Loader) (f : Url → Answer) : l.Consistent f (.start l.config) where
  toCoherent := coherent_start l
  toFaithful := faithful_start l f
  behind := fun front e back h => by simp [Session.start, Cache.empty, Memo.empty] at h
  listed := fun _ h => nomatch h
  fated := fun _ _ h => nomatch h
  evaluated := fun _ _ h => nomatch h

namespace Consistent

/-- What a compiled module leads to in some steps was compiled before it. -/
theorem mem_front (h : l.Consistent f s) (hreach : TransGen (l.LeadsTo f) m t) :
    ∀ front a back, s.cache.compiled.entries = front ++ (m, a) :: back →
      t ∈ front.map Prod.fst := by
  induction hreach using TransGen.head_induction_on with
  | single hleads => exact fun front a back heq => h.behind front _ back heq _ hleads
  | head hleads _ ih =>
    intro front a back heq
    obtain ⟨⟨_, a'⟩, he, rfl⟩ := List.mem_map.1 (h.behind front _ back heq _ hleads)
    obtain ⟨before, after, rfl⟩ := List.append_of_mem he
    have := ih before a' (after ++ _ :: back) (by rw [heq, List.append_assoc]; rfl)
    exact List.map_append ▸ List.mem_append_left _ this

/-- A compiled module is one of the compiled modules. -/
theorem exists_split {url : Url} (h : s.cache.isCompiled url = true) :
    ∃ front a back, s.cache.compiled.entries = front ++ (url, a) :: back := by
  obtain ⟨⟨_, a⟩, he, rfl⟩ := List.mem_map.1 (Memo.contains_iff_mem_keys.1 h)
  obtain ⟨front, back, heq⟩ := List.append_of_mem he
  exact ⟨front, a, back, heq⟩

/-- What a compiled module leads to in some steps has been compiled. -/
theorem isCompiled_of_reach (h : l.Consistent f s) (hm : s.cache.isCompiled m = true)
    (hreach : ReflTransGen (l.LeadsTo f) m t) : s.cache.isCompiled t = true := by
  rcases reflTransGen_iff_eq_or_transGen.1 hreach with rfl | hreach
  · exact hm
  · obtain ⟨front, a, back, heq⟩ := exists_split hm
    have ht := h.mem_front hreach front a back heq
    refine Memo.contains_iff_mem_keys.2 ?_
    rw [Memo.keys, heq, List.map_append]
    exact List.mem_append_left _ ht

/-- No compiled module leads to itself. -/
theorem not_leadsTo_self (h : l.Consistent f s) (hm : s.cache.isCompiled m = true) :
    ¬ TransGen (l.LeadsTo f) m m := by
  intro hreach
  obtain ⟨front, a, back, heq⟩ := exists_split hm
  have hfront := h.mem_front hreach front a back heq
  have hnodup := h.compiledOnce
  rw [Memo.keys, heq, List.map_append] at hnodup
  exact (List.nodup_append.1 hnodup).2.2 m hfront m List.mem_cons_self rfl

/-- A graph whose modules have all been compiled has no circle. -/
theorem acyclic (h : l.Consistent f s) (hclosure : l.IsClosure f entry g) (hg : g.WellFormed)
    (hcompiled : ∀ m ∈ g.urls, s.cache.isCompiled m = true) : g.Acyclic := by
  intro m hcircle
  have hm : m ∈ g.urls := by
    obtain ⟨v, -, hedge⟩ := TransGen.tail'_iff.1 hcircle
    exact hg.closed v m hedge
  exact h.not_leadsTo_self (hcompiled m hm) (hclosure.transGen_leadsTo hm hcircle)

/-- What is as it should be stays so when nothing is compiled and no graph forgotten, if the modules
imported are still as they should be. -/
theorem of_sameCompiled (h : l.Consistent f s) (hc : l.Coherent s') (hf : l.Faithful f s')
    (hg : s.Grows s') (hcompiled : s'.cache.compiled = s.cache.compiled)
    (hblobs : s'.blobs = s.blobs) (hcompilations : s'.compilations = s.compilations)
    (hgraphs : ∀ e ∈ s.cache.graphs.entries, e ∈ s'.cache.graphs.entries)
    (hevaluated : ∀ url x, s'.cache.modules.get? url = some x →
      s.cache.modules.get? url = some x ∨
        ∀ t, ReflTransGen (l.LeadsEagerly f) url t → s.IsReady t) :
    l.Consistent f s' where
  toCoherent := hc
  toFaithful := hf
  behind := hcompiled ▸ h.behind
  listed := by
    intro url hurl
    rw [Cache.isCompiled, hcompiled] at hurl
    exact (h.listed url hurl).imp fun e he => ⟨hgraphs e he.1, he.2⟩
  fated := by
    intro url a ha
    rw [hcompiled] at ha
    refine (h.fated url a ha).of_grows hg (hcompilations ▸ List.prefix_refl _) ?_ fun t _ => ?_
    · rw [hblobs]
      exact fun _ _ => id
    · rw [Cache.blobUrl?, Cache.blobUrl?, hcompiled]
  evaluated := by
    intro url x hx t ht
    refine hg.isReady ?_
    exact (hevaluated url x hx).elim (fun hold => h.evaluated url x hold t ht) fun hnew => hnew t ht

/-- What is as it should be stays so when what comes of a module is registered in its turn. -/
theorem of_compiles (h : l.Consistent f s) (hcoherent : l.Coherent s') (hf : l.Faithful f s')
    {a : Artifact} (hnew : s.cache.compiled.get? m = none) (hturn : IsTurn s m)
    (hc : Compiles s s' m a) (hcompilations : s.compilations <+: s'.compilations)
    (hblobs : ∀ blobUrl b, s.blobs.get? blobUrl = some b → s'.blobs.get? blobUrl = some b)
    (hfated : l.Fated f s' m a) : l.Consistent f s' where
  toCoherent := hcoherent
  toFaithful := hf
  behind := by
    obtain ⟨entry, g, hg, hm, hdeps⟩ := hturn
    have hclosure := isClosure_of_isGraphOf (h.isDrawn_of_get? hg).isGraphOf
    intro front e back heq t ht
    rw [hc.compiled, Memo.entries_insert_of_none hnew] at heq
    -- the module comes last: either the entry is its own, or it was there with the same before it
    rcases List.eq_nil_or_concat back with rfl | ⟨back, last, rfl⟩
    · obtain ⟨rfl, he⟩ := List.append_inj' heq rfl
      obtain rfl : (m, a) = e := by simpa using he
      exact Memo.contains_iff_mem_keys.1 (hdeps t ((hclosure.mem_dependencies_iff hm).2 ht))
    · rw [List.concat_eq_append, ← List.cons_append, ← List.append_assoc] at heq
      exact h.behind front e back (List.append_inj' heq rfl).1 t ht
  listed := by
    intro url hurl
    rw [hc.sameGraphs]
    rw [Cache.isCompiled, hc.compiled, Memo.contains_iff_mem_keys, Memo.keys_insert,
      mem_addOnce] at hurl
    rcases hurl with rfl | hold
    · obtain ⟨entry, g, hg, hm, -⟩ := hturn
      exact ⟨(entry, g), Memo.mem_entries_of_get? hg, hm⟩
    · exact h.listed url (Memo.contains_iff_mem_keys.2 hold)
  fated := by
    intro url b hb
    rw [hc.compiled] at hb
    rcases Memo.get?_insert_elim hb with hold | ⟨rfl, rfl, -⟩
    · refine (h.fated url b hold).of_grows hc.grows hcompilations hblobs fun t ht => ?_
      have hcompiled := h.isCompiled_of_reach (Option.isSome_iff_exists.2 ⟨b, hold⟩) (.single ht)
      exact blobUrl?_of_compiles hnew hc hcompiled
    · exact hfated
  evaluated := by
    intro url x hx t ht
    rw [hc.sameModules] at hx
    exact hc.grows.isReady (h.evaluated url x hx t ht)

end Consistent

/-! ## Every act keeps to it -/

/-- What comes of calling the transformer on a source is remembered when it is registered. -/
theorem yields_register (h : s.blobs.Numbered) (m : Url) (source : String) :
    l.Yields (l.register m source s).2 m (l.transformation s m source).outcome
      (artifactOf s m (l.transformation s m source).outcome) := by
  have hcall := mem_compilations_register l m source s
  cases houtcome : (l.transformation s m source).outcome with
  | error cause =>
    rw [houtcome] at hcall
    exact .failure hcall
  | ok compiled =>
    rw [houtcome] at hcall
    exact .code hcall (get?_blobs_register_self h houtcome)

/-- What comes of a module that is registered in its turn is what should. -/
theorem Consistent.of_registers (h : l.Consistent f s)
    (hreg : l.RegistersFrom (fun u a => a = f u) s m s') (hnew : s.cache.compiled.get? m = none)
    (hturn : IsTurn s m) (hcoherent : l.Coherent s') (hf : l.Faithful f s') :
    l.Consistent f s' := by
  cases hreg with
  | failure ha hcause =>
    subst ha
    exact h.of_compiles hcoherent hf hnew hturn (compiles_registerFailure m _ s)
      (List.prefix_refl _) (fun _ _ => id) (.missing _ hcause rfl)
  | source source hsource =>
    have hc := compiles_register l m source s
    refine h.of_compiles hcoherent hf hnew hturn hc (compilations_prefix_register l m source s)
      (fun _ _ => get?_blobs_register l m source) ?_
    exact .transformed source _ (h.sources m source hsource)
      ⟨hc.grows.sources m source hsource, redirects_of_isTurn h.toFaithful hnew hturn hc,
        yields_register h.numbered m source⟩

/-- Where a graph has a module, it is found, and all that the module leads to is in it. -/
theorem Consistent.exists_graphContaining? (h : l.Consistent f s)
    (hm : s.cache.isCompiled m = true) :
    ∃ entry g, s.cache.graphContaining? m = some g ∧ l.IsClosure f entry g ∧ m ∈ g.urls := by
  have hclosure : ∀ e ∈ s.cache.graphs.entries, l.IsClosure f e.1 e.2 :=
    fun e he => isClosure_of_isGraphOf (h.graphs e he).isGraphOf
  have hentries : ∀ e ∈ s.cache.graphs.entries, e.1 ∈ e.2.urls :=
    fun e he => ((hclosure e he).mem_urls e.1).2 .refl
  obtain ⟨e, he, hmem⟩ := h.listed m hm
  obtain ⟨e', he', hmem', hfound⟩ := exists_graphContaining?_of_mem hentries he hmem
  exact ⟨e'.1, e'.2, hfound, hclosure e' he', hmem'⟩

/-- When no module of the graph that is evaluated along with a compiled one has failed, all that it
leads to eagerly has code. -/
theorem Consistent.isReady_of_firstFailed (h : l.Consistent f s) (hclosure : l.IsClosure f entry g)
    (hm : m ∈ g.urls) (hcompiled : s.cache.isCompiled m = true)
    (hfirst : Session.firstFailed s.cache (g.eagerDependencies m) = none) (hready : s.IsReady m)
    (ht : ReflTransGen (l.LeadsEagerly f) m t) : s.IsReady t := by
  have hreach : ReflTransGen (l.LeadsTo f) m t :=
    ReflTransGen.mono (fun _ _ => LeadsEagerly.leadsTo) _ _ ht
  rcases reflTransGen_iff_eq_or_transGen.1 ((hclosure.reflTransGen_importsEagerly_iff hm).2 ht)
    with rfl | hdep
  · exact hready
  · obtain ⟨a, ha⟩ := Option.isSome_iff_exists.1 (h.isCompiled_of_reach hcompiled hreach)
    have hnot := Session.firstFailed_eq_none_iff.1 hfirst t ((g.mem_eagerDependencies_iff m t).2 hdep)
      a ha
    cases a with
    | ready blobUrl => exact ⟨blobUrl, ha⟩
    | failed u cause => cases hnot

/-- What is as it should be stays so when a compiled module is imported. -/
theorem Consistent.of_imports (h : l.Consistent f s) {a : Artifact}
    (ha : s.cache.compiled.get? m = some a)
    (heq : s' = (Session.importEager m (s.cache.graphContaining? m) a s).2)
    (hcoherent : l.Coherent s') (hf : l.Faithful f s') : l.Consistent f s' := by
  subst heq
  rcases importEager_cases m (s.cache.graphContaining? m) a s with
    ⟨blobUrl, rfl, hfirst, heq⟩ | ⟨v, u, cause, heq⟩
  · -- only a module without failures before it is imported, and then what it imports is ready
    have hm : s.cache.isCompiled m = true := Option.isSome_iff_exists.2 ⟨_, ha⟩
    obtain ⟨entry, g, hg, hclosure, hmem⟩ := h.exists_graphContaining? hm
    rw [hg] at hfirst
    rw [heq] at hcoherent hf ⊢
    have hi := Session.imports_importBlob m blobUrl s
    cases hread : s.readBlob blobUrl with
    | error reason =>
      rw [Session.importBlob_of_error hread]
      exact h
    | ok x =>
      rw [Session.importBlob_of_ok hread] at hi hcoherent hf ⊢
      refine h.of_sameCompiled hcoherent hf hi.toGrows rfl rfl rfl (fun _ he => he)
        fun url x' hx => ?_
      rcases Memo.get?_insert_elim hx with hold | ⟨rfl, -, -⟩
      · exact .inl hold
      · exact .inr fun t => h.isReady_of_firstFailed hclosure hmem hm hfirst ⟨blobUrl, ha⟩
  · rw [heq] at hcoherent hf ⊢
    exact h.of_sameCompiled hcoherent hf (Session.searches_report _ s).toGrows rfl rfl rfl
      (fun _ he => he) fun _ _ => .inl

/-- What is as it should be stays so after every act. -/
theorem Consistent.of_acts (h : l.Consistent f s)
    (ha : l.Acts (fun u a => a = f u) (l.IsDrawn f) False s s') : l.Consistent f s' := by
  have hcoherent := h.toCoherent.of_acts ha
  have hf := h.toFaithful.of_acts ha
  cases ha with
  | learns hl =>
    refine h.of_sameCompiled hcoherent hf hl.toGrows hl.sameCompiled hl.sameBlobs
      hl.sameCompilations ?_ ?_
    · rw [hl.sameGraphs]
      exact fun _ he => he
    · rw [hl.sameModules]
      exact fun _ _ => .inl
  | draws entry g hd hg heq =>
    subst heq
    refine h.of_sameCompiled hcoherent hf (prepares_insertGraph hd).toGrows rfl rfl rfl
      (fun e he => ?_) fun _ _ => .inl
    exact Memo.mem_entries_insert_of_mem he
  | registers m hnew hturn hreg =>
    exact h.of_registers hreg hnew (hturn.resolve_left id) hcoherent hf
  | imports url a hurl heq => exact h.of_imports hurl heq hcoherent hf
  | clears heq =>
    subst heq
    refine ⟨hcoherent, hf, fun front e back hentries => ?_, fun _ h => (nomatch h),
      fun _ _ h => (nomatch h), fun _ _ h => (nomatch h)⟩
    exact absurd hentries.symm (List.append_ne_nil_of_right_ne_nil _ (List.cons_ne_nil _ _))

/-- Calls that do not compile modules in orders of their own lead to states in which all is as it
should be. -/
theorem consistent_of_reached (hf : server.AnswersBy f) {kind : Call → Prop}
    (hkind : ∀ order, ¬ kind (.compileModules order)) {w : World Session ω}
    (hw : l.Reached server kind w) : l.Consistent f w.state :=
  inv_of_reached (l.IsDrawn f) False hf.says (consistent_start l f)
    (fun _ _ h => h.toFaithful.mayDiscover hf) (fun _ _ _ h ha => h.of_acts ha) hkind hw

end ModuleLoader.Loader
