import ModuleLoader.Proofs.BlobStore
import ModuleLoader.Proofs.Loader.Acting
import ModuleLoader.Proofs.Loader.DependencyOrder

/-! # What is remembered fits together

The compiled modules, the imported modules, the sources and the blobs of a loader are tables of
their own. Whatever calls a loader has done or given up, they agree: the live blobs are those of the
modules with code, in the order in which these were compiled.

* **`Loader.Coherent`** says how the tables agree.
* **`Loader.Coherent.of_acts`** says that every act keeps that.
* **`Loader.coherent_of_reached`** says that it holds wherever calls lead, and what forgetting
  everything comes to there. -/

namespace ModuleLoader

open Relation

namespace Memo

variable {κ α : Type} [DecidableEq κ] {m : Memo κ α}

/-- A new key is put last. -/
theorem entries_insert_of_none {k : κ} (h : m.get? k = none) (v : α) :
    (m.insert k v).entries = m.entries ++ [(k, v)] := by
  rw [insert, if_neg]
  rw [contains, h]
  exact Bool.false_ne_true

/-- The value of a key is that of an entry. -/
theorem mem_entries_of_get? {k : κ} {v : α} (h : m.get? k = some v) : (k, v) ∈ m.entries := by
  obtain ⟨e, he, rfl⟩ := Option.map_eq_some_iff.1 h
  obtain rfl : e.1 = k := by simpa using List.find?_some he
  exact List.mem_of_find?_eq_some he

end Memo

namespace Loader

variable {ω : Type} {server : Server ω} {l : Loader} {s s' : Session}

/-- Where one of the graphs that are remembered has a module, and each has its entry, a graph that
has the module is found. -/
theorem exists_graphContaining?_of_mem {c : Cache Module} {e : Url × Graph} {url : Url}
    (hentries : ∀ e ∈ c.graphs.entries, e.1 ∈ e.2.urls) (he : e ∈ c.graphs.entries)
    (hurl : url ∈ e.2.urls) :
    ∃ e' ∈ c.graphs.entries, url ∈ e'.2.urls ∧ c.graphContaining? url = some e'.2 := by
  have hcontains : ∀ g : Graph, g.contains url = true ↔ url ∈ g.urls := fun g => by
    simp [Graph.contains, Graph.urls]
  unfold Cache.graphContaining?
  cases hown : c.graphs.get? url with
  | some g =>
    have hmem := Memo.mem_entries_of_get? hown
    exact ⟨(url, g), hmem, hentries _ hmem, rfl⟩
  | none =>
    cases hfind : c.graphs.values.find? (·.contains url) with
    | none =>
      have hnot := List.find?_eq_none.1 hfind e.2 (List.mem_map_of_mem he)
      exact absurd ((hcontains e.2).2 hurl) hnot
    | some g =>
      obtain ⟨e', he', rfl⟩ := List.mem_map.1 (List.mem_of_find?_eq_some hfind)
      have hcontained := List.find?_some (p := fun g : Graph => g.contains url) hfind
      exact ⟨e', he', (hcontains e'.2).1 hcontained, rfl⟩

/-- The code of a module is what the transformer made of its source, which is remembered: its blob
holds it. The specifiers were replaced by what had been compiled then. -/
def HoldsCode (l : Loader) (s : Session) (m : Url) (blobUrl : String) : Prop :=
  ∃ source compiled, ∃ earlier : Session, s.cache.sources.get? m = some source ∧
    earlier.Grows s ∧ (l.transformation earlier m source).outcome = .ok compiled ∧
    ⟨m, .ok compiled.replaced⟩ ∈ s.compilations ∧
    s.blobs.get? blobUrl = some ⟨l.config.blobMimeType, compiled.code⟩

/-- What is remembered fits together. -/
structure Coherent (l : Loader) (s : Session) : Prop where
  /-- A module that was imported has code, and was imported from its blob. -/
  imported : ∀ url m, s.cache.modules.get? url = some m →
    s.cache.compiled.get? url = some (.ready m.blobUrl)
  /-- A module with code has a source, and its blob holds what the transformer made of that. -/
  code : ∀ url blobUrl, s.cache.compiled.get? url = some (.ready blobUrl) →
    l.HoldsCode s url blobUrl
  /-- No module has been compiled twice. -/
  compiledOnce : s.cache.compiled.keys.Nodup
  /-- The live blobs are those of the modules with code. -/
  live : s.blobs.urls = s.cache.blobUrls
  /-- They have different URLs, and never those of earlier blobs. -/
  numbered : s.blobs.Numbered
  /-- A failure is that of the module it is remembered for. -/
  failed : ∀ url u cause, s.cache.compiled.get? url = some (.failed u cause) → u = url
  /-- What stands for a URL without extension is that URL with a configured extension. -/
  resolved : ∀ u t, s.cache.resolutions.get? u = some t → u.hasExtension = false ∧
    (t ∈ Resolver.candidates l.config u ∨ t = Resolver.fallback l.config u)

/-- At the start nothing is remembered. -/
theorem coherent_start (l : Loader) : l.Coherent (.start l.config) where
  imported := fun _ _ h => nomatch h
  code := fun _ _ h => nomatch h
  compiledOnce := List.nodup_nil
  live := rfl
  numbered := BlobStore.numbered_new _
  failed := fun _ _ _ h => nomatch h
  resolved := fun _ _ h => nomatch h

/-! ## One act after another -/

/-- The code of a module stays where it is while no blob is revoked. -/
theorem HoldsCode.of_grows {m : Url} {blobUrl : String} (h : l.HoldsCode s m blobUrl)
    (hg : s.Grows s') (hcompilations : s.compilations <+: s'.compilations)
    (hblobs : ∀ b, s.blobs.get? blobUrl = some b → s'.blobs.get? blobUrl = some b) :
    l.HoldsCode s' m blobUrl := by
  obtain ⟨source, compiled, earlier, hsource, hearlier, houtcome, hcall, hblob⟩ := h
  exact ⟨source, compiled, earlier, hg.sources m source hsource, hearlier.trans hg, houtcome,
    hcompilations.subset hcall, hblobs _ hblob⟩

/-- What fits together does so when nothing is compiled or revoked, if the modules imported and the
URLs resolved are still as they should be. -/
theorem Coherent.of_sameCompiled (h : l.Coherent s) (hg : s.Grows s')
    (hcompiled : s'.cache.compiled = s.cache.compiled) (hblobs : s'.blobs = s.blobs)
    (hcompilations : s'.compilations = s.compilations)
    (himported : ∀ url m, s'.cache.modules.get? url = some m →
      s.cache.modules.get? url = some m ∨ s.cache.compiled.get? url = some (.ready m.blobUrl))
    (hresolved : ∀ u t, s'.cache.resolutions.get? u = some t →
      s.cache.resolutions.get? u = some t ∨ u.hasExtension = false ∧
        (t ∈ Resolver.candidates l.config u ∨ t = Resolver.fallback l.config u)) :
    l.Coherent s' where
  imported := by
    intro url m hm
    rw [hcompiled]
    exact (himported url m hm).elim (h.imported url m) id
  code := by
    intro url blobUrl hb
    rw [hcompiled] at hb
    refine (h.code url blobUrl hb).of_grows hg (hcompilations ▸ List.prefix_refl _) ?_
    rw [hblobs]
    exact fun _ => id
  compiledOnce := by
    rw [hcompiled]
    exact h.compiledOnce
  live := by
    rw [hblobs, h.live, Cache.blobUrls, Cache.blobUrls, hcompiled]
  numbered := by
    rw [hblobs]
    exact h.numbered
  failed := by
    rw [hcompiled]
    exact h.failed
  resolved := fun u t hu => (hresolved u t hu).elim (h.resolved u t) id

/-- What comes of a new module is put behind what came of the others. -/
theorem blobUrls_of_insert {c c' : Cache Module} {m : Url} {a : Artifact}
    (hnew : c.compiled.get? m = none) (h : c'.compiled = c.compiled.insert m a) :
    c'.blobUrls = c.blobUrls ++ a.blobUrl?.toList := by
  rw [Cache.blobUrls, Cache.blobUrls, Memo.values, Memo.values, h,
    Memo.entries_insert_of_none hnew, List.map_append, List.filterMap_append]
  cases a <;> rfl

/-- What fits together does so when a module is registered that is new, if the blobs are those that
there were with the one of the module. -/
theorem Coherent.of_compiles (h : l.Coherent s) {m : Url} {a : Artifact}
    (hnew : s.cache.compiled.get? m = none) (hc : Compiles s s' m a)
    (hurls : s'.blobs.urls = s.blobs.urls ++ a.blobUrl?.toList) (hnumbered : s'.blobs.Numbered)
    (hblobs : ∀ blobUrl b, s.blobs.get? blobUrl = some b → s'.blobs.get? blobUrl = some b)
    (hcompilations : s.compilations <+: s'.compilations)
    (hcode : ∀ blobUrl, a = .ready blobUrl → l.HoldsCode s' m blobUrl)
    (hfailed : ∀ u cause, a = .failed u cause → u = m) : l.Coherent s' where
  imported := by
    intro url x hx
    rw [hc.sameModules] at hx
    exact hc.grows.compiled url _ (h.imported url x hx)
  code := by
    intro url blobUrl hb
    rw [hc.compiled] at hb
    rcases Memo.get?_insert_elim hb with hold | ⟨rfl, ha, -⟩
    · exact (h.code url blobUrl hold).of_grows hc.grows hcompilations (hblobs blobUrl)
    · exact hcode blobUrl ha.symm
  compiledOnce := by
    rw [hc.compiled, Memo.keys_insert]
    exact nodup_addOnce h.compiledOnce
  live := by rw [hurls, h.live, blobUrls_of_insert hnew hc.compiled]
  numbered := hnumbered
  failed := by
    intro url u cause hu
    rw [hc.compiled] at hu
    rcases Memo.get?_insert_elim hu with hold | ⟨rfl, ha, -⟩
    · exact h.failed url u cause hold
    · exact hfailed u cause ha.symm
  resolved := by
    rw [hc.sameResolutions]
    exact h.resolved

/-- What fits together does so when the failure of a new module is registered. -/
theorem Coherent.registerFailure (h : l.Coherent s) {m : Url}
    (hnew : s.cache.compiled.get? m = none) (cause : Failure) :
    l.Coherent (registerFailure m cause s).2 :=
  h.of_compiles hnew (compiles_registerFailure m cause s) (List.append_nil _).symm h.numbered
    (fun _ _ => id) (List.prefix_refl _) (fun _ h => nomatch h)
    fun _ _ ha => (Artifact.failed.inj ha).1.symm

/-- Registering a source puts one blob behind the others if there is code. -/
theorem urls_blobs_register (l : Loader) (m : Url) (source : String) (s : Session) :
    (l.register m source s).2.blobs.urls = s.blobs.urls ++
      (artifactOf s m (l.transformation s m source).outcome).blobUrl?.toList := by
  rw [register_eq]
  cases (l.transformation s m source).outcome with
  | ok compiled => exact BlobStore.urls_create _ _ _
  | error cause => exact (List.append_nil _).symm

/-- The blobs that there are stay when a source is registered. -/
theorem get?_blobs_register (l : Loader) (m : Url) (source : String) {s : Session}
    {blobUrl : String} {b : Blob} (h : s.blobs.get? blobUrl = some b) :
    (l.register m source s).2.blobs.get? blobUrl = some b := by
  rw [register_eq]
  cases (l.transformation s m source).outcome with
  | ok compiled => exact BlobStore.get?_create_of_some h _ _
  | error cause => exact h

/-- The new blob holds the code. -/
theorem get?_blobs_register_self (h : s.blobs.Numbered) {m : Url} {source : String}
    {compiled : Compiled} (houtcome : (l.transformation s m source).outcome = .ok compiled) :
    (l.register m source s).2.blobs.get? (BlobStore.urlOf s.blobs.origin s.blobs.next) =
      some ⟨l.config.blobMimeType, compiled.code⟩ := by
  rw [register_eq, houtcome]
  exact h.get?_create_self compiled.code l.config.blobMimeType

/-- The blobs stay numbered when a source is registered. -/
theorem numbered_blobs_register (l : Loader) (h : s.blobs.Numbered) (m : Url) (source : String) :
    (l.register m source s).2.blobs.Numbered := by
  rw [register_eq]
  cases (l.transformation s m source).outcome with
  | ok compiled => exact h.create _ _
  | error cause => exact h

/-- The call of the transformer is remembered. -/
theorem mem_compilations_register (l : Loader) (m : Url) (source : String) (s : Session) :
    ⟨m, (l.transformation s m source).outcome.map (·.replaced)⟩ ∈
      (l.register m source s).2.compilations := by
  rw [compilations_register]
  exact List.mem_append_right _ (List.mem_singleton.2 rfl)

/-- Earlier calls stay. -/
theorem compilations_prefix_register (l : Loader) (m : Url) (source : String) (s : Session) :
    s.compilations <+: (l.register m source s).2.compilations := by
  rw [compilations_register]
  exact List.prefix_append _ _

/-- What fits together does so when what comes of the source of a new module is registered. -/
theorem Coherent.register (h : l.Coherent s) {m : Url} {source : String}
    (hnew : s.cache.compiled.get? m = none) (hsource : s.cache.sources.get? m = some source) :
    l.Coherent (l.register m source s).2 := by
  have hc := compiles_register l m source s
  refine h.of_compiles hnew hc (urls_blobs_register l m source s)
    (numbered_blobs_register l h.numbered m source) (fun _ _ => get?_blobs_register l m source)
    (compilations_prefix_register l m source s) (fun blobUrl ha => ?_) fun u cause ha => ?_
  · cases houtcome : (l.transformation s m source).outcome with
    | error cause =>
      rw [houtcome] at ha
      cases ha
    | ok compiled =>
      have hcall := mem_compilations_register l m source s
      rw [houtcome] at ha hcall
      cases ha
      exact ⟨source, compiled, s, hc.grows.sources m source hsource, hc.grows, houtcome, hcall,
        get?_blobs_register_self h.numbered houtcome⟩
  · cases houtcome : (l.transformation s m source).outcome with
    | error cause' =>
      rw [houtcome] at ha
      cases ha
      rfl
    | ok compiled =>
      rw [houtcome] at ha
      cases ha

/-- A module is imported from the blob that is read. -/
theorem blobUrl_of_readBlob {blobUrl : String} {m : Module} (h : s.readBlob blobUrl = .ok m) :
    m.blobUrl = blobUrl := by
  unfold Session.readBlob at h
  cases hb : s.blobs.get? blobUrl with
  | none =>
    rw [hb] at h
    cases h
  | some blob =>
    rw [hb] at h
    dsimp only at h
    cases hnames : exportsOf blob.contents with
    | error reason =>
      rw [hnames] at h
      cases h
    | ok names =>
      rw [hnames] at h
      cases h
      rfl

/-- What importing a compiled module comes to: its blob is imported, when no module that is
evaluated along with it has failed; or else one of them has, and that is reported. -/
theorem importEager_cases (url : Url) (graph : Option Graph) (a : Artifact) (s : Session) :
    (∃ blobUrl, a = .ready blobUrl ∧
        Session.firstFailed s.cache (graph.elim [] (·.eagerDependencies url)) = none ∧
        Session.importEager url graph a s = Session.importBlob url blobUrl s) ∨
      ∃ f u cause, Session.importEager url graph a s =
        (.error (.failed u cause), (Session.report (.consumedFailed f cause) s).2) := by
  cases a with
  | failed u cause => exact .inr ⟨url, u, cause, Session.importEager_of_failed _ _ _ _ _⟩
  | ready blobUrl =>
    cases hfirst : Session.firstFailed s.cache (graph.elim [] (·.eagerDependencies url)) with
    | none => exact .inl ⟨blobUrl, rfl, rfl, Session.importEager_of_ready hfirst⟩
    | some e =>
      obtain ⟨f, failed⟩ := e
      obtain ⟨u, cause, rfl⟩ := Session.exists_failed_of_firstFailed hfirst
      exact .inr ⟨f, u, cause, Session.importEager_of_firstFailed hfirst⟩

/-- What fits together does so when a compiled module is imported. -/
theorem Coherent.importEager (h : l.Coherent s) {url : Url} {a : Artifact}
    (ha : s.cache.compiled.get? url = some a) (graph : Option Graph) :
    l.Coherent (Session.importEager url graph a s).2 := by
  rcases importEager_cases url graph a s with ⟨blobUrl, rfl, -, heq⟩ | ⟨f, u, cause, heq⟩
  · rw [heq]
    have hi := Session.imports_importBlob url blobUrl s
    cases hread : s.readBlob blobUrl with
    | error reason =>
      rw [Session.importBlob_of_error hread]
      exact h
    | ok m =>
      rw [Session.importBlob_of_ok hread] at hi ⊢
      refine h.of_sameCompiled hi.toGrows rfl rfl rfl (fun v x hx => ?_) fun _ _ => .inl
      rcases Memo.get?_insert_elim hx with hold | ⟨rfl, rfl, -⟩
      · exact .inl hold
      · exact .inr (blobUrl_of_readBlob hread ▸ ha)
  · rw [heq]
    exact h.of_sameCompiled (Session.searches_report _ s).toGrows rfl rfl rfl (fun _ _ => .inl)
      fun _ _ => .inl

/-- Where the live blobs are those of the modules with code, forgetting everything revokes them
all. -/
theorem blobs_cleanup (h : s.blobs.urls = s.cache.blobUrls) :
    (Session.cleanup s).2.blobs.blobs = [] := by
  have hurls : (Session.cleanup s).2.blobs.urls = [] := by
    change (s.cache.blobUrls.foldl BlobStore.revoke s.blobs).urls = []
    rw [BlobStore.urls_foldl_revoke, ← h, List.filter_eq_nil_iff]
    simp
  exact List.map_eq_nil_iff.1 hurls

/-- What fits together does so when everything is forgotten. -/
theorem Coherent.cleanup (h : l.Coherent s) : l.Coherent (Session.cleanup s).2 where
  imported := fun _ _ h => nomatch h
  code := fun _ _ h => nomatch h
  compiledOnce := List.nodup_nil
  live := by
    rw [BlobStore.urls, blobs_cleanup h.live]
    rfl
  numbered := by
    have hurls : (Session.cleanup s).2.blobs.urls = [] := by
      rw [BlobStore.urls, blobs_cleanup h.live]
      rfl
    refine ⟨hurls ▸ List.nodup_nil, fun url hurl => ?_⟩
    rw [hurls] at hurl
    cases hurl
  failed := fun _ _ _ h => nomatch h
  resolved := fun _ _ h => nomatch h

/-- What fits together does so after every act. -/
theorem Coherent.of_acts {possible : Url → Answer → Prop} {drawn : Session → Url → Graph → Prop}
    {free : Prop} (h : l.Coherent s) (ha : l.Acts possible drawn free s s') : l.Coherent s' := by
  cases ha with
  | learns hl =>
    refine h.of_sameCompiled hl.toGrows hl.sameCompiled hl.sameBlobs hl.sameCompilations ?_ ?_
    · rw [hl.sameModules]
      exact fun _ _ => .inl
    · exact fun u t hu => (hl.resolved u t hu).imp_right fun hnew => ⟨hnew.1, hnew.2.mem⟩
  | draws entry g hd hg heq =>
    subst heq
    exact h.of_sameCompiled (prepares_insertGraph hd).toGrows rfl rfl rfl (fun _ _ => .inl)
      fun _ _ => .inl
  | registers m hnew hturn hreg =>
    cases hreg with
    | source source hsource => exact h.register hnew hsource
    | failure _ _ => exact h.registerFailure hnew _
  | imports url a ha heq =>
    subst heq
    exact h.importEager ha _
  | clears heq =>
    subst heq
    exact h.cleanup

/-! ## Wherever calls lead -/

/-- Wherever calls of whatever kind lead, with any server and even if they have been given up, what
is remembered fits together; and to forget everything is to revoke all live blobs, to tell how many
there were, and to leave nothing remembered. -/
theorem coherent_of_reached {kind : Call → Prop} {w : World Session ω}
    (hw : l.Reached server kind w) :
    l.Coherent w.state ∧
      (Session.cleanup w.state).1 = w.state.blobs.size ∧
      (Session.cleanup w.state).2.blobs.size = 0 ∧
      (Session.cleanup w.state).2.cache.stats = ⟨0, 0, 0, 0, 0, 0⟩ := by
  have h : l.Coherent w.state :=
    inv_of_reached (fun _ _ _ => True) True server.says_something
      (coherent_start l) (fun w _ _ => mayDiscover_true server w) (fun _ _ _ h ha => h.of_acts ha)
      (fun _ _ => trivial) hw
  refine ⟨h, ?_, ?_, rfl⟩
  · change w.state.cache.blobUrls.length = w.state.blobs.blobs.length
    rw [← h.live, BlobStore.urls, List.length_map]
  · rw [BlobStore.size, blobs_cleanup h.live]
    rfl

/-- When the module and what it imports have been loaded, there are two live blobs, and to forget
everything is to revoke both. -/
theorem coherent_of_reached_importing :
    ∃ w : World Session Unit,
      default.Reached (Server.ofModules importing) (fun _ => True) w ∧ default.Coherent w.state ∧
      w.state.blobs.size = 2 ∧ (Session.cleanup w.state).1 = 2 := by
  have hrun : ((default.perform (.loadModule 3 (fileUrl "main.js"))).run
      (Server.ofModules importing) (default.start ())).1 = some () := by
    decide +kernel
  have hsize : ((default.perform (.loadModule 3 (fileUrl "main.js"))).run
      (Server.ofModules importing) (default.start ())).2.state.blobs.size = 2 := by
    decide +kernel
  have hreached : default.Reached (Server.ofModules importing) (fun _ => True) _ :=
    .call (.start ()) trivial (Op.steps_of_fst_run hrun)
  obtain ⟨hcoherent, hrevoked, -, -⟩ := coherent_of_reached hreached
  exact ⟨_, hreached, hcoherent, hsize, hrevoked.trans hsize⟩

end Loader

end ModuleLoader
