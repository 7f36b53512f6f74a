import ModuleLoader.Loader.Call
import ModuleLoader.Proofs.Loader.Coherence
import ModuleLoader.Proofs.Loader.Learning
import ModuleLoader.Proofs.Loader.LockStep

/-! # Modules that are missing

A loader makes no difference between the ways in which a server can have no module at a URL: an
error, a page or no answer at all. Two servers that have the same modules are asked for the same, in
the same order, and all that comes of it is the same, but for the causes of failures.

* **`Artifact.withoutCause`** is what came of a module, without why it has no code.
* **`Session.SameButCauses`** is two states that are the same but for causes and reports.
* **`Loader.alike_respond`** says that every call goes on in step on such states. -/

namespace ModuleLoader

/-! ## The same but for causes -/

/-- What came of compiling a module, without why there is no code. -/
def Artifact.withoutCause : Artifact → Except Url String
  | .ready blobUrl => .ok blobUrl
  | .failed url _ => .error url

/-- The blob of a module does not depend on the cause. -/
theorem Artifact.toOption_withoutCause (a : Artifact) : a.withoutCause.toOption = a.blobUrl? := by
  cases a <;> rfl

/-- There is no code, whatever the cause. -/
theorem Artifact.isOk_withoutCause (a : Artifact) : a.withoutCause.isOk = !a.isFailed := by
  cases a <;> rfl

/-- Two failures are the same, or are those of a module that failed before, for whatever causes. -/
inductive Failure.Alike : Failure → Failure → Prop
  /-- The failures are the same. -/
  | same (e : Failure) : Alike e e
  /-- The module has failed for some cause. -/
  | failed (url : Url) (cause cause' : Failure) : Alike (.failed url cause) (.failed url cause')

/-- Two results are the same, or failures that are the same but for causes. -/
inductive Failure.AlikeResults {α : Type} : Except Failure α → Except Failure α → Prop
  /-- The results are the same. -/
  | ok (a : α) : AlikeResults (.ok a) (.ok a)
  /-- The failures are the same but for causes. -/
  | error {e e' : Failure} (h : e.Alike e') : AlikeResults (.error e) (.error e')

/-- What comes of two calls is the same but for causes. A source that cannot be fetched cannot be
fetched either way. -/
inductive Call.Result.Alike : Call.Result → Call.Result → Prop
  /-- The same module, or failures that are the same but for causes. -/
  | loaded {r r' : Except Failure Module} (h : Failure.AlikeResults r r') :
      Alike (.loaded r) (.loaded r')
  /-- The same graph. -/
  | built (g : Graph) : Alike (.built g) (.built g)
  /-- The same source, or none. -/
  | fetched {r r' : Except Failure String} (h : r.toOption = r'.toOption) :
      Alike (.fetched r) (.fetched r')
  /-- Modules have been compiled. -/
  | compiled : Alike .compiled .compiled
  /-- As many blobs have been revoked. -/
  | cleared (revoked : Nat) : Alike (.cleared revoked) (.cleared revoked)

namespace Memo

variable {κ α β : Type} [DecidableEq κ]

/-- The table with its values changed. -/
def map (f : α → β) (m : Memo κ α) : Memo κ β := ⟨m.entries.map fun e => (e.1, f e.2)⟩

/-- The value of a key is changed with the table. -/
theorem get?_map (f : α → β) (m : Memo κ α) (k : κ) : (m.map f).get? k = (m.get? k).map f := by
  unfold get? map
  rw [List.find?_map, Option.map_map, Option.map_map]
  rfl

/-- The same keys have values. -/
theorem contains_map (f : α → β) (m : Memo κ α) (k : κ) : (m.map f).contains k = m.contains k := by
  rw [contains, contains, get?_map, Option.isSome_map]

/-- A key is written with its changed value. -/
theorem insert_map (f : α → β) (m : Memo κ α) (k : κ) (v : α) :
    (m.insert k v).map f = (m.map f).insert k (f v) := by
  unfold insert
  rw [contains_map]
  split
  · rfl
  · rw [map, List.map_append]
    rfl

end Memo

/-- Two states are the same but for why modules have no code, and for what has been reported. -/
structure Session.SameButCauses (s s' : Session) : Prop where
  /-- The sources are the same. -/
  sources : s.cache.sources = s'.cache.sources
  /-- The same came of compiling modules, but for causes. -/
  compiled : s.cache.compiled.map Artifact.withoutCause =
    s'.cache.compiled.map Artifact.withoutCause
  /-- The imported modules are the same. -/
  modules : s.cache.modules = s'.cache.modules
  /-- The graphs are the same. -/
  graphs : s.cache.graphs = s'.cache.graphs
  /-- URLs without extension stand for the same. -/
  resolutions : s.cache.resolutions = s'.cache.resolutions
  /-- The blobs are the same, with the same contents. -/
  blobs : s.blobs = s'.blobs
  /-- As many modules have been imported. -/
  serial : s.serial = s'.serial
  /-- The transformer has been called for the same modules, and the same came of it. -/
  compilations : s.compilations = s'.compilations

namespace Session.SameButCauses

variable {s s' : Session}

/-- A state is the same as itself. -/
theorem refl (s : Session) : s.SameButCauses s := ⟨rfl, rfl, rfl, rfl, rfl, rfl, rfl, rfl⟩

/-- Reports make no difference. -/
theorem reportAll (h : s.SameButCauses s') (es es' : List Event) :
    (Session.reportAll es s).2.SameButCauses (Session.reportAll es' s').2 :=
  ⟨h.sources, h.compiled, h.modules, h.graphs, h.resolutions, h.blobs, h.serial, h.compilations⟩

/-- A report makes no difference. -/
theorem report (h : s.SameButCauses s') (e e' : Event) :
    (Session.report e s).2.SameButCauses (Session.report e' s').2 :=
  h.reportAll [e] [e']

/-- The same came of a module, but for the cause. -/
theorem get?_compiled (h : s.SameButCauses s') (u : Url) :
    (s.cache.compiled.get? u).map Artifact.withoutCause =
      (s'.cache.compiled.get? u).map Artifact.withoutCause := by
  rw [← Memo.get?_map, ← Memo.get?_map, h.compiled]

/-- The same modules have been compiled. -/
theorem isCompiled (h : s.SameButCauses s') (u : Url) :
    s.cache.isCompiled u = s'.cache.isCompiled u := by
  rw [Cache.isCompiled, Cache.isCompiled, ← Memo.contains_map Artifact.withoutCause, h.compiled,
    Memo.contains_map]

/-- The code of a module is in the same blob. -/
theorem blobUrl? (h : s.SameButCauses s') (u : Url) : s.cache.blobUrl? u = s'.cache.blobUrl? u := by
  have hbind : ∀ o : Option Artifact,
      o.bind Artifact.blobUrl? = (o.map Artifact.withoutCause).bind Except.toOption := by
    intro o
    rw [Option.bind_map]
    exact congrArg o.bind (funext fun a => a.toOption_withoutCause.symm)
  rw [Cache.blobUrl?, Cache.blobUrl?, hbind, hbind, h.get?_compiled]

/-- The same blobs are those of compiled modules. -/
theorem blobUrls (h : s.SameButCauses s') : s.cache.blobUrls = s'.cache.blobUrls := by
  have hvalues : ∀ m : Memo Url Artifact, m.values.filterMap Artifact.blobUrl? =
      (m.map Artifact.withoutCause).values.filterMap Except.toOption := by
    intro m
    have hmap : (m.map Artifact.withoutCause).values = m.values.map Artifact.withoutCause := by
      rw [Memo.values, Memo.values, Memo.map, List.map_map, List.map_map]
      rfl
    rw [hmap, List.filterMap_map]
    exact congrArg (m.values.filterMap ·) (funext fun a => a.toOption_withoutCause.symm)
  rw [Cache.blobUrls, Cache.blobUrls, hvalues, hvalues, h.compiled]

/-- URLs stand for the same. -/
theorem lookupTarget (h : s.SameButCauses s') (l : Loader) :
    l.lookupTarget s.cache = l.lookupTarget s'.cache :=
  Loader.lookupTarget_congr (fun u => by rw [h.resolutions]) h.isCompiled

end Session.SameButCauses

/-! ## Changes of such states -/

/-- What two changes of the state do is the same but for causes. -/
def ActAlike {α α' : Type} (results : α → α' → Prop) (f : StateM Session α)
    (f' : StateM Session α') : Prop :=
  ∀ s s', s.SameButCauses s' → results (f s).1 (f' s').1 ∧ (f s).2.SameButCauses (f' s').2

/-- A look at the state shows the same but for causes. -/
theorem actAlike_get : ActAlike Session.SameButCauses (get : StateM Session Session) get :=
  fun _ _ h => ⟨h, h⟩

/-- Doing nothing is alike if the results are. -/
theorem actAlike_pure {α α' : Type} {results : α → α' → Prop} {a : α} {a' : α'}
    (h : results a a') : ActAlike results (pure a) (pure a') :=
  fun _ _ hs => ⟨h, hs⟩

/-- Changes that go on alike are alike. -/
theorem ActAlike.bind {α α' β β' : Type} {between : β → β' → Prop} {results : α → α' → Prop}
    {f : StateM Session β} {f' : StateM Session β'} {g : β → StateM Session α}
    {g' : β' → StateM Session α'} (hf : ActAlike between f f')
    (hg : ∀ b b', between b b' → ActAlike results (g b) (g' b')) :
    ActAlike results (f >>= g) (f' >>= g') := by
  intro s s' h
  obtain ⟨hbetween, hs⟩ := hf s s' h
  exact hg _ _ hbetween _ _ hs

/-- Reporting several things is alike, whatever is reported. -/
theorem actAlike_reportAll (es es' : List Event) :
    ActAlike Eq (Session.reportAll es) (Session.reportAll es') :=
  fun _ _ h => ⟨rfl, h.reportAll es es'⟩

/-- Reporting is alike, whatever is reported. -/
theorem actAlike_report (e e' : Event) : ActAlike Eq (Session.report e) (Session.report e') :=
  fun _ _ h => ⟨rfl, h.report e e'⟩

/-- Calling the transformer for the same is alike if the same comes of it. -/
theorem actAlike_called (c : Compilation) :
    ActAlike Eq (modify fun s : Session => { s with compilations := s.compilations ++ [c] })
      (modify fun s : Session => { s with compilations := s.compilations ++ [c] }) :=
  fun _ _ h => ⟨rfl, { h with compilations := congrArg (· ++ [c]) h.compilations }⟩

/-- Remembering a source gives the same source. -/
theorem actAlike_insertSource (url : Url) (text : String) :
    ActAlike Eq (Session.remember fun c => c.insertSource url text)
      (Session.remember fun c => c.insertSource url text) := by
  intro s s' h
  have hsources : s.cache.sources.insert url text = s'.cache.sources.insert url text := by
    rw [h.sources]
  refine ⟨?_, { h with sources := hsources }⟩
  change ((s.cache.sources.insert url text).get? url).getD text =
    ((s'.cache.sources.insert url text).get? url).getD text
  rw [hsources]

/-- Remembering a graph gives the same graph. -/
theorem actAlike_insertGraph (entry : Url) (g : Graph) :
    ActAlike Eq (Session.remember fun c => c.insertGraph entry g)
      (Session.remember fun c => c.insertGraph entry g) := by
  intro s s' h
  have hgraphs : s.cache.graphs.insert entry g = s'.cache.graphs.insert entry g := by
    rw [h.graphs]
  refine ⟨?_, { h with graphs := hgraphs }⟩
  change ((s.cache.graphs.insert entry g).get? entry).getD g =
    ((s'.cache.graphs.insert entry g).get? entry).getD g
  rw [hgraphs]

/-- Remembering what a URL stands for is alike. -/
theorem actAlike_insertResolution (u t : Url) :
    ActAlike Eq (Session.remember fun c => ((), c.insertResolution u t))
      (Session.remember fun c => ((), c.insertResolution u t)) := by
  intro s s' h
  have hresolutions : s.cache.resolutions.insert u t = s'.cache.resolutions.insert u t := by
    rw [h.resolutions]
  exact ⟨rfl, { h with resolutions := hresolutions }⟩

/-- Remembering what came of a module is alike, but for the cause. -/
theorem Session.SameButCauses.insertCompiled {s s' : Session} (h : s.SameButCauses s') (u : Url)
    {a a' : Artifact} (ha : a.withoutCause = a'.withoutCause) :
    (Session.remember (fun c => ((), c.insertCompiled u a)) s).2.SameButCauses
      (Session.remember (fun c => ((), c.insertCompiled u a')) s').2 := by
  have hcompiled : (s.cache.compiled.insert u a).map Artifact.withoutCause =
      (s'.cache.compiled.insert u a').map Artifact.withoutCause := by
    rw [Memo.insert_map, Memo.insert_map, h.compiled, ha]
  exact { h with compiled := hcompiled }

namespace Loader

variable {l : Loader}

/-- Modules that have no code are remembered alike, for whatever causes. -/
theorem actAlike_registerFailure (url : Url) (cause cause' : Failure) :
    ActAlike Eq (registerFailure url cause) (registerFailure url cause') :=
  fun _ _ h => ⟨rfl,
    (h.report (.compileFailed url cause) (.compileFailed url cause')).insertCompiled url rfl⟩

/-- The code of a module is put into the same blob. -/
theorem actAlike_registerCode (url : Url) (code : String) :
    ActAlike Eq (l.registerCode url code) (l.registerCode url code) := by
  intro s s' h
  have hcreate : s.blobs.create code l.config.blobMimeType =
      s'.blobs.create code l.config.blobMimeType := by rw [h.blobs]
  have hblobs : Session.SameButCauses
      { s with blobs := (s.blobs.create code l.config.blobMimeType).2 }
      { s' with blobs := (s'.blobs.create code l.config.blobMimeType).2 } :=
    { h with blobs := congrArg Prod.snd hcreate }
  refine ⟨rfl, (hblobs.report (.registered url _) (.registered url _)).insertCompiled url ?_⟩
  rw [h.blobs]

/-- The transformer is asked to replace specifiers by the same. -/
theorem redirectSpecifier_of_sameButCauses {s s' : Session} (h : s.SameButCauses s')
    (importer : Url) : l.redirectSpecifier s.cache importer =
      l.redirectSpecifier s'.cache importer := by
  funext specifier
  have hblob : s.cache.blobUrl? = s'.cache.blobUrl? := funext h.blobUrl?
  rw [redirectSpecifier, redirectSpecifier, specifierTarget?, specifierTarget?, h.lookupTarget l,
    hblob]

/-- A source is compiled alike, and the same comes of it. -/
theorem actAlike_register (url : Url) (source : String) :
    ActAlike Eq (l.register url source) (l.register url source) := by
  unfold register
  refine actAlike_get.bind fun c c' hc => ?_
  simp only [redirectSpecifier_of_sameButCauses (l := l) hc url]
  refine (actAlike_reportAll _ _).bind fun _ _ _ => ?_
  -- the transformer has been asked the same, and so the same has come of it
  refine (actAlike_called _).bind fun _ _ _ => ?_
  cases (l.transformer url source (l.redirectSpecifier c'.cache url)).outcome with
  | ok compiled => exact actAlike_registerCode url compiled.code
  | error cause => exact actAlike_registerFailure url cause cause

/-- A blob is imported alike, and the same comes of it. -/
theorem actAlike_importBlob (url : Url) (blobUrl : String) :
    ActAlike Failure.AlikeResults (Session.importBlob url blobUrl)
      (Session.importBlob url blobUrl) := by
  intro s s' h
  have hread : s.readBlob blobUrl = s'.readBlob blobUrl := by
    rw [Session.readBlob, Session.readBlob, h.blobs, h.serial]
  cases hblob : s.readBlob blobUrl with
  | error reason =>
    rw [Session.importBlob_of_error hblob, Session.importBlob_of_error (hread ▸ hblob)]
    exact ⟨.error (.same _), h⟩
  | ok m =>
    rw [Session.importBlob_of_ok hblob, Session.importBlob_of_ok (hread ▸ hblob)]
    have hmodules : s.cache.modules.insert url m = s'.cache.modules.insert url m := by
      rw [h.modules]
    refine ⟨?_, { h with modules := hmodules, serial := congrArg (· + 1) h.serial }⟩
    have hgiven : (s.cache.insertModule url m).1 = (s'.cache.insertModule url m).1 := by
      rw [Cache.insertModule, Cache.insertModule, h.modules]
    rw [hgiven]
    exact .ok _

/-- The first module that has failed is the same, but for the cause. -/
theorem firstFailed_of_sameButCauses {s s' : Session} (h : s.SameButCauses s') (us : List Url) :
    (Session.firstFailed s.cache us).map (fun e => (e.1, e.2.withoutCause)) =
      (Session.firstFailed s'.cache us).map fun e => (e.1, e.2.withoutCause) := by
  -- whether a module has failed shows without the cause
  have hfailed : ∀ a : Artifact, a.isFailed = !a.withoutCause.isOk := by
    intro a
    rw [a.isOk_withoutCause, Bool.not_not]
  induction us with
  | nil => rfl
  | cons u us ih =>
    have hget := h.get?_compiled u
    rw [Session.firstFailed, Session.firstFailed]
    cases ha : s.cache.compiled.get? u with
    | none =>
      rw [ha, Option.map_none] at hget
      rw [Option.map_eq_none_iff.1 hget.symm]
      exact ih
    | some a =>
      rw [ha, Option.map_some] at hget
      obtain ⟨a', ha', hsame⟩ := Option.map_eq_some_iff.1 hget.symm
      rw [ha']
      dsimp only
      rw [hfailed a, hfailed a', hsame]
      split
      · rw [Option.map_some, Option.map_some, hsame]
      · exact ih

/-- A compiled module is imported alike. -/
theorem actAlike_importEager (url : Url) (graph : Option Graph) {a a' : Artifact}
    (ha : a.withoutCause = a'.withoutCause) :
    ActAlike Failure.AlikeResults (Session.importEager url graph a)
      (Session.importEager url graph a') := by
  intro s s' h
  cases a with
  | failed failedUrl cause =>
    cases a' with
    | failed failedUrl' cause' =>
      cases ha
      exact ⟨.error (.failed _ _ _), h.report _ _⟩
    | ready blobUrl => cases ha
  | ready blobUrl =>
    cases a' with
    | failed failedUrl' cause' => cases ha
    | ready blobUrl' =>
      cases ha
      -- the first dependency that has failed is the same in both, with whatever cause
      have hfirst := firstFailed_of_sameButCauses h (graph.elim [] (·.eagerDependencies url))
      cases hs : Session.firstFailed s.cache (graph.elim [] (·.eagerDependencies url)) with
      | none =>
        rw [hs, Option.map_none] at hfirst
        have hs' := Option.map_eq_none_iff.1 hfirst.symm
        rw [Session.importEager_of_ready hs, Session.importEager_of_ready hs']
        exact actAlike_importBlob url blobUrl s s' h
      | some e =>
        obtain ⟨dep, failed⟩ := e
        rw [hs, Option.map_some] at hfirst
        obtain ⟨⟨dep', failed'⟩, hs', hsame⟩ := Option.map_eq_some_iff.1 hfirst.symm
        obtain ⟨u, cause, rfl⟩ := Session.exists_failed_of_firstFailed hs
        obtain ⟨u', cause', rfl⟩ := Session.exists_failed_of_firstFailed hs'
        cases hsame
        rw [Session.importEager_of_firstFailed hs, Session.importEager_of_firstFailed hs']
        exact ⟨.error (.failed _ _ _), h.report _ _⟩

/-- The entry of a graph is imported alike. -/
theorem actAlike_importEntry (entry : Url) (g : Graph) :
    ActAlike Failure.AlikeResults (importEntry entry g) (importEntry entry g) := by
  intro s s' h
  have hget := h.get?_compiled entry
  cases ha : s.cache.compiled.get? entry with
  | none =>
    rw [ha, Option.map_none] at hget
    have hnone := Option.map_eq_none_iff.1 hget.symm
    rw [importEntry_of_notCompiled ha, importEntry_of_notCompiled hnone]
    exact ⟨.error (.same _), h⟩
  | some a =>
    rw [ha, Option.map_some] at hget
    obtain ⟨a', ha', hsame⟩ := Option.map_eq_some_iff.1 hget.symm
    rw [importEntry_of_compiled ha, importEntry_of_compiled ha']
    exact actAlike_importEager entry (some g) hsame.symm s s' h

/-- A compiled module is imported alike on its own. -/
theorem actAlike_importCompiled (url : Url) :
    ActAlike Failure.AlikeResults (importCompiled url) (importCompiled url) := by
  unfold importCompiled
  refine actAlike_get.bind fun c c' hc => ?_
  have hgraph : c.cache.graphContaining? url = c'.cache.graphContaining? url := by
    rw [Cache.graphContaining?, Cache.graphContaining?, hc.graphs]
  have hget := hc.get?_compiled url
  simp only [hc.modules, hgraph]
  cases c'.cache.modules.get? url with
  | some m => exact actAlike_pure (.ok m)
  | none =>
    cases ha : c.cache.compiled.get? url with
    | none =>
      rw [ha, Option.map_none] at hget
      rw [Option.map_eq_none_iff.1 hget.symm]
      exact actAlike_pure (.error (.same _))
    | some a =>
      rw [ha, Option.map_some] at hget
      obtain ⟨a', ha', hsame⟩ := Option.map_eq_some_iff.1 hget.symm
      rw [ha']
      exact actAlike_importEager url _ hsame.symm

/-- Everything is forgotten alike, and as many blobs are revoked. -/
theorem actAlike_cleanup : ActAlike Eq Session.cleanup Session.cleanup := by
  intro s s' h
  have hcleanup : s.cache.cleanup s.blobs = s'.cache.cleanup s'.blobs := by
    rw [Cache.cleanup, Cache.cleanup, h.blobUrls, h.blobs]
  have hforgotten : Session.SameButCauses
      { s with cache := .empty, blobs := (s.cache.cleanup s.blobs).2 }
      { s' with cache := .empty, blobs := (s'.cache.cleanup s'.blobs).2 } :=
    ⟨rfl, rfl, rfl, rfl, rfl, congrArg Prod.snd hcleanup, h.serial, h.compilations⟩
  have hrevoked : (s.cache.cleanup s.blobs).1 = (s'.cache.cleanup s'.blobs).1 :=
    congrArg Prod.fst hcleanup
  exact ⟨hrevoked, hforgotten.report _ _⟩

/-! ## Tasks in step -/

/-- Answers are alike when they have the same module, or none. -/
def SameModule (a a' : Answer) : Prop := a.moduleBody? = a'.moduleBody?

/-- Tasks that go on in step on states that are the same but for causes. -/
abbrev TaskAlike {α : Type} (results : α → α → Prop) (t t' : Task Session α) : Prop :=
  t.Alike Session.SameButCauses SameModule results t'

/-- Fetching a source gives the same source, or none. -/
theorem alike_fetchSource (url : Url) :
    TaskAlike (fun r r' => r.toOption = r'.toOption) (fetchSource url) (fetchSource url) := by
  unfold fetchSource
  refine Task.alike_look fun s s' h => ?_
  rw [← h.sources]
  cases s.cache.sources.get? url with
  | some source => exact rfl
  | none =>
    refine Task.alike_ask fun a a' ha => ?_
    cases hanswer : a.source url with
    | error e =>
      have hbody : a.moduleBody? = none := Answer.moduleBody?_of_source_error hanswer
      -- the failures may differ, but they are not remembered by a fetch
      cases hanswer' : a'.source url with
      | error e' => exact rfl
      | ok text =>
        rw [ha, (Answer.moduleBody?_eq_some_iff a' url text).2 hanswer'] at hbody
        cases hbody
    | ok text =>
      have hbody := (Answer.moduleBody?_eq_some_iff a url text).2 hanswer
      rw [ha] at hbody
      rw [(Answer.moduleBody?_eq_some_iff a' url text).1 hbody]
      refine Task.alike_bind (Task.alike_act (actAlike_insertSource url text)) fun r r' hr => ?_
      exact congrArg some hr

/-- Scanning a source finds the same imports. -/
theorem actAlike_scanSource (url : Url) (source : String) :
    ActAlike Eq (l.scanSource url source) (l.scanSource url source) := by
  unfold scanSource
  by_cases hfaults : (scan l.config.scanMode source url.pathText).faults > 0
  · simp only [if_pos hfaults]
    exact (actAlike_report _ _).bind fun _ _ _ => actAlike_pure rfl
  · simp only [if_neg hfaults]
    exact actAlike_pure rfl

/-- Scanning a module finds the same imports. -/
theorem alike_scanModule (url : Url) : TaskAlike Eq (l.scanModule url) (l.scanModule url) := by
  unfold scanModule
  refine Task.alike_bind (alike_fetchSource url) fun r r' hr => ?_
  cases r with
  | ok source =>
    cases r' with
    | ok source' =>
      cases hr
      exact Task.alike_act (actAlike_scanSource url source)
    | error e' => cases hr
  | error e =>
    cases r' with
    | ok source' => cases hr
    | error e' => exact Task.alike_bind (Task.alike_act (actAlike_report _ _)) fun _ _ _ => rfl

/-- Asking for candidates finds the same. -/
theorem alike_probeAll (c : Config) (requested : Url) (candidates : List Url) :
    TaskAlike Eq
      (Resolver.probeAll c (fun e => Task.act (Session.report e)) requested candidates)
      (Resolver.probeAll c (fun e => Task.act (Session.report e)) requested candidates) := by
  induction candidates with
  | nil => exact Task.alike_bind (Task.alike_act (actAlike_report _ _)) fun _ _ _ => rfl
  | cons candidate rest ih =>
    refine Task.alike_ask fun a a' ha => ?_
    rw [show a'.moduleBody? = a.moduleBody? from ha.symm]
    cases a.moduleBody? with
    | some body => exact Task.alike_bind (Task.alike_act (actAlike_report _ _)) fun _ _ _ => rfl
    | none => exact Task.alike_bind (Task.alike_act (actAlike_report _ _)) fun _ _ _ => ih

/-- Finding what a URL stands for is alike. -/
theorem alike_infer (requested : Url) : TaskAlike Eq (l.infer requested) (l.infer requested) := by
  unfold infer
  refine Task.alike_bind (alike_probeAll l.config requested _) ?_
  rintro r _ rfl
  refine Task.alike_bind (Task.alike_act (actAlike_insertResolution _ _)) fun _ _ _ => ?_
  cases r.source with
  | some body =>
    refine Task.alike_act fun s s' h => ⟨rfl, (actAlike_insertSource r.url body s s' h).2⟩
  | none => exact rfl

/-- Compiling a module is alike. -/
theorem alike_compileModule (url : Url) :
    TaskAlike Eq (l.compileModule url) (l.compileModule url) := by
  unfold compileModule
  refine Task.alike_look fun s s' h => ?_
  rw [← h.isCompiled]
  split
  · exact rfl
  · refine Task.alike_bind (alike_fetchSource url) fun r r' hr => ?_
    cases r with
    | ok source =>
      cases r' with
      | ok source' =>
        cases hr
        exact Task.alike_act (actAlike_register url source)
      | error e' => cases hr
    | error e =>
      cases r' with
      | ok source' => cases hr
      | error e' => exact Task.alike_act (actAlike_registerFailure url e e')

/-! ## Calls in step -/

/-- Works that go on in step on states that are the same but for causes. -/
abbrev OpAlike {α : Type} (results : α → α → Prop) (op op' : Op Session α) : Prop :=
  op.Alike Session.SameButCauses SameModule results op'

/-- Adding what the modules of a wave import adds the same. -/
theorem actAlike_settle (d : Discovery) (wave : List (Url × List (Url × Bool))) :
    ActAlike Eq (l.settle d wave) (l.settle d wave) := by
  unfold settle
  refine actAlike_get.bind fun c c' hc => ?_
  simp only [localDependencies_congr (hc.lookupTarget l)]
  exact (actAlike_reportAll _ _).bind fun _ _ _ => actAlike_pure rfl

/-- A wave finds the same. -/
theorem alike_wave (waves : Nat) (d : Discovery) :
    OpAlike Eq (l.wave waves d) (l.wave waves d) := by
  unfold wave
  refine Op.alike_bind (Op.alike_act (actAlike_report _ _)) fun _ _ _ => ?_
  refine Op.alike_bind (Op.alike_together alike_scanModule) fun scans scans' hscans => ?_
  -- the scans are the same, and so both waves go on with the same URLs
  rw [List.forall₂_eq_eq_eq] at hscans
  obtain rfl := hscans
  refine Op.alike_look fun s s' h => ?_
  have hunresolved : unresolved s.cache = unresolved s'.cache :=
    unresolved_congr fun u => by rw [h.resolutions]
  dsimp only
  rw [hunresolved]
  refine Op.alike_bind (Op.alike_together alike_infer) fun _ _ _ => ?_
  exact Op.alike_act (actAlike_settle _ _)

/-- A discovery finds the same graph, in as many waves. -/
theorem alike_discover (limit waves : Nat) (d : Discovery) :
    OpAlike Eq (l.discover limit waves d) (l.discover limit waves d) := by
  induction limit generalizing waves d with
  | zero =>
    by_cases hp : d.pending = []
    · rw [discover_of_nil 0 waves hp]
      exact rfl
    · rw [discover_zero waves hp]
      trivial
  | succ limit ih =>
    by_cases hp : d.pending = []
    · rw [discover_of_nil (limit + 1) waves hp]
      exact rfl
    · rw [discover_succ limit waves hp]
      refine Op.alike_bind (alike_wave (waves + 1) d) ?_
      rintro d _ rfl
      exact ih (waves + 1) d

/-- Building a graph builds the same. -/
theorem alike_buildGraph (limit : Nat) (entry : Url) :
    OpAlike Eq (l.buildGraph limit entry) (l.buildGraph limit entry) := by
  unfold buildGraph
  refine Op.alike_look fun s s' h => ?_
  rw [← h.graphs]
  cases s.cache.graphs.get? entry with
  | some g => exact Op.alike_bind (Op.alike_act (actAlike_report _ _)) fun _ _ _ => rfl
  | none =>
    refine Op.alike_bind (alike_discover limit 0 (.start entry)) ?_
    rintro ⟨graph, waves⟩ _ rfl
    refine Op.alike_bind (Op.alike_act (actAlike_report _ _)) fun _ _ _ => ?_
    exact Op.alike_act (actAlike_insertGraph entry graph)

/-- Compiling modules is alike. -/
theorem alike_compileModules (order : List Url) :
    OpAlike Eq (l.compileModules order) (l.compileModules order) := by
  induction order with
  | nil => exact rfl
  | cons url rest ih =>
    exact Op.alike_bind (Op.alike_one (alike_compileModule url)) fun _ _ _ => ih

/-- Loading a module gives the same module, or a failure that is the same but for the cause. -/
theorem alike_loadModule (limit : Nat) (url : Url) :
    OpAlike Failure.AlikeResults (l.loadModule limit url) (l.loadModule limit url) := by
  unfold loadModule
  refine Op.alike_look fun s s' h => ?_
  rw [← h.modules]
  cases s.cache.modules.get? url with
  | some m =>
    exact Op.alike_bind (Op.alike_act (actAlike_report _ _)) fun _ _ _ => .ok m
  | none =>
    refine Op.alike_bind (alike_buildGraph limit url) ?_
    rintro graph _ rfl
    cases graph.topologicalSort with
    | error circle => exact .error (.same _)
    | ok order =>
      refine Op.alike_bind (alike_compileModules order) fun _ _ _ => ?_
      exact Op.alike_act (actAlike_importEntry url graph)

/-- Every call goes on in step on states that are the same but for causes, and the same comes of it
but for causes. -/
theorem alike_respond (c : Call) : OpAlike Call.Result.Alike (l.respond c) (l.respond c) := by
  cases c with
  | load limit entry =>
    refine Op.alike_bind (?_ : OpAlike Failure.AlikeResults _ _) fun _ _ h => .loaded h
    unfold load
    cases Url.parse entry with
    | error e => exact .error (.same _)
    | ok url => exact alike_loadModule limit url
  | loadModule limit url =>
    exact Op.alike_bind (alike_loadModule limit url) fun _ _ h => .loaded h
  | buildGraph limit entry =>
    refine Op.alike_bind (alike_buildGraph limit entry) ?_
    rintro g _ rfl
    exact .built g
  | fetchSource url =>
    exact Op.alike_bind (Op.alike_one (alike_fetchSource url)) fun _ _ h => .fetched h
  | compileModules order =>
    exact Op.alike_bind (alike_compileModules order) fun _ _ _ => .compiled
  | importCompiled url =>
    exact Op.alike_bind (Op.alike_act (actAlike_importCompiled url)) fun _ _ h => .loaded h
  | cleanup =>
    refine Op.alike_bind (Op.alike_act actAlike_cleanup) ?_
    rintro n _ rfl
    exact .cleared n

/-- So does every sequence of calls. -/
theorem alike_respondAll (calls : List Call) :
    OpAlike (List.Forall₂ Call.Result.Alike) (l.respondAll calls) (l.respondAll calls) := by
  induction calls with
  | nil => exact List.Forall₂.nil
  | cons c rest ih =>
    refine Op.alike_bind (alike_respond c) fun r r' hr => ?_
    exact Op.alike_bind ih fun rs rs' hrs => List.Forall₂.cons hr hrs

end Loader

end ModuleLoader
