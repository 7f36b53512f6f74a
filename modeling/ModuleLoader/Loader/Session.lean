import ModuleLoader.Cache
import ModuleLoader.Compile.Transformer
import ModuleLoader.Exports
import ModuleLoader.Graph.Order
import ModuleLoader.Imports.Scan
import ModuleLoader.Specifier

/-! # The state of a loader

* **`Loader`** is what a loader is made with, **`Session`** what changes while it works.
* **`Loader.lookupTarget`** is the module that a URL stands for.
* **`Loader.register`** compiles a source and puts it into a blob.
* **`Session.importBlob`** imports a compiled module. -/

namespace ModuleLoader

/-- A module that has been imported. No code is run: what it exports is read off its code. -/
structure Module where
  /-- How many modules were imported before it. -/
  serial : Nat
  /-- The blob that it was imported from. -/
  blobUrl : String
  /-- The names it exports. -/
  exports : List String
  /-- Its code. -/
  code : String
deriving DecidableEq, Repr, Inhabited

/-- What came of calling a transformer. -/
structure Compilation where
  /-- The module. -/
  url : Url
  /-- How many specifiers were replaced, or why there is no code. -/
  outcome : Except Failure Nat

/-- What changes while a loader works. -/
structure Session where
  /-- What is remembered. -/
  cache : Cache Module
  /-- The compiled modules. -/
  blobs : BlobStore
  /-- How many modules have been imported. -/
  serial : Nat
  /-- What has been reported, oldest first. -/
  events : List Event
  /-- The calls of the transformer, oldest first. -/
  compilations : List Compilation

/-- What a loader is made with. -/
structure Loader where
  /-- The options. -/
  config : Config
  /-- What compiles modules. -/
  transformer : Transformer

namespace Session

/-- The state of a new loader. -/
def start (c : Config) : Session := ⟨.empty, .new c.blobOrigin, 0, [], []⟩

/-- Reports something. -/
def report (e : Event) : StateM Session Unit := modify fun s => { s with events := s.events ++ [e] }

/-- Reports several things. -/
def reportAll (es : List Event) : StateM Session Unit :=
  modify fun s => { s with events := s.events ++ es }

/-- Changes what is remembered. -/
def remember {α : Type} (f : Cache Module → α × Cache Module) : StateM Session α := fun s =>
  let (a, cache) := f s.cache
  (a, { s with cache })

/-- Imports a blob: the names that its code exports. -/
def readBlob (s : Session) (blobUrl : String) : Except String Module :=
  match s.blobs.get? blobUrl with
  | none => .error ("unknown or revoked object URL " ++ blobUrl)
  | some blob =>
    (exportsOf blob.contents).map fun names => ⟨s.serial, blobUrl, names, blob.contents⟩

/-- Imports the blob of a module, and remembers the module. -/
def importBlob (url : Url) (blobUrl : String) : StateM Session (Except Failure Module) := do
  match (← get).readBlob blobUrl with
  | .error reason => return .error (.importing url reason)
  | .ok m =>
    modify fun s => { s with serial := s.serial + 1 }
    report (.imported url)
    return .ok (← remember fun c => c.insertModule url m)

/-- The blob of a compiled module; a failure is reported when it is needed. -/
def consume (url : Url) (a : Artifact) : StateM Session (Except Failure String) := do
  match a with
  | .ready blobUrl => return .ok blobUrl
  | .failed failedUrl cause =>
    report (.consumedFailed url cause)
    return .error (.failed failedUrl cause)

/-- The first of some modules that has failed, with its failure. -/
def firstFailed (c : Cache Module) : List Url → Option (Url × Artifact)
  | [] => none
  | url :: rest =>
    match c.compiled.get? url with
    | some a => if a.isFailed then some (url, a) else firstFailed c rest
    | none => firstFailed c rest

/-- Imports a compiled module if none of those that are evaluated along with it has failed. -/
def importEager (url : Url) (graph : Option Graph) (a : Artifact) :
    StateM Session (Except Failure Module) := do
  match ← consume url a with
  | .error e => return .error e
  | .ok blobUrl =>
    let c := (← get).cache
    match firstFailed c (graph.elim [] (·.eagerDependencies url)) with
    | some (dep, failed) =>
      match ← consume dep failed with
      | .error e => return .error e
      | .ok _ => importBlob url blobUrl
    | none => importBlob url blobUrl

/-- Revokes all blobs and forgets everything; tells how many blobs there were. -/
def cleanup : StateM Session Nat := do
  let s ← get
  let stats := s.cache.stats
  let (revoked, blobs) := s.cache.cleanup s.blobs
  set { s with cache := .empty, blobs }
  report (.cleared revoked stats.sources stats.modules stats.graphs)
  return revoked

end Session

namespace Loader

/-! ## Targets -/

/-- The module that a URL stands for: itself if it has an extension, else what has been found for
it, a candidate that has been compiled, or the URL with the fallback extension. -/
def lookupTarget (l : Loader) (c : Cache Module) (requested : Url) : Url :=
  if requested.hasExtension then requested
  else
    match c.resolutions.get? requested with
    | some resolved => resolved
    | none =>
      ((l.config.probeExtensions.map requested.withExtension).find? c.isCompiled).getD
        (requested.withExtension l.config.fallbackExtension)

/-- The module that a specifier names, if it is to be replaced by a blob. -/
def specifierTarget? (l : Loader) (c : Cache Module) (importer : Url) (specifier : String) :
    Option Url :=
  (resolve? specifier importer).map (l.lookupTarget c)

/-- What a specifier is replaced by: the blob of the module that it names. -/
def redirectSpecifier (l : Loader) (c : Cache Module) (importer : Url) (specifier : String) :
    Option String :=
  (l.specifierTarget? c importer specifier).bind c.blobUrl?

/-- What is reported of a specifier that is asked for and not replaced. -/
def redirectEvents (l : Loader) (c : Cache Module) (importer : Url) (specifier : String) :
    List Event :=
  match l.specifierTarget? c importer specifier with
  | none => []
  | some target =>
    match c.compiled.get? target with
    | some (.ready _) => []
    | some (.failed _ _) => [.dependencyFailed importer target]
    | none => [.dependencyMissing importer specifier target]

/-! ## Compiling -/

/-- Remembers a module that cannot be compiled. -/
def registerFailure (url : Url) (cause : Failure) : StateM Session Unit := do
  Session.report (.compileFailed url cause)
  Session.remember fun c => ((), c.insertCompiled url (.failed url cause))

/-- Puts the code of a module into a blob. -/
def registerCode (l : Loader) (url : Url) (code : String) : StateM Session Unit := do
  let s ← get
  let (blobUrl, blobs) := s.blobs.create code l.config.blobMimeType
  set { s with blobs }
  Session.report (.registered url blobUrl)
  Session.remember fun c => ((), c.insertCompiled url (.ready blobUrl))

/-- Compiles a source and registers what comes of it. -/
def register (l : Loader) (url : Url) (source : String) : StateM Session Unit := do
  let c := (← get).cache
  let t := l.transformer url source (l.redirectSpecifier c url)
  Session.reportAll (t.asked.flatMap (l.redirectEvents c url) ++ t.reports)
  modify fun s =>
    { s with compilations := s.compilations ++ [⟨url, t.outcome.map (·.replaced)⟩] }
  match t.outcome with
  | .ok compiled => l.registerCode url compiled.code
  | .error cause => registerFailure url cause

/-! ## Imports -/

/-- The modules that a module imports, in order, each with whether all its imports are by
`import()`. -/
def localDependencies (l : Loader) (c : Cache Module) (imports : List (Url × Bool)) :
    List (Url × Bool) :=
  imports.foldl (fun deps i =>
    let target := l.lookupTarget c i.1
    if deps.any (·.1 = target) then
      deps.map fun d => if d.1 = target then (d.1, d.2 && i.2) else d
    else deps ++ [(target, i.2)]) []

/-- The URLs that the source of a module imports, each with whether it is by `import()`. -/
def importsOf (url : Url) (s : Scan) : List (Url × Bool) :=
  s.references.filterMap fun r => (resolve? r.specifier url).map fun u => (u, r.isDynamic)

/-- Scans the source of a module for imports. -/
def scanSource (l : Loader) (url : Url) (source : String) : StateM Session (List (Url × Bool)) := do
  let s := scan l.config.scanMode source url.pathText
  if s.faults > 0 then Session.report (.scanFailed url.pathText s.faults)
  return importsOf url s

end Loader

end ModuleLoader
