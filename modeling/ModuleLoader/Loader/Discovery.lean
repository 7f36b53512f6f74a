import ModuleLoader.Loader.Resolver
import ModuleLoader.Loader.Session

/-! # Discovery

The graph of an entry is discovered in waves. In each, the sources of some modules are fetched and
scanned together, the URLs without extension that they import are resolved together, and the
modules found that are new make the next wave. A module whose source cannot be had is a leaf.

* **`Loader.fetchSource`** fetches the source of a module, once.
* **`Discovery`** is how far the discovery has come; `Discovery.add` adds what a module imports.
* **`Loader.buildGraph`** discovers the graph of an entry, once. -/

namespace ModuleLoader

namespace Loader

/-! ## Sources -/

/-- The source of a module: the one that is remembered, or what the server answers. -/
def fetchSource (url : Url) : Task Session (Except Failure String) := do
  match (← Task.act get).cache.sources.get? url with
  | some source => return .ok source
  | none =>
    let answer ← Task.ask ⟨url, .source⟩
    match answer.source url with
    | .error e => return .error e
    | .ok text => .ok <$> Task.act (Session.remember fun c => c.insertSource url text)

/-- Fetches a module and scans it; one whose source cannot be had imports nothing. -/
def scanModule (l : Loader) (url : Url) : Task Session (List (Url × Bool)) := do
  match ← fetchSource url with
  | .ok source => Task.act (l.scanSource url source)
  | .error e => do
    Task.act (Session.report (.discoveryFailed url e))
    return []

/-- Finds what a URL without extension stands for and remembers it, with the source if the server
has sent it. -/
def infer (l : Loader) (requested : Url) : Task Session Unit := do
  let r ← Resolver.infer l.config (fun e => Task.act (Session.report e)) requested
  Task.act (Session.remember fun c => ((), c.insertResolution requested r.url))
  match r.source with
  | some body => Task.act (Session.remember fun c => ((), (c.insertSource r.url body).2))
  | none => return ()

/-- The URLs without extension among those imported for which nothing has been found, each once. -/
def unresolved (c : Cache Module) (requested : List Url) : List Url :=
  (requested.filter fun u => !u.hasExtension && !c.resolutions.contains u).foldl
    (fun us u => addOnce u us) []

end Loader

/-! ## Waves -/

/-- How far the discovery of a graph has come. -/
structure Discovery where
  /-- What has been recorded. -/
  graph : Graph
  /-- The modules that have been scanned or are about to be. -/
  processed : List Url
  /-- The modules of the next wave. -/
  pending : List Url
deriving DecidableEq, Repr, Inhabited

namespace Discovery

/-- The start of a discovery. -/
def start (entry : Url) : Discovery := ⟨.empty, [], [entry]⟩

/-- The modules of the next wave are on their way. -/
def beginWave (d : Discovery) : Discovery := ⟨d.graph, d.processed ++ d.pending, []⟩

/-- Adds what a module imports, each with whether it is by `import()` alone. -/
def add (d : Discovery) (url : Url) (deps : List (Url × Bool)) : Discovery :=
  let targets := deps.map Prod.fst
  let graph := d.graph.add url targets
  let lazyTargets := (deps.filter Prod.snd).map Prod.fst
  { d with
    graph := lazyTargets.foldl (fun g dep => g.markLazy url dep) graph
    pending := (targets.filter (· ∉ d.processed)).foldl (fun us u => addOnce u us) d.pending }

end Discovery

namespace Loader

/-- Adds what the modules of a wave import. -/
def settle (l : Loader) (d : Discovery) (wave : List (Url × List (Url × Bool))) :
    StateM Session Discovery := do
  let c := (← get).cache
  Session.reportAll (wave.map fun (url, imports) =>
    .importsResolved url imports.length (l.localDependencies c imports).length)
  return wave.foldl (fun d (url, imports) => d.add url (l.localDependencies c imports)) d

/-- Discovers one wave after another; gives the graph and how many waves there were. The first
number bounds how many more there may be: beyond, the discovery counts as one that never ends. -/
def discover (l : Loader) : Nat → Nat → Discovery → Op Session (Graph × Nat)
  | limit, waves, d =>
    match d.pending, limit with
    | [], _ => return (d.graph, waves)
    | _ :: _, 0 => .endless
    | batch@(_ :: _), limit + 1 => do
      Op.act (Session.report (.discovering (waves + 1) batch.length))
      let scans ← Op.together (batch.map l.scanModule)
      let requested := scans.flatten.map Prod.fst
      let c := (← Op.act get).cache
      let _ ← Op.together ((unresolved c requested).map l.infer)
      let d ← Op.act (l.settle d.beginWave (batch.zip scans))
      l.discover limit (waves + 1) d

/-- The graph of an entry: the one that is remembered, or what is discovered. -/
def buildGraph (l : Loader) (limit : Nat) (entry : Url) : Op Session Graph := do
  match (← Op.act get).cache.graphs.get? entry with
  | some g => do
    Op.act (Session.report (.graphHit entry))
    return g
  | none => do
    let (graph, waves) ← l.discover limit 0 (.start entry)
    Op.act (Session.report (.graphBuilt entry graph.size waves))
    Op.act (Session.remember fun c => c.insertGraph entry graph)

end Loader

end ModuleLoader
