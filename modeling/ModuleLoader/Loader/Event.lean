import ModuleLoader.Failure

/-! # Events

What a loader reports while it works, for whoever watches it.

* **`Event`** is one report; **`Event.level`** is how much it matters.
* **`Event.message`** and **`Event.fields`** are what it says. -/

namespace ModuleLoader

/-- How much an event matters. -/
inductive Level
  | error | warn | info | debug | trace
deriving DecidableEq, Repr, Inhabited

namespace Level

/-- The name of a level. -/
def name : Level → String
  | .error => "error"
  | .warn => "warn"
  | .info => "info"
  | .debug => "debug"
  | .trace => "trace"

/-- The place of a level: the more it matters, the lower. -/
def rank : Level → Nat
  | .error => 0
  | .warn => 1
  | .info => 2
  | .debug => 3
  | .trace => 4

end Level

/-- A part of what an event says. -/
inductive Field
  | text (value : String)
  | count (value : Nat)
deriving DecidableEq, Repr, Inhabited

/-- What a loader reports. -/
inductive Event
  | scanFailed (path : String) (faults : Nat)
  | moduleHit (url : Url)
  | graphHit (entry : Url)
  | discovering (wave modules : Nat)
  | discoveryFailed (url : Url) (failure : Failure)
  | importsResolved (url : Url) (imports localModules : Nat)
  | graphBuilt (entry : Url) (modules waves : Nat)
  | inferred (source target : Url)
  | probeMiss (candidate : Url) (status : Nat)
  | probeFailed (candidate : Url) (reason : String)
  | assumed (requested target : Url)
  | compiled (url : Url) (replaced bytes : Nat)
  | registered (url : Url) (blob : String)
  | compileFailed (url : Url) (cause : Failure)
  | dependencyFailed (importer dependency : Url)
  | dependencyMissing (importer : Url) (specifier : String) (dependency : Url)
  | consumedFailed (url : Url) (cause : Failure)
  | imported (url : Url)
  | cleared (revoked sources modules graphs : Nat)
deriving DecidableEq, Repr, Inhabited

namespace Event

/-- How much an event matters. -/
def level : Event → Level
  | .compileFailed _ _ | .consumedFailed _ _ => .error
  | .scanFailed _ _ | .discoveryFailed _ _ | .assumed _ _ | .dependencyMissing _ _ _ => .warn
  | .graphBuilt _ _ _ | .cleared _ _ _ _ => .info
  | .probeMiss _ _ | .probeFailed _ _ => .trace
  | _ => .debug

/-- What an event says. -/
def message : Event → String
  | .scanFailed _ _ => "parse failed while scanning imports, treating module as a leaf"
  | .moduleHit _ => "module cache hit"
  | .graphHit _ => "graph cache hit"
  | .discovering _ _ => "discovering imports"
  | .discoveryFailed _ _ => "fetch failed during discovery"
  | .importsResolved _ _ _ => "imports resolved"
  | .graphBuilt _ _ _ => "module graph built"
  | .inferred _ _ => "extension inferred"
  | .probeMiss _ _ => "probe miss"
  | .probeFailed _ _ => "probe failed"
  | .assumed _ _ => "no candidate extension answered, assuming fallback"
  | .compiled _ _ _ => "module compiled"
  | .registered _ _ => "module registered"
  | .compileFailed _ _ => "module failed to compile"
  | .dependencyFailed _ _ => "dependency failed, specifier left as is"
  | .dependencyMissing _ _ _ => "missing blob URL for dependency"
  | .consumedFailed _ _ => "importing a module that failed to load"
  | .imported _ => "module imported"
  | .cleared _ _ _ _ => "loader caches cleared"

/-- The text of a URL as a part of an event. -/
def urlField (name : String) (url : Url) : String × Field := (name, .text url.text)

/-- The parts of what an event says, by their names. -/
def fields : Event → List (String × Field)
  | .scanFailed path faults => [("path", .text path), ("errors", .count faults)]
  | .moduleHit url => [urlField "url" url]
  | .graphHit entry => [urlField "entry" entry]
  | .discovering wave modules => [("wave", .count wave), ("modules", .count modules)]
  | .discoveryFailed url failure => [urlField "url" url, ("error", .text failure.message)]
  | .importsResolved url imports localModules =>
    [urlField "url" url, ("imports", .count imports), ("local", .count localModules)]
  | .graphBuilt entry modules waves =>
    [urlField "entry" entry, ("modules", .count modules), ("waves", .count waves)]
  | .inferred source target => [urlField "from" source, urlField "to" target]
  | .probeMiss candidate status =>
    [urlField "candidate" candidate, ("status", .count status)]
  | .probeFailed candidate reason =>
    [urlField "candidate" candidate, ("error", .text reason)]
  | .assumed requested target =>
    [urlField "specifier" requested, urlField "assumed" target]
  | .compiled url replaced bytes =>
    [urlField "url" url, ("rewritten", .count replaced), ("bytes", .count bytes)]
  | .registered url blob => [urlField "url" url, ("blob", .text blob)]
  | .compileFailed url cause => [urlField "url" url, ("error", .text cause.message)]
  | .dependencyFailed importer dependency =>
    [urlField "importer" importer, urlField "dependency" dependency]
  | .dependencyMissing importer specifier dependency =>
    [urlField "importer" importer, ("specifier", .text specifier),
      urlField "dependency" dependency]
  | .consumedFailed url cause => [urlField "url" url, ("error", .text cause.message)]
  | .imported url => [urlField "url" url]
  | .cleared revoked sources modules graphs =>
    [("revoked", .count revoked), ("sources", .count sources), ("modules", .count modules),
      ("graphs", .count graphs)]

end Event

end ModuleLoader
