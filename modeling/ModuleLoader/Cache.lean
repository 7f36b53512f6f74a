import ModuleLoader.BlobStore
import ModuleLoader.Failure
import ModuleLoader.Graph.Basic
import ModuleLoader.Memo

/-! # What a loader remembers

Sources, compiled modules, imported modules, graphs and resolutions, each written once for a URL
and kept until everything is forgotten together.

* **`Artifact`** is what came of compiling a module: a blob, or a failure for whoever needs it.
* **`Cache`** holds all that is remembered; `Cache.stats` counts it.
* **`Cache.graphContaining?`** finds a graph with a module in it.
* **`Cache.cleanup`** forgets everything and revokes the blobs. -/

namespace ModuleLoader

/-- What came of compiling a module. -/
inductive Artifact
  /-- The code is in a blob. -/
  | ready (blobUrl : String)
  /-- There is no code, which whoever needs the module is told. -/
  | failed (url : Url) (cause : Failure)
deriving DecidableEq, Repr, Inhabited

namespace Artifact

/-- The URL of the blob, if there is one. -/
def blobUrl? : Artifact → Option String
  | .ready blobUrl => some blobUrl
  | .failed _ _ => none

/-- There is no code. -/
def isFailed : Artifact → Bool
  | .ready _ => false
  | .failed _ _ => true

/-- The URL of the blob, or the failure of whoever needs it. -/
def consume : Artifact → Except Failure String
  | .ready blobUrl => .ok blobUrl
  | .failed url cause => .error (.failed url cause)

/-- What is needed is there exactly when it has not failed. -/
theorem consume_eq_ok_iff (a : Artifact) (blobUrl : String) :
    a.consume = .ok blobUrl ↔ a = .ready blobUrl := by
  cases a <;> simp [consume]

end Artifact

/-- How much is remembered. -/
structure CacheStats where
  /-- Sources. -/
  sources : Nat
  /-- Compiled modules, failed ones included. -/
  compiled : Nat
  /-- Modules that could not be compiled. -/
  failed : Nat
  /-- Imported modules. -/
  modules : Nat
  /-- Graphs. -/
  graphs : Nat
  /-- URLs without extension for which one has been found. -/
  resolutions : Nat
deriving DecidableEq, Repr, Inhabited

/-- What a loader remembers by URL. -/
structure Cache (μ : Type) where
  /-- The texts of modules. -/
  sources : Memo Url String
  /-- What came of compiling them. -/
  compiled : Memo Url Artifact
  /-- Modules that have been imported. -/
  modules : Memo Url μ
  /-- The graphs of entries. -/
  graphs : Memo Url Graph
  /-- URLs without extension, with the URL that each stands for. -/
  resolutions : Memo Url Url

namespace Cache

variable {μ : Type}

/-- Nothing is remembered. -/
def empty : Cache μ := ⟨.empty, .empty, .empty, .empty, .empty⟩

instance : Inhabited (Cache μ) := ⟨empty⟩

/-- How much is remembered. -/
def stats (c : Cache μ) : CacheStats :=
  { sources := c.sources.size
    compiled := c.compiled.size
    failed := c.compiled.values.countP Artifact.isFailed
    modules := c.modules.size
    graphs := c.graphs.size
    resolutions := c.resolutions.size }

/-- The module has been compiled, if only to a failure. -/
def isCompiled (c : Cache μ) (url : Url) : Bool := c.compiled.contains url

/-- The blob of a compiled module. -/
def blobUrl? (c : Cache μ) (url : Url) : Option String :=
  (c.compiled.get? url).bind Artifact.blobUrl?

/-- A graph with the module in it: its own, or else the oldest. -/
def graphContaining? (c : Cache μ) (url : Url) : Option Graph :=
  match c.graphs.get? url with
  | some g => some g
  | none => c.graphs.values.find? (·.contains url)

/-- Remembers a source, and gives the one that is remembered. -/
def insertSource (c : Cache μ) (url : Url) (text : String) : String × Cache μ :=
  let sources := c.sources.insert url text
  ((sources.get? url).getD text, { c with sources })

/-- Remembers what came of compiling a module. -/
def insertCompiled (c : Cache μ) (url : Url) (a : Artifact) : Cache μ :=
  { c with compiled := c.compiled.insert url a }

/-- Remembers an imported module, and gives the one that is remembered. -/
def insertModule (c : Cache μ) (url : Url) (m : μ) : μ × Cache μ :=
  let modules := c.modules.insert url m
  ((modules.get? url).getD m, { c with modules })

/-- Remembers the graph of an entry, and gives the one that is remembered. -/
def insertGraph (c : Cache μ) (entry : Url) (g : Graph) : Graph × Cache μ :=
  let graphs := c.graphs.insert entry g
  ((graphs.get? entry).getD g, { c with graphs })

/-- Remembers what a URL without extension stands for. -/
def insertResolution (c : Cache μ) (requested resolved : Url) : Cache μ :=
  { c with resolutions := c.resolutions.insert requested resolved }

/-- The blobs of compiled modules. -/
def blobUrls (c : Cache μ) : List String := c.compiled.values.filterMap Artifact.blobUrl?

/-- Revokes the blobs of all compiled modules and forgets everything; tells how many there were. -/
def cleanup (c : Cache μ) (blobs : BlobStore) : Nat × BlobStore :=
  (c.blobUrls.length, c.blobUrls.foldl BlobStore.revoke blobs)

end Cache

end ModuleLoader
