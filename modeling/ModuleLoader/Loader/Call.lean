import ModuleLoader.Loader.Load
import ModuleLoader.Loader.Schedule

/-! # Calls

What a loader can be asked to do, one call after the other.

* **`Call`** is one call; `Loader.perform` does it, `Loader.performAll` does several.
* **`Call.Result`** is what comes of a call; `Loader.respond` does one and tells,
  `Loader.respondAll` does several.
* **`Loader.Reached`** is a world that calls have led to, whatever order their answers came in.
* **`Server.ofModules`** is a server that has a few modules. -/

namespace ModuleLoader

/-- What a loader can be asked to do. -/
inductive Call
  /-- To load the module that a text names. -/
  | load (limit : Nat) (entry : String)
  /-- To load the module at a URL. -/
  | loadModule (limit : Nat) (url : Url)
  /-- To discover the graph of an entry. -/
  | buildGraph (limit : Nat) (entry : Url)
  /-- To fetch the source of a module. -/
  | fetchSource (url : Url)
  /-- To compile modules in an order that the caller has chosen. -/
  | compileModules (order : List Url)
  /-- To import a module that has been compiled. -/
  | importCompiled (url : Url)
  /-- To forget everything. -/
  | cleanup
deriving DecidableEq, Repr, Inhabited

namespace Call

/-- The call loads modules, or does one of the things that a load does before it compiles. -/
def isLoading : Call → Bool
  | .load _ _ | .loadModule _ _ | .buildGraph _ _ | .fetchSource _ => true
  | _ => false

/-- What comes of a call. -/
inductive Result
  /-- A module has been loaded or imported, or has not. -/
  | loaded (r : Except Failure Module)
  /-- A graph has been built. -/
  | built (g : Graph)
  /-- A source has been fetched, or has not. -/
  | fetched (r : Except Failure String)
  /-- Modules have been compiled. -/
  | compiled
  /-- Everything has been forgotten, and so many blobs have been revoked. -/
  | cleared (revoked : Nat)
deriving Inhabited

end Call

namespace Loader

/-- Does what is asked for, and tells what came of it. -/
def respond (l : Loader) : Call → Op Session Call.Result
  | .load limit entry => do return .loaded (← l.load limit entry)
  | .loadModule limit url => do return .loaded (← l.loadModule limit url)
  | .buildGraph limit entry => do return .built (← l.buildGraph limit entry)
  | .fetchSource url => do return .fetched (← Op.one (Loader.fetchSource url))
  | .compileModules order => do
    l.compileModules order
    return .compiled
  | .importCompiled url => do return .loaded (← Op.act (Loader.importCompiled url))
  | .cleanup => do return .cleared (← Op.act Session.cleanup)

/-- Does several things, one after the other, and tells what came of each. -/
def respondAll (l : Loader) : List Call → Op Session (List Call.Result)
  | [] => return []
  | c :: rest => do
    let r ← l.respond c
    let rs ← l.respondAll rest
    return r :: rs

/-- Does what is asked for; what comes of it is left to the caller. -/
def perform (l : Loader) : Call → Op Session Unit
  | .load limit entry => do
    let _ ← l.load limit entry
    return ()
  | .loadModule limit url => do
    let _ ← l.loadModule limit url
    return ()
  | .buildGraph limit entry => do
    let _ ← l.buildGraph limit entry
    return ()
  | .fetchSource url => do
    let _ ← Op.one (fetchSource url)
    return ()
  | .compileModules order => l.compileModules order
  | .importCompiled url => do
    let _ ← Op.act (importCompiled url)
    return ()
  | .cleanup => do
    let _ ← Op.act Session.cleanup
    return ()

/-- Does several things, one after the other. -/
def performAll (l : Loader) : List Call → Op Session Unit
  | [] => return ()
  | c :: rest => do
    l.perform c
    l.performAll rest

/-- The world of a new loader with a server. -/
def start {ω : Type} (l : Loader) (server : ω) : World Session ω := ⟨.start l.config, server, []⟩

/-- A world that calls of some kind have led to. A call may have been given up on the way. -/
inductive Reached {ω : Type} (l : Loader) (server : Server ω) (kind : Call → Prop) :
    World Session ω → Prop
  /-- A new loader. -/
  | start (x : ω) : Reached l server kind (l.start x)
  /-- A call has gone on for some steps. -/
  | call {w w' : World Session ω} {c : Call} {op : Op Session Unit}
      (h : Reached l server kind w) (hc : kind c)
      (hs : Op.Steps server (l.perform c, w) (op, w')) : Reached l server kind w'

/-- The loader that is used when nothing is said. -/
def default : Loader := ⟨.default, Transformer.compiler .default⟩

end Loader

/-! ## Servers of a few modules -/

/-- The URL of a file at the root of a server. -/
def fileUrl (name : String) : Url :=
  ⟨"http", some ⟨"", "", "slides.test", none⟩, .segments [name], none, none⟩

/-- The answer of a server that has some modules and nothing else. -/
def answerOf (modules : List (String × String)) (u : Url) : Answer :=
  match modules.find? fun e => fileUrl e.1 = u with
  | some e => .response ⟨200, some "text/javascript", e.2⟩
  | none => .response ⟨404, none, ""⟩

/-- A server that has some modules and nothing else. -/
def Server.ofModules (modules : List (String × String)) : Server Unit :=
  fun q => pure (answerOf modules q.url)

end ModuleLoader
