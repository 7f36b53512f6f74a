import ModuleLoader.Loader.Discovery

/-! # Loading

A load discovers the graph of its entry, compiles the modules of the graph behind those that each
of them imports, and imports the entry.

* **`Loader.compileModules`** compiles modules in a given order.
* **`Loader.loadModule`** loads the module at a URL, **`Loader.load`** the one that a text names.
* **`Loader.importCompiled`** imports a module that has been compiled. -/

namespace ModuleLoader.Loader

/-! ## Compiling -/

/-- Compiles a module unless that has been done. -/
def compileModule (l : Loader) (url : Url) : Task Session Unit := do
  if (← Task.act get).cache.isCompiled url then return ()
  match ← fetchSource url with
  | .ok source => Task.act (l.register url source)
  | .error e => Task.act (registerFailure url e)

/-- Compiles modules in the given order. -/
def compileModules (l : Loader) : List Url → Op Session Unit
  | [] => return ()
  | url :: rest => do
    Op.one (l.compileModule url)
    l.compileModules rest

/-! ## Importing -/

/-- Imports the entry of a graph whose modules have been compiled. -/
def importEntry (entry : Url) (graph : Graph) : StateM Session (Except Failure Module) := do
  match (← get).cache.compiled.get? entry with
  | none => return .error (.importing entry "entry was not compiled")
  | some a => Session.importEager entry (some graph) a

/-- Imports a module that has been compiled. One that failed is told of here, and so is one that
cannot be evaluated without a module that failed. -/
def importCompiled (url : Url) : StateM Session (Except Failure Module) := do
  let c := (← get).cache
  match c.modules.get? url with
  | some m => return .ok m
  | none =>
    match c.compiled.get? url with
    | none => return .error (.importing url "module has not been compiled")
    | some a => Session.importEager url (c.graphContaining? url) a

/-! ## Loading -/

/-- Loads the module at a URL with all that it needs. -/
def loadModule (l : Loader) (limit : Nat) (url : Url) : Op Session (Except Failure Module) := do
  match (← Op.act get).cache.modules.get? url with
  | some m => do
    Op.act (Session.report (.moduleHit url))
    return .ok m
  | none => do
    let graph ← l.buildGraph limit url
    match graph.topologicalSort with
    | .error circle => return .error (.circularDependency circle.closing circle.path)
    | .ok order => do
      l.compileModules order
      Op.act (importEntry url graph)

/-- Loads the module that an absolute URL names. -/
def load (l : Loader) (limit : Nat) (entry : String) : Op Session (Except Failure Module) :=
  match Url.parse entry with
  | .error e => return .error (.invalidUrl entry e.message)
  | .ok url => l.loadModule limit url

end ModuleLoader.Loader
