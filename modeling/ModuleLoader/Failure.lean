import ModuleLoader.Url.Basic

/-! # What can go wrong with a module

* **`Failure`** names every way in which a module, or a whole load, fails.
* **`Failure.message`** is its wording, **`Failure.url?`** the module it is about. -/

namespace ModuleLoader

/-- A failure of a load. -/
inductive Failure
  /-- The entry is no absolute URL. -/
  | invalidUrl (input reason : String)
  /-- The request for a module got no answer. -/
  | fetch (url : Url) (reason : String)
  /-- The request for a module was answered with a status other than success. -/
  | status (url : Url) (status : Nat)
  /-- The request for a module was answered with a page. -/
  | htmlFallback (url : Url)
  /-- The source of a module cannot be compiled. -/
  | transform (url : Url) (reason : String)
  /-- The modules of a graph import each other in a circle. -/
  | circularDependency (url : Url) (path : List Url)
  /-- A compiled module cannot be imported. -/
  | importing (url : Url) (reason : String)
  /-- A module that failed earlier is needed now. -/
  | failed (url : Url) (cause : Failure)
  /-- The options of a loader do not hold together. -/
  | config (reason : String)
deriving DecidableEq, Repr, Inhabited

namespace Failure

/-- The URLs of a circle, each followed by the one it imports. -/
def pathText (path : List Url) : String :=
  String.intercalate " -> " (path.map Url.text)

/-- The wording of a failure. -/
def message : Failure → String
  | .invalidUrl input reason => "invalid module url \x60" ++ input ++ "\x60: " ++ reason
  | .fetch url reason => "failed to fetch " ++ url.text ++ ": " ++ reason
  | .status url code => "failed to fetch " ++ url.text ++ ": HTTP " ++ toString code
  | .htmlFallback url =>
    "module not found: " ++ url.text ++ " (server answered with an HTML fallback page)"
  | .transform url reason => "failed to transform " ++ url.text ++ ": " ++ reason
  | .circularDependency url path =>
    "circular dependency detected at " ++ url.text ++ ": " ++ pathText path
  | .importing url reason => "failed to import " ++ url.text ++ ": " ++ reason
  | .failed url cause => "module " ++ url.text ++ " failed to load: " ++ cause.message
  | .config reason => "invalid loader configuration: " ++ reason

/-- The module that a failure is about, when there is one. -/
def url? : Failure → Option Url
  | .invalidUrl _ _ | .config _ => none
  | .fetch url _ | .status url _ | .htmlFallback url | .transform url _
  | .circularDependency url _ | .importing url _ | .failed url _ => some url

/-- The failures that say that a file is not there. -/
def isNotFound : Failure → Bool
  | .htmlFallback _ => true
  | .status _ code => code == 404
  | _ => false

end Failure

end ModuleLoader
