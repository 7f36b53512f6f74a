import ModuleLoader.Url.Reader

/-! # Specifiers

What an import names a module by. A specifier that starts with a dot or a slash is joined to the
URL of the importing module; any other is bare, and left to whoever runs the modules.

* **`isBare`** tells the two kinds apart, **`resolve?`** joins.
* **`hasExtension`** asks whether the last segment of a path has an extension.
* **`withExtension`** puts one behind a path. -/

namespace ModuleLoader

/-- The specifier is not joined to the URL of the importing module. -/
def isBare (specifier : String) : Bool :=
  match specifier.toList with
  | c :: _ => !(c == '.' || c == '/')
  | [] => true

/-- The URL that a specifier names in a module; none for bare specifiers and for those that cannot
be joined. -/
def resolve? (specifier : String) (base : Url) : Option Url :=
  if isBare specifier then none
  else
    match base.join specifier with
    | .ok url => some url
    | .error _ => none

/-- Bare specifiers name no URL. -/
theorem resolve?_of_isBare (specifier : String) (base : Url) (h : isBare specifier = true) :
    resolve? specifier base = none := by
  simp [resolve?, h]

namespace Url

/-- What follows the last slash of a path. -/
def lastSegment (path : List Char) : List Char :=
  (path.reverse.takeWhile (· != '/')).reverse

/-- A name with something before its last dot and something behind it. -/
def isExtended (name : List Char) : Bool :=
  let reversed := name.reverse
  match reversed.takeWhile (· != '.'), reversed.dropWhile (· != '.') with
  | _ :: _, _ :: _ :: _ => true
  | _, _ => false

/-- The last segment of the path has an extension. -/
def hasExtension (u : Url) : Bool := isExtended (lastSegment u.pathText.toList)

/-- The URL with an extension behind its path; query and fragment stay. -/
def withExtension (u : Url) (extension : String) : Url := u.withPath (u.pathText ++ extension)

end Url

end ModuleLoader
