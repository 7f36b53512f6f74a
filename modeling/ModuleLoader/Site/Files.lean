import ModuleLoader.Text.Character

/-! # Files to be served

* **`Files`** is a tree of files under a root directory.
* **`Files.read?`** reads a file, **`Files.isDirectory`** asks whether a path is a directory.
* **`contentType`** is the type of a file by its name. -/

namespace ModuleLoader.Site

/-- The names on the way from the root to a file or directory. -/
abbrev Path := List (List Char)

/-- Files with their texts. A directory is there if a file is in it, and so is the root. -/
structure Files where
  /-- Paths and texts. -/
  entries : List (Path × String)
deriving DecidableEq, Repr, Inhabited

namespace Files

/-- The text of a file. -/
def read? (f : Files) (path : Path) : Option String :=
  (f.entries.find? (·.1 = path)).map Prod.snd

/-- The path is that of a directory. -/
def isDirectory (f : Files) (path : Path) : Bool :=
  path.isEmpty || f.entries.any fun e => path.isPrefixOf e.1 && path ≠ e.1

end Files

/-! ## Content types -/

/-- The types of files by their extensions. -/
def typesByExtension : List (String × String) :=
  [("js", "text/javascript"), ("jsx", "text/javascript"), ("mjs", "application/javascript"),
    ("ts", "video/vnd.dlna.mpeg-tts"), ("txt", "text/plain"), ("map", "text/plain"),
    ("md", "text/markdown"), ("css", "text/css"), ("html", "text/html"), ("htm", "text/html"),
    ("json", "application/json"), ("wasm", "application/wasm"), ("svg", "image/svg+xml")]

/-- What follows the last dot of a name, unless nothing precedes it. -/
def extension? (name : List Char) : Option (List Char) :=
  let reversed := name.reverse
  match reversed.dropWhile (· != '.') with
  | _ :: _ :: _ => some (reversed.takeWhile (· != '.')).reverse
  | _ => none

/-- The type of a file by the extension of its name, in whatever letters. -/
def contentType (path : Path) : String :=
  match path.getLast?.bind extension? with
  | none => "application/octet-stream"
  | some extension =>
    (typesByExtension.lookup (String.ofList (extension.map Text.toAsciiLower))).getD
      "application/octet-stream"

end ModuleLoader.Site
