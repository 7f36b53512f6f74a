import ModuleLoader.Site.Files
import ModuleLoader.Text.Percent

/-! # Serving files

How a development server answers for the files under its root. A path is read after decoding; one
that leads upwards is never found. With a fallback, what is not found is answered by the index file
at the root.

* **`Site`** is what is served; **`Reply`** is an answer.
* **`Site.find`** answers for a path, **`Site.answer`** for a request of any method. -/

namespace ModuleLoader

namespace Site

/-- The answer to a request. -/
structure Reply where
  /-- The status code. -/
  status : Nat
  /-- The content type. -/
  contentType : Option String
  /-- Where to ask instead. -/
  location : Option String
  /-- The methods that may be used. -/
  allow : Option String
  /-- The text. -/
  body : String
deriving DecidableEq, Repr, Inhabited

namespace Reply

/-- Nothing is there. -/
def notFound : Reply := ⟨404, none, none, none, ""⟩

/-- Only reading is allowed. -/
def methodNotAllowed : Reply := ⟨405, none, none, some "GET,HEAD", ""⟩

/-- What is asked for is at another place. -/
def redirect (location : String) : Reply := ⟨307, none, some location, none, ""⟩

/-- The file is there. -/
def file (path : Path) (text : String) : Reply :=
  ⟨200, some (Site.contentType path), none, none, text⟩

/-- The answer without its text. -/
def head (r : Reply) : Reply := { r with body := "" }

end Reply

/-! ## Paths -/

/-- Splits a text where slashes are. -/
def segments : List Char → List (List Char)
  | [] => [[]]
  | c :: rest =>
    if c == '/' then [] :: segments rest
    else
      match segments rest with
      | s :: more => (c :: s) :: more
      | [] => [[c]]

/-- The path and the query of what is asked for; what follows a hash is not sent. -/
def splitTarget (target : List Char) : List Char × Option (List Char) :=
  let sent := target.takeWhile (· != '#')
  match sent.dropWhile (· != '?') with
  | _ :: query => (sent.takeWhile (· != '?'), some query)
  | [] => (sent, none)

/-- The file that a path names: decoded, without empty names and single dots. None if the path is
no text when decoded, starts anew, or leads upwards. -/
def locate? (path : List Char) : Option Path :=
  match Text.decodeUtf8 (Text.percentDecode (path.dropWhile (· == '/'))) with
  | none => none
  | some decoded =>
    let cs := decoded.toList
    let names := (segments cs).filter fun s => !s.isEmpty && s != ['.']
    if cs.head? == some '/' || names.contains ['.', '.'] then none else some names

end Site

/-- What a development server serves. -/
structure Site where
  /-- The files. -/
  files : Site.Files
  /-- What is not found is answered by the index file. -/
  hasFallback : Bool
deriving DecidableEq, Repr, Inhabited

namespace Site

/-- The name of the file that stands for its directory. -/
def indexName : List Char := "index.html".toList

/-- The answer of a file. -/
def Files.reply (f : Files) (path : Path) : Reply :=
  match f.read? path with
  | some text => .file path text
  | none => .notFound

/-- The answer of the files alone. A directory is answered by its index file if its path ends with
a slash, and otherwise by sending there. -/
def Files.find (f : Files) (target : List Char) : Reply :=
  let (path, query) := splitTarget target
  match locate? path with
  | none => .notFound
  | some names =>
    if f.isDirectory names then
      if path.getLast? == some '/' then f.reply (names ++ [indexName])
      else
        .redirect (String.ofList (path ++ '/' :: query.elim [] ('?' :: ·)))
    else f.reply names

/-- The answer for a path: that of the files, or where nothing is found, of the index file. -/
def find (s : Site) (target : String) : Reply :=
  let r := s.files.find target.toList
  if r.status = 404 && s.hasFallback then s.files.reply [indexName] else r

/-- The answer to a request. Files can only be read. -/
def answer (s : Site) (method target : String) : Reply :=
  if method == "GET" then s.find target
  else if method == "HEAD" then (s.find target).head
  else .methodNotAllowed

/-- Without a fallback, an answer is that of the files. -/
theorem find_of_noFallback (f : Files) (target : String) :
    (Site.mk f false).find target = f.find target.toList := by
  simp [find]

end Site

end ModuleLoader
