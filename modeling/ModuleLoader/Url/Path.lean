import ModuleLoader.Url.Host

/-! # Paths of URLs

The path of a URL is read segment by segment: a `.` segment stands for nothing, a `..` segment
takes the segment before it away, and a segment that ends the path leaves an empty one behind when
it is either of these. In a `file:` path a drive letter is never taken away.

* **`pathStep`** adds one written segment to the segments before it.
* **`segmentsOf`** reads a whole path behind given segments. -/

namespace ModuleLoader.Url

open ModuleLoader.Text

/-! ## Characters that are encoded -/

/-- The characters encoded in a fragment. -/
def encodedInFragment (c : Char) : Bool :=
  isControl c || " \"<>\x60".toList.contains c

/-- The characters encoded in a path. -/
def encodedInPath (c : Char) : Bool :=
  encodedInFragment c || c == '#' || c == '?' || c == '\x7b' || c == '\x7d'

/-- The characters encoded in a query, of a special scheme or not. -/
def encodedInQuery (special : Bool) (c : Char) : Bool :=
  isControl c || " \"#<>".toList.contains c || (special && c == '\'')

/-- The characters encoded in a user name or password. -/
def encodedInUser (c : Char) : Bool :=
  encodedInPath c || "/:;=@[\\]^|".toList.contains c

/-! ## Dots and drive letters -/

/-- A segment that stands for nothing. -/
def isSingleDot (s : String) : Bool :=
  s == "." || s == "%2e" || s == "%2E"

/-- A segment that takes the one before it away. -/
def isDoubleDot (s : String) : Bool :=
  s == ".." || s == "%2e%2e" || s == "%2e%2E" || s == "%2E%2e" || s == "%2E%2E" ||
    s == "%2e." || s == "%2E." || s == ".%2e" || s == ".%2E"

/-- A letter and a colon or bar. -/
def isDriveLetter (s : String) : Bool :=
  match s.toList with
  | [a, b] => isAsciiLetter a && (b == ':' || b == '|')
  | _ => false

/-- A letter and a colon. -/
def isNormalDriveLetter (s : String) : Bool :=
  match s.toList with
  | [a, b] => isAsciiLetter a && b == ':'
  | _ => false

/-- A text that starts with a drive letter as a whole segment. -/
def startsWithDriveLetter (cs : List Char) : Bool :=
  match cs with
  | [a, b] => isAsciiLetter a && (b == ':' || b == '|')
  | a :: b :: c :: _ =>
    isAsciiLetter a && (b == ':' || b == '|') && (c == '/' || c == '\\' || c == '?' || c == '#')
  | _ => false

/-! ## Segments -/

/-- The segments, last first, without the last; a drive letter that is alone stays. -/
def shorten (file : Bool) (reversed : List String) : List String :=
  match reversed with
  | [] => []
  | [s] => if file && isNormalDriveLetter s then [s] else []
  | _ :: rest => rest

/-- Adds a written segment to the segments before it, which are held last first. -/
def pathStep (file : Bool) (reversed : List String) (segment : String) (last : Bool) :
    List String :=
  if isDoubleDot segment then
    let shorter := shorten file reversed
    if last then "" :: shorter else shorter
  else if isSingleDot segment then
    if last then "" :: reversed else reversed
  else if file && reversed.isEmpty && isDriveLetter segment then
    (String.ofList (segment.toList.take 1) ++ ":") :: reversed
  else segment :: reversed

/-- All written segments of a path, the last of which ends it. -/
def pathSteps (file : Bool) (reversed : List String) : List String → List String
  | [] => reversed
  | [s] => pathStep file reversed s true
  | s :: rest => pathSteps file (pathStep file reversed s false) rest

/-- The parts of a path between its slashes; the backslash is a slash in special schemes. -/
def splitSegments (special : Bool) (cs : List Char) : List (List Char) :=
  splitAtChar '/' (if special then cs.map fun c => if c == '\\' then '/' else c else cs)

/-- A `file:` path loses its empty leading segments. -/
def trimFilePath (file : Bool) (names : List String) : List String :=
  if file then
    match names.dropWhile (· == "") with
    | [] => [""]
    | rest => rest
  else names

/-- The segments of a path written behind the segments `before`. -/
def segmentsOf (scheme : String) (before : List String) (cs : List Char) : List String :=
  let file := scheme == "file"
  let written := (splitSegments (isSpecialScheme scheme) cs).map fun s =>
    String.ofList (percentEncode encodedInPath s)
  trimFilePath file (pathSteps file before.reverse written).reverse

/-- The segments of a path from its start, where one slash is not counted. Only the path of a
special scheme has a segment when nothing is written. -/
def rootedSegments (scheme : String) (cs : List Char) : List String :=
  match cs with
  | [] => if isSpecialScheme scheme then [""] else []
  | c :: rest =>
    if c == '/' || (c == '\\' && isSpecialScheme scheme) then segmentsOf scheme [] rest
    else segmentsOf scheme [] cs

/-! ## Setting a path -/

/-- Text in which the characters that a URL ignores are gone. -/
def withoutBreaks (cs : List Char) : List Char :=
  cs.filter fun c => !(c == '\t' || c == '\n' || c == '\r')

/-- The URL with its path read anew from a text; query and fragment stay. -/
def withPath (u : Url) (text : String) : Url :=
  let cs := withoutBreaks text.toList
  match u.path with
  | .rootless _ =>
    let cs := match cs with
      | '/' :: rest => "%2F".toList ++ rest
      | _ => cs
    { u with path := .rootless (String.ofList (percentEncode isControl cs)) }
  | .segments _ => { u with path := .segments (rootedSegments u.scheme cs) }

/-- Setting the path changes nothing else. -/
theorem withPath_query (u : Url) (text : String) : (u.withPath text).query = u.query := by
  unfold withPath
  cases u.path <;> rfl

/-- Setting the path keeps the fragment. -/
theorem withPath_fragment (u : Url) (text : String) :
    (u.withPath text).fragment = u.fragment := by
  unfold withPath
  cases u.path <;> rfl

end ModuleLoader.Url
