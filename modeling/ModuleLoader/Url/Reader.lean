import ModuleLoader.Url.Path

/-! # Reading URLs

How a text is read as a URL, by itself or relative to a base.

* **`Url.parse`** reads an absolute URL.
* **`Url.join`** reads a text relative to a base. -/

namespace ModuleLoader.Url

open ModuleLoader.Text

/-! ## Query and fragment -/

/-- A text up to its query or fragment, and what follows. -/
def splitPath (cs : List Char) : List Char × List Char :=
  cs.span fun c => !(c == '?' || c == '#')

/-- The fragment that a text starting with `#` holds. -/
def readFragment : List Char → Option String
  | '#' :: rest => some (String.ofList (percentEncode encodedInFragment rest))
  | _ => none

/-- Query and fragment of a text that is empty or starts with `?` or `#`. -/
def readTail (scheme : String) : List Char → Option String × Option String
  | '?' :: rest =>
    let (query, fragment) := rest.span (· != '#')
    (some (String.ofList (percentEncode (encodedInQuery (isSpecialScheme scheme)) query)),
      readFragment fragment)
  | cs => (none, readFragment cs)

/-! ## Authority -/

/-- The text before the path that starts behind an authority, and that path. -/
def splitAuthority (special : Bool) (cs : List Char) : List Char × List Char :=
  cs.span fun c => !(c == '/' || c == '?' || c == '#' || (special && c == '\\'))

/-- What stands before and behind the last `@`. -/
def splitUser (cs : List Char) : Option (List Char × List Char) :=
  match cs.reverse.span (· != '@') with
  | (_, []) => none
  | (host, _ :: user) => some (user.reverse, host.reverse)

/-- The host of an authority and what follows its colon. -/
def splitPort (cs : List Char) : List Char × Option (List Char) :=
  let rec go : List Char → Bool → List Char × Option (List Char)
    | [], _ => ([], none)
    | c :: rest, bracketed =>
      if c == ':' && !bracketed then ([], some rest)
      else
        let (host, port) := go rest (c == '[' || c != ']' && bracketed)
        (c :: host, port)
  go cs false

/-- The port of an authority: absent when nothing is written or it is the scheme's own. -/
def readPort (scheme : String) (cs : List Char) : Except Failure (Option Nat) :=
  if cs.isEmpty then .ok none
  else if cs.all isDigit then
    let n := cs.foldl (fun n c => n * 10 + (c.toNat - '0'.toNat)) 0
    if n > 65535 then .error .badPort
    else if defaultPort scheme == some n then .ok none
    else .ok (some n)
  else .error .badPort

/-- An authority read from its text. -/
def readAuthority (scheme : String) (cs : List Char) : Except Failure Authority :=
  let special := isSpecialScheme scheme
  let (user, rest, named) := match splitUser cs with
    | none => ([], cs, false)
    | some (user, rest) => (user, rest, true)
  let (name, password) := user.span (· != ':')
  let username := String.ofList (percentEncode encodedInUser name)
  let password := String.ofList (percentEncode encodedInUser (password.drop 1))
  let (hostText, portText) := splitPort rest
  if hostText.isEmpty && (named && user.isEmpty) then .error .emptyHost
  else if hostText.isEmpty && (special || portText.isSome || !user.isEmpty) then .error .emptyHost
  else do
    let host ← hostOf special hostText
    let port ← match portText with
      | none => pure none
      | some p => readPort scheme p
    pure ⟨username, password, host, port⟩

/-- A URL from the text behind its `//`. -/
def readHierarchy (scheme : String) (cs : List Char) : Except Failure Url :=
  let (authorityText, rest) := splitAuthority (isSpecialScheme scheme) cs
  let (pathText, tail) := splitPath rest
  let (query, fragment) := readTail scheme tail
  do
    let authority ← readAuthority scheme authorityText
    pure ⟨scheme, some authority, .segments (rootedSegments scheme pathText), query, fragment⟩

/-! ## References to a base -/

/-- The segments of a base path; none when the path has no hierarchy. -/
def baseSegments (u : Url) : List String :=
  match u.path with
  | .segments names => names
  | .rootless _ => []

/-- A reference that has a path of its own behind the authority of the base. -/
def readRooted (base : Url) (cs : List Char) : Url :=
  let (pathText, tail) := splitPath cs
  let (query, fragment) := readTail base.scheme tail
  { base with path := .segments (segmentsOf base.scheme [] pathText), query, fragment }

/-- A reference whose path replaces the last segment of the base. -/
def readSibling (base : Url) (cs : List Char) : Url :=
  let (pathText, tail) := splitPath cs
  let (query, fragment) := readTail base.scheme tail
  let front := (shorten (base.scheme == "file") base.baseSegments.reverse).reverse
  { base with path := .segments (segmentsOf base.scheme front pathText), query, fragment }

/-- A reference that is empty or only a query or fragment. -/
def readSamePath (base : Url) (cs : List Char) : Url :=
  match cs with
  | '?' :: _ =>
    let (query, fragment) := readTail base.scheme cs
    { base with query, fragment }
  | _ => { base with fragment := readFragment cs }

/-- A reference without a scheme, or with the scheme of a special base, other than `file:`. -/
def readRelative (base : Url) (cs : List Char) : Except Failure Url :=
  let isSlash (c : Char) : Bool := c == '/' || c == '\\'
  let special := isSpecialScheme base.scheme
  match cs with
  | [] | '?' :: _ | '#' :: _ => .ok (readSamePath base cs)
  | c :: rest =>
    if c == '/' || (c == '\\' && special) then
      match rest with
      | d :: _ =>
        if isSlash d && (special || d == '/') then
          match cs with
          | '/' :: '/' :: after => readHierarchy base.scheme after
          | _ => readHierarchy base.scheme (cs.dropWhile isSlash)
        else .ok (readRooted base rest)
      | [] => .ok (readRooted base rest)
    else .ok (readSibling base cs)

/-! ## File URLs -/

/-- An authority with no host. -/
def noHost : Authority := ⟨"", "", "", none⟩

/-- A `file:` URL from the text behind `file://`. -/
def readFileHost (cs : List Char) : Except Failure Url :=
  let (hostText, rest) := splitAuthority true cs
  let finish (authority : Authority) (segments : List String) (tail : List Char) : Url :=
    let (query, fragment) := readTail "file" tail
    ⟨"file", some authority, .segments segments, query, fragment⟩
  if isDriveLetter (String.ofList hostText) then
    let (pathText, tail) := splitPath cs
    .ok (finish noHost (segmentsOf "file" [] pathText) tail)
  else
    let (pathText, tail) := splitPath rest
    let segments := rootedSegments "file" pathText
    let dropsHost := match segments with
      | s :: _ => isNormalDriveLetter s
      | [] => false
    if hostText.isEmpty then .ok (finish noHost segments tail)
    else do
      let host ← hostOf true hostText
      let authority := if host == "localhost" || dropsHost then noHost else { noHost with host }
      pure (finish authority segments tail)

/-- A `file:` URL from the text behind its scheme, with a `file:` base or none. -/
def readFile (base : Option Url) (cs : List Char) : Except Failure Url :=
  let isSlash (c : Char) : Bool := c == '/' || c == '\\'
  let plain (cs : List Char) : Url :=
    let (pathText, tail) := splitPath cs
    let (query, fragment) := readTail "file" tail
    ⟨"file", some noHost, .segments (segmentsOf "file" [] pathText), query, fragment⟩
  match cs with
  | c :: d :: rest =>
    if isSlash c && isSlash d then readFileHost rest
    else if isSlash c then .ok (slash (d :: rest))
    else .ok (noSlash plain cs)
  | [c] => if isSlash c then .ok (slash []) else .ok (noSlash plain cs)
  | [] => .ok (noSlash plain cs)
where
  /-- A path from the root: the drive letter or else the host of the base stays. -/
  slash (cs : List Char) : Url :=
    let (pathText, tail) := splitPath cs
    let (query, fragment) := readTail "file" tail
    let finish (authority : Authority) (front : List String) : Url :=
      ⟨"file", some authority, .segments (segmentsOf "file" front pathText), query, fragment⟩
    if startsWithDriveLetter cs then finish noHost []
    else match base with
      | none => finish noHost []
      | some b =>
        match b.baseSegments with
        | s :: _ =>
          if isNormalDriveLetter s then finish noHost [s] else finish (b.authority.getD noHost) []
        | [] => finish (b.authority.getD noHost) []
  /-- A path without leading slash: relative to the base, unless it names a drive. -/
  noSlash (plain : List Char → Url) (cs : List Char) : Url :=
    match base with
    | none => plain cs
    | some b =>
      match cs with
      | [] | '?' :: _ | '#' :: _ => readSamePath b cs
      | _ => if startsWithDriveLetter cs then plain cs else readSibling b cs

/-! ## Whole URLs -/

/-- The scheme that a text starts with, in small letters, and what follows its colon. -/
def readScheme (cs : List Char) : Option (String × List Char) :=
  match cs with
  | [] => none
  | c :: _ =>
    if isAsciiLetter c then
      let (name, rest) := cs.span fun c =>
        isAsciiLetter c || isDigit c || c == '+' || c == '-' || c == '.'
      match rest with
      | ':' :: after => some (String.ofList (name.map toAsciiLower), after)
      | _ => none
    else none

/-- A text without its leading and trailing blanks and without the characters a URL ignores. -/
def cleaned (text : String) : List Char :=
  let blank (c : Char) : Bool := c.toNat ≤ 0x20
  withoutBreaks ((text.toList.dropWhile blank).reverse.dropWhile blank).reverse

/-- A URL from the text behind its scheme. -/
def readWithScheme (base : Option Url) (scheme : String) (cs : List Char) : Except Failure Url :=
  let isSlash (c : Char) : Bool := c == '/' || c == '\\'
  if scheme == "file" then
    readFile (base.filter (·.scheme == "file")) cs
  else if isSpecialScheme scheme then
    let slashes := (cs.takeWhile isSlash).length
    match base with
    | some b =>
      if slashes < 2 && b.scheme == scheme then readRelative b cs
      else readHierarchy scheme (cs.dropWhile isSlash)
    | none => readHierarchy scheme (cs.dropWhile isSlash)
  else
    match cs with
    | '/' :: '/' :: rest => readHierarchy scheme rest
    | '/' :: rest =>
      let (pathText, tail) := splitPath rest
      let (query, fragment) := readTail scheme tail
      .ok ⟨scheme, none, .segments (segmentsOf scheme [] pathText), query, fragment⟩
    | _ =>
      let (pathText, tail) := splitPath cs
      let (query, fragment) := readTail scheme tail
      .ok ⟨scheme, none, .rootless (String.ofList (percentEncode isControl pathText)), query,
        fragment⟩

/-- The URL that a text denotes, read relative to a base if there is one. -/
def read (base : Option Url) (text : String) : Except Failure Url :=
  let cs := cleaned text
  match readScheme cs with
  | some (scheme, rest) => readWithScheme base scheme rest
  | none =>
    match base with
    | none => .error .noBase
    | some b =>
      match cs with
      | '#' :: _ => .ok (readSamePath b cs)
      | _ =>
        if b.isRootless then .error .rootlessBase
        else if b.scheme == "file" then readFile (some b) cs
        else readRelative b cs

/-- The absolute URL that a text denotes. -/
def parse (text : String) : Except Failure Url :=
  read none text

/-- The URL that a text denotes relative to a base. -/
def join (base : Url) (text : String) : Except Failure Url :=
  read (some base) text

end ModuleLoader.Url
