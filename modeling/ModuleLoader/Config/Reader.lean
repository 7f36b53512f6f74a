import ModuleLoader.Config.Basic

/-! # Reading options

Options are an object whose fields may come in any order and may be missing, or an array of the
values in order, of which the last ones may be missing. Fields that are not known are passed over;
none may come twice.

* **`Config.Partial`** is what has been read of the options.
* **`Config.read`** reads options from JSON and checks that they hold together. -/

namespace ModuleLoader.Config

open ModuleLoader.Json

/-! ## Steps shared by all records -/

/-- A value of one type at a place in a text. -/
abbrev Reader (α : Type) := Cursor → Except Json.Failure (α × Cursor)

/-- Reads the fields of an object behind its brace, or behind a field. The number bounds how many
there are. -/
def readFields {α : Type} (set : α → String → Cursor → Except Json.Failure (Option (α × Cursor)))
    : Nat → Bool → α → Reader α
  | 0, _, _, c => c.here .endInObject
  | fuel + 1, first, a, c => do
    let (key, c) ← nextKey? first c
    match key with
    | none => pure (a, c)
    | some key =>
      match ← set a key c with
      | some (a, c) => readFields set fuel false a c
      | none => do
        let c ← colon c
        let c ← skipValue c
        readFields set fuel false a c

/-- Reads the elements of an array behind its bracket, each by its own step. -/
def readElements {α : Type} (steps : List (α → Cursor → Except Json.Failure (α × Cursor))) :
    Bool → α → Reader α :=
  match steps with
  | [] => fun _ a c => .ok (a, c)
  | step :: steps => fun first a c => do
    let (more, c) ← nextElement? first c
    if more then
      let (a, c) ← step a c
      readElements steps false a c
    else pure (a, c)

/-- The end of an object is passed even behind a field that came twice, and only then is the
place of that field said. -/
def repeatedAt {α : Type} (field : String) (c : Cursor) : Except Json.Failure α :=
  match endObject c with
  | .ok c => c.here (.repeated field)
  | .error _ => c.skipBlanks.here (.repeated field)

/-- Reads the value of a field behind its key, if it has not come before. -/
def readField {α β : Type} (name : String) (old : Option β) (read : Reader β)
    (set : β → α) (c : Cursor) : Except Json.Failure (Option (α × Cursor)) := do
  if old.isSome then repeatedAt name c
  else
    let c ← colon c
    let (b, c) ← read c
    pure (some (set b, c))

/-- Reads a record: an object with the given fields or an array with the given elements. -/
def readRecord {α : Type} (name : String) (empty : α)
    (set : α → String → Cursor → Except Json.Failure (Option (α × Cursor)))
    (steps : List (α → Cursor → Except Json.Failure (α × Cursor))) : Reader α := fun c =>
  let c := c.skipBlanks
  match c.rest with
  | [] => c.here .endInValue
  | '\x7b' :: _ => do
    let (a, c) ← readFields set (c.rest.length + 1) true empty c.next
    let c ← endObject c
    pure (a, c)
  | '[' :: _ => do
    let (a, c) ← readElements steps true empty c.next
    let c ← endArray c
    pure (a, c)
  | _ => wrongType ("struct " ++ name) c

/-! ## The way to find imports -/

/-- The way to find imports with a name. -/
def scanModeOf (name : String) (c : Cursor) : Except Json.Failure ScanMode :=
  if name == ScanMode.syntaxTree.name then .ok .syntaxTree
  else if name == ScanMode.text.name then .ok .text
  else c.here (.unknownName name "\x60ast\x60 or \x60regex\x60")

/-- Reads `null`, which is all that may stand beside a name. -/
def readUnit (c : Cursor) : Except Json.Failure Cursor :=
  let c := c.skipBlanks
  match c.rest with
  | [] => c.here .endInValue
  | 'n' :: _ => readWord c.next "ull".toList
  | _ => wrongType "unit" c

/-- Reads the way to find imports: a name, or an object with the name as its key. -/
def readScanMode : Reader ScanMode := fun c =>
  let c := c.skipBlanks
  match c.rest with
  | [] => c.here .endInValue
  | '"' :: _ => do
    let (name, c) ← readString c.next
    let mode ← scanModeOf name c
    pure (mode, c)
  | '\x7b' :: _ => do
    let c := c.next.skipBlanks
    match c.rest with
    | [] => c.here .endInValue
    | '"' :: _ =>
      let (name, c) ← readString c.next
      let mode ← scanModeOf name c
      let c ← colon c
      let c ← readUnit c
      let c := c.skipBlanks
      match c.rest with
      | '\x7d' :: _ => pure (mode, c.next)
      | [] => c.here .endInObject
      | _ => c.here .noValue
    | _ => c.ahead .noValue
  | _ => c.ahead .noValue

/-! ## The options for elements -/

/-- What has been read of the options for elements. -/
structure JsxPartial where
  /-- The package. -/
  importSource : Option String
  /-- The flag for development. -/
  development : Option Bool

/-- The options for elements, where what has not been read is as usual. -/
def JsxPartial.complete (p : JsxPartial) : JsxConfig :=
  ⟨p.importSource.getD JsxConfig.default.importSource,
    p.development.getD JsxConfig.default.development⟩

/-- Reads one field of the options for elements, if it is one. -/
def setJsx (p : JsxPartial) (key : String) (c : Cursor) :
    Except Json.Failure (Option (JsxPartial × Cursor)) :=
  if key == "importSource" then
    readField key p.importSource readText (fun v => { p with importSource := some v }) c
  else if key == "development" then
    readField key p.development readBool (fun v => { p with development := some v }) c
  else .ok none

/-- Reads a value for a part of a record. -/
def element {α β : Type} (read : Reader β) (set : α → β → α) (a : α) : Reader α := fun c => do
  let (b, c) ← read c
  pure (set a b, c)

/-- Reads the options for elements. -/
def readJsx : Reader JsxConfig := fun c => do
  let (p, c) ← readRecord "JsxConfig" ⟨none, none⟩ setJsx
    [element readText fun p v => { p with importSource := some v },
      element readBool fun p v => { p with development := some v }] c
  pure (p.complete, c)

/-! ## All options -/

/-- What has been read of the options. -/
structure Partial where
  /-- The extensions to try. -/
  probeExtensions : Option (List String)
  /-- The time for a try. -/
  probeTimeoutMs : Option UInt64
  /-- The extension to assume. -/
  fallbackExtension : Option String
  /-- The type of blobs. -/
  blobMimeType : Option String
  /-- The origin of blobs. -/
  blobOrigin : Option String
  /-- The way to find imports. -/
  scanMode : Option ScanMode
  /-- The options for elements. -/
  jsx : Option JsxConfig

/-- Nothing has been read. -/
def Partial.empty : Partial := ⟨none, none, none, none, none, none, none⟩

/-- The options, where what has not been read is as usual. -/
def Partial.complete (p : Partial) : Config :=
  { probeExtensions := p.probeExtensions.getD default.probeExtensions
    probeTimeoutMs := p.probeTimeoutMs.getD default.probeTimeoutMs
    fallbackExtension := p.fallbackExtension.getD default.fallbackExtension
    blobMimeType := p.blobMimeType.getD default.blobMimeType
    blobOrigin := p.blobOrigin.getD default.blobOrigin
    scanMode := p.scanMode.getD default.scanMode
    jsx := p.jsx.getD default.jsx }

/-- Reads one field of the options, if it is one. -/
def setField (p : Partial) (key : String) (c : Cursor) :
    Except Json.Failure (Option (Partial × Cursor)) :=
  if key == "probeExtensions" then
    readField key p.probeExtensions readTexts (fun v => { p with probeExtensions := some v }) c
  else if key == "probeTimeoutMs" then
    readField key p.probeTimeoutMs readWord64 (fun v => { p with probeTimeoutMs := some v }) c
  else if key == "fallbackExtension" then
    readField key p.fallbackExtension readText
      (fun v => { p with fallbackExtension := some v }) c
  else if key == "blobMimeType" then
    readField key p.blobMimeType readText (fun v => { p with blobMimeType := some v }) c
  else if key == "blobOrigin" then
    readField key p.blobOrigin readText (fun v => { p with blobOrigin := some v }) c
  else if key == "scanMode" then
    readField key p.scanMode readScanMode (fun v => { p with scanMode := some v }) c
  else if key == "jsx" then
    readField key p.jsx readJsx (fun v => { p with jsx := some v }) c
  else .ok none

/-- Reads options without checking that they hold together. -/
def readPartial : Reader Partial :=
  readRecord "LoaderConfig" Partial.empty setField
    [element readTexts fun p v => { p with probeExtensions := some v },
      element readWord64 fun p v => { p with probeTimeoutMs := some v },
      element readText fun p v => { p with fallbackExtension := some v },
      element readText fun p v => { p with blobMimeType := some v },
      element readText fun p v => { p with blobOrigin := some v },
      element readScanMode fun p v => { p with scanMode := some v },
      element readJsx fun p v => { p with jsx := some v }]

/-- Nothing but blanks may follow the options. -/
def atEnd (c : Cursor) : Except Json.Failure Unit :=
  let c := c.skipBlanks
  if c.rest.isEmpty then .ok () else c.ahead .trailing

/-- Reads options without checking that they hold together. -/
def parse (json : String) : Except Json.Failure Config := do
  let (p, c) ← readPartial (Cursor.ofString json)
  atEnd c
  pure p.complete

/-- Reads options, which have to hold together. -/
def read (json : String) : Except Failure Config :=
  match parse json with
  | .error f => .error (.config (f.message json))
  | .ok c =>
    match c.invalid? with
    | some reason => .error (.config reason)
    | none => .ok c

/-- Options are read exactly when they can be parsed and hold together. -/
theorem read_eq_ok_iff (json : String) (c : Config) :
    read json = .ok c ↔ parse json = .ok c ∧ c.invalid? = none := by
  unfold read
  cases hp : parse json with
  | error f => simp
  | ok d =>
    cases hi : d.invalid? with
    | some reason =>
      simp only [hi, reduceCtorEq, Except.ok.injEq, false_iff, not_and]
      intro hd
      simp [← hd, hi]
    | none =>
      simp only [hi, Except.ok.injEq]
      exact ⟨fun hd => ⟨hd, hd ▸ hi⟩, And.left⟩

end ModuleLoader.Config
