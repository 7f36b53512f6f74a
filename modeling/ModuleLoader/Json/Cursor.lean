import ModuleLoader.Text.Character

/-! # Reading JSON

A place in a JSON text and the steps that all readers of JSON share. A reader that fails says what
it met and where, as the number of bytes before the place.

* **`Json.Cursor`** is a place in the text.
* **`Json.Problem`** lists what a reader can meet; **`Json.Failure.message`** words it with its
  line and column.
* **`Json.readString`**, **`Json.skipString`** read the inside of a string, with and without
  keeping it. -/

namespace ModuleLoader.Json

open ModuleLoader.Text

/-- What stands in a text instead of what a reader expects. -/
inductive Problem
  /-- The text ends inside an array. -/
  | endInArray
  /-- The text ends inside an object. -/
  | endInObject
  /-- The text ends inside a string. -/
  | endInString
  /-- The text ends where a value should be. -/
  | endInValue
  /-- No colon behind a key. -/
  | noColon
  /-- Neither comma nor bracket behind an element. -/
  | noCommaOrBracket
  /-- Neither comma nor brace behind a field. -/
  | noCommaOrBrace
  /-- A word that is none of `null`, `true` and `false`. -/
  | badWord
  /-- Nothing that starts a value. -/
  | noValue
  /-- A backslash with nothing that may follow it. -/
  | badEscape
  /-- Digits that are no number. -/
  | badNumber
  /-- A number too large for the format. -/
  | hugeNumber
  /-- A control character inside a string. -/
  | control
  /-- A key that is no string. -/
  | keyNotString
  /-- Half of a pair of surrogates. -/
  | loneSurrogate
  /-- Half of a pair of surrogates with no escape behind it. -/
  | cutSurrogate
  /-- A comma with nothing behind it. -/
  | trailingComma
  /-- More text behind the value. -/
  | trailing
  /-- A value of a type or range that is not expected. -/
  | unexpected (found expected : String)
  /-- A field that is there twice. -/
  | repeated (field : String)
  /-- A name that is none of the expected ones. -/
  | unknownName (name expected : String)
deriving DecidableEq, Repr, Inhabited

/-- The wording of a problem. -/
def Problem.message : Problem → String
  | .endInArray => "EOF while parsing a list"
  | .endInObject => "EOF while parsing an object"
  | .endInString => "EOF while parsing a string"
  | .endInValue => "EOF while parsing a value"
  | .noColon => "expected \x60:\x60"
  | .noCommaOrBracket => "expected \x60,\x60 or \x60]\x60"
  | .noCommaOrBrace => "expected \x60,\x60 or \x60\x7d\x60"
  | .badWord => "expected ident"
  | .noValue => "expected value"
  | .badEscape => "invalid escape"
  | .badNumber => "invalid number"
  | .hugeNumber => "number out of range"
  | .control => "control character (\\u0000-\\u001F) found while parsing a string"
  | .keyNotString => "key must be a string"
  | .loneSurrogate => "lone leading surrogate in hex escape"
  | .cutSurrogate => "unexpected end of hex escape"
  | .trailingComma => "trailing comma"
  | .trailing => "trailing characters"
  | .unexpected found expected => found ++ ", expected " ++ expected
  | .repeated field => "duplicate field \x60" ++ field ++ "\x60"
  | .unknownName name expected =>
    "unknown variant \x60" ++ name ++ "\x60, expected " ++ expected

/-- A problem and the number of bytes before it. -/
structure Failure where
  /-- What was met. -/
  problem : Problem
  /-- How many bytes of the text precede it. -/
  offset : Nat
deriving DecidableEq, Repr, Inhabited

/-- The line of a byte and how many bytes of that line precede it. -/
def lineColumn : List Char → Nat → Nat × Nat → Nat × Nat
  | [], _, at_ => at_
  | c :: rest, left, (line, column) =>
    let size := c.utf8Size
    if left < size then (line, column + left)
    else if c == '\n' then lineColumn rest (left - size) (line + 1, 0)
    else lineColumn rest (left - size) (line, column + size)

/-- The wording of a failure in a text. -/
def Failure.message (text : String) (f : Failure) : String :=
  let (line, column) := lineColumn text.toList f.offset (1, 0)
  f.problem.message ++ " at line " ++ toString line ++ " column " ++ toString column

/-- A place in a text: what follows it and how many bytes precede it. -/
structure Cursor where
  /-- The text from here on. -/
  rest : List Char
  /-- How many bytes precede it. -/
  offset : Nat
deriving DecidableEq, Repr, Inhabited

namespace Cursor

/-- The start of a text. -/
def ofString (s : String) : Cursor := ⟨s.toList, 0⟩

/-- The place behind the next character. -/
def next (c : Cursor) : Cursor :=
  match c.rest with
  | [] => c
  | x :: rest => ⟨rest, c.offset + x.utf8Size⟩

/-- A problem at this place. -/
def here {α : Type} (c : Cursor) (p : Problem) : Except Failure α :=
  .error ⟨p, c.offset⟩

/-- A problem with the next character, which is counted if there is one. -/
def ahead {α : Type} (c : Cursor) (p : Problem) : Except Failure α :=
  .error ⟨p, if c.rest.isEmpty then c.offset else c.offset + 1⟩

/-- The blanks of JSON. -/
def isBlank (c : Char) : Bool :=
  c == ' ' || c == '\n' || c == '\t' || c == '\r'

/-- The place behind all blanks from here. -/
def skipBlanks (c : Cursor) : Cursor :=
  let blanks := c.rest.takeWhile isBlank
  ⟨c.rest.dropWhile isBlank, c.offset + blanks.length⟩

end Cursor

/-! ## Words -/

/-- Reads the rest of a word. -/
def readWord (c : Cursor) : List Char → Except Failure Cursor
  | [] => .ok c
  | x :: word =>
    match c.rest with
    | [] => c.here .endInValue
    | y :: _ => if x = y then readWord c.next word else c.next.here .badWord

/-! ## Strings -/

/-- Reads four hexadecimal digits. -/
def readHex4 (c : Cursor) : Except Failure (Nat × Cursor) :=
  match c.rest with
  | w :: x :: y :: z :: rest =>
    match hexValue? w, hexValue? x, hexValue? y, hexValue? z with
    | some a, some b, some d, some e =>
      .ok (((a * 16 + b) * 16 + d) * 16 + e, ⟨rest, c.offset + 4⟩)
    | _, _, _, _ => .error ⟨.badEscape, c.offset + 4⟩
  | rest => .error ⟨.endInString, c.offset + rest.foldl (fun n x => n + x.utf8Size) 0⟩

/-- The character that a backslash and a letter stand for. -/
def simpleEscape? : Char → Option Char
  | '"' => some '"'
  | '\\' => some '\\'
  | '/' => some '/'
  | 'b' => some '\x08'
  | 'f' => some '\x0c'
  | 'n' => some '\n'
  | 'r' => some '\r'
  | 't' => some '\t'
  | _ => none

/-- Reads the digits of a `\u` escape, and of a second one where the first is half of a pair. -/
def readUnicode (c : Cursor) : Except Failure (Char × Cursor) := do
  let (n, c) ← readHex4 c
  if 0xDC00 ≤ n ∧ n ≤ 0xDFFF then c.here .loneSurrogate
  else if n < 0xD800 ∨ n > 0xDBFF then pure (Char.ofNat n, c)
  else
    match c.rest with
    | [] => c.here .endInString
    | '\\' :: _ =>
      let c := c.next
      match c.rest with
      | [] => c.here .endInString
      | 'u' :: _ =>
        let (m, c) ← readHex4 c.next
        if m < 0xDC00 ∨ m > 0xDFFF then c.here .loneSurrogate
        else pure (Char.ofNat ((n - 0xD800) * 0x400 + (m - 0xDC00) + 0x10000), c)
      | _ => .error ⟨.cutSurrogate, c.offset + 1⟩
    | _ => .error ⟨.cutSurrogate, c.offset + 1⟩

/-- Reads a string from behind its opening quote; the number bounds its length. -/
def readStringFrom : Nat → Cursor → List Char → Except Failure (String × Cursor)
  | 0, c, _ => c.here .endInString
  | fuel + 1, c, acc =>
    match c.rest with
    | [] => c.here .endInString
    | '"' :: _ => .ok (String.ofList acc.reverse, c.next)
    | '\\' :: _ =>
      let c := c.next
      match c.rest with
      | [] => c.here .endInString
      | 'u' :: _ => do
        let (x, c) ← readUnicode c.next
        readStringFrom fuel c (x :: acc)
      | x :: _ =>
        match simpleEscape? x with
        | some y => readStringFrom fuel c.next (y :: acc)
        | none => c.next.here .badEscape
    | x :: _ =>
      if x.toNat < 0x20 then c.next.here .control
      else readStringFrom fuel c.next (x :: acc)

/-- Reads a string from behind its opening quote. -/
def readString (c : Cursor) : Except Failure (String × Cursor) :=
  readStringFrom (c.rest.length + 1) c []

/-- Passes over a string from behind its opening quote; the number bounds its length. -/
def skipStringFrom : Nat → Cursor → Except Failure Cursor
  | 0, c => c.here .endInString
  | fuel + 1, c =>
    match c.rest with
    | [] => c.here .endInString
    | '"' :: _ => .ok c.next
    | '\\' :: _ =>
      let c := c.next
      match c.rest with
      | [] => c.here .endInString
      | 'u' :: _ => do
        let (_, c) ← readHex4 c.next
        skipStringFrom fuel c
      | x :: _ =>
        if (simpleEscape? x).isSome then skipStringFrom fuel c.next else c.next.here .badEscape
    | x :: _ => if x.toNat < 0x20 then c.here .control else skipStringFrom fuel c.next

/-- Passes over a string from behind its opening quote. -/
def skipString (c : Cursor) : Except Failure Cursor :=
  skipStringFrom (c.rest.length + 1) c

/-! ## Writing strings -/

/-- One character inside a written string. -/
def escapeChar (c : Char) : List Char :=
  if c == '"' then ['\\', '"']
  else if c == '\\' then ['\\', '\\']
  else if c == '\x08' then ['\\', 'b']
  else if c == '\x0c' then ['\\', 'f']
  else if c == '\n' then ['\\', 'n']
  else if c == '\r' then ['\\', 'r']
  else if c == '\t' then ['\\', 't']
  else if c.toNat < 0x20 then '\\' :: 'u' :: hexFixed c.toNat 4
  else [c]

/-- A string between quotes. -/
def quote (s : String) : String :=
  String.ofList ('"' :: s.toList.flatMap escapeChar ++ ['"'])

end ModuleLoader.Json
