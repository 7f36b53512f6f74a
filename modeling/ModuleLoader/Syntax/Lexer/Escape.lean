import ModuleLoader.Text.Character
import ModuleLoader.Syntax.Tree

/-! # Escape sequences

What a backslash and the characters behind it stand for in strings, templates and identifiers.

* **`readEscape`** reads one escape sequence of a string or template.
* **`readUnicode`** reads what follows `\u`.
* **`stringValue`** joins what was read to the value of a literal. -/

namespace ModuleLoader.Syntax.Lexer

/-- A piece of the value of a string. -/
inductive Unit16
  /-- A character. -/
  | char (c : Char)
  /-- Half of a surrogate pair without its other half. -/
  | lone (n : Nat)
deriving DecidableEq, Repr, Inhabited

/-! ## Hexadecimal digits -/

/-- Reads exactly `count` hexadecimal digits. -/
def readHex : Nat → Nat → List Char → Option (Nat × List Char)
  | 0, acc, cs => some (acc, cs)
  | count + 1, acc, c :: cs =>
    match Text.hexValue? c with
    | some d => readHex count (16 * acc + d) cs
    | none => none
  | _ + 1, _, [] => none

/-- Reads hexadecimal digits, stopping as soon as they exceed the largest code point. What was
read is behind the result in any case. -/
def readCodePoint (acc : Option Nat) : List Char → Option Nat × List Char
  | [] => (acc, [])
  | c :: cs =>
    match Text.hexValue? c with
    | none => (acc, c :: cs)
    | some d =>
      let value := 16 * acc.getD 0 + d
      if value > 0x10FFFF then (none, cs) else readCodePoint (some value) cs

/-- Reading a code point leaves no more than there was. -/
theorem length_readCodePoint_le (acc : Option Nat) (cs : List Char) :
    (readCodePoint acc cs).2.length ≤ cs.length := by
  induction cs generalizing acc with
  | nil => simp [readCodePoint]
  | cons c cs ih =>
    unfold readCodePoint
    split
    · simp
    · rename_i d _
      dsimp only
      split
      · simp
      · have := ih (some (16 * acc.getD 0 + d))
        simp only [List.length_cons]
        omega

/-- The piece with a code point. -/
def unitOf (n : Nat) : Unit16 :=
  if 0xD800 ≤ n ∧ n ≤ 0xDFFF then .lone n else .char (Char.ofNat n)

/-- Reads digits in braces, or four digits; the text behind them is left even if they are wrong. -/
def readUnicode (cs : List Char) : Option Nat × List Char :=
  match cs with
  | '\x7b' :: rest =>
    match readCodePoint none rest with
    | (some n, '\x7d' :: rest) => (some n, rest)
    | (_, rest) => (none, rest)
  | _ =>
    match readHex 4 0 cs with
    | some (n, rest) => (some n, rest)
    | none => (none, cs.dropWhile fun c => (Text.hexValue? c).isSome)

/-- Reads what follows `\u` in a string, where two halves of a surrogate pair join. -/
def readUnicodeUnits (cs : List Char) : Option Unit16 × List Char :=
  match readUnicode cs with
  | (none, rest) => (none, rest)
  | (some n, rest) =>
    if cs.head? ≠ some '\x7b' ∧ 0xD800 ≤ n ∧ n ≤ 0xDBFF then
      match rest with
      | '\\' :: 'u' :: more =>
        match readHex 4 0 more with
        | some (low, more) =>
          if 0xDC00 ≤ low ∧ low ≤ 0xDFFF then
            (some (.char (Char.ofNat (0x10000 + (n - 0xD800) * 0x400 + (low - 0xDC00)))), more)
          else (some (.lone n), rest)
        | none => (some (.lone n), rest)
      | _ => (some (.lone n), rest)
    else (some (unitOf n), rest)

/-! ## Octal digits -/

/-- The value of an octal digit. -/
def octalValue? (c : Char) : Option Nat :=
  if '0' ≤ c ∧ c ≤ '7' then some (c.toNat - '0'.toNat) else none

/-- Reads up to `count` further octal digits. -/
def readOctal : Nat → Nat → List Char → Nat × List Char
  | 0, acc, cs => (acc, cs)
  | _ + 1, acc, [] => (acc, [])
  | count + 1, acc, c :: cs =>
    match octalValue? c with
    | some d => readOctal count (8 * acc + d) cs
    | none => (acc, c :: cs)

/-! ## Escapes -/

/-- What an escape sequence stands for. -/
structure Escape where
  /-- The pieces of the value. -/
  units : List Unit16
  /-- The sequence is one. -/
  isSound : Bool
  /-- The text behind it. -/
  rest : List Char
deriving Inhabited

/-- Reads what stands behind a backslash; nothing stands there at the end of the text. -/
def readEscape (inTemplate : Bool) : List Char → Escape
  | [] => ⟨[], true, []⟩
  | c :: rest =>
    let plain (d : Char) : Escape := ⟨[.char d], true, rest⟩
    if c == '\r' then
      match rest with
      | '\n' :: rest => ⟨[], true, rest⟩
      | _ => ⟨[], true, rest⟩
    else if Text.isLineTerminator c then ⟨[], true, rest⟩
    else if c == 'b' then plain '\x08'
    else if c == 'f' then plain '\x0c'
    else if c == 'n' then plain '\n'
    else if c == 'r' then plain '\r'
    else if c == 't' then plain '\t'
    else if c == 'v' then plain '\x0b'
    else if c == 'x' then
      match readHex 2 0 rest with
      | some (n, rest) => ⟨[.char (Char.ofNat n)], true, rest⟩
      | none => ⟨[], false, rest⟩
    else if c == 'u' then
      match readUnicodeUnits rest with
      | (some u, rest) => ⟨[u], true, rest⟩
      | (none, rest) => ⟨[], false, rest⟩
    else
      let digitFollows := match rest with
        | d :: _ => Text.isDigit d
        | [] => false
      if c == '0' && !digitFollows then plain '\x00'
      else if inTemplate then
        if Text.isDigit c then ⟨[], false, rest⟩ else plain c
      else
        match octalValue? c with
        | some d =>
          let (n, rest) := readOctal (if d ≤ 3 then 2 else 1) d rest
          ⟨[.char (Char.ofNat n)], true, rest⟩
        | none => plain c

/-- The piece is half a surrogate pair. -/
def Unit16.isLone : Unit16 → Bool
  | .lone _ => true
  | .char _ => false

/-- The value of a string with the given pieces. When a half of a surrogate pair is alone, it is
written as U+FFFD and four digits, and so is U+FFFD itself. -/
def stringValue (units : List Unit16) : String :=
  String.ofList (units.flatMap fun u => match u with
    | .char c => if units.any Unit16.isLone && c == '\uFFFD' then '\uFFFD' :: "fffd".toList else [c]
    | .lone n => '\uFFFD' :: Text.hexFixed n 4)

end ModuleLoader.Syntax.Lexer
