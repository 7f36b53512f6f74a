import ModuleLoader.Json.Cursor
import ModuleLoader.Number.Text

/-! # Values inside JSON

How single values are read where a value of one type is expected, and how values of fields that
nobody asks for are passed over.

* **`Json.readNumber`** reads a number.
* **`Json.skipValue`** passes over any value.
* **`Json.readText`**, **`Json.readBool`**, **`Json.readWord64`** read values of one type. -/

namespace ModuleLoader.Json

open ModuleLoader.Text

/-! ## Numbers -/

/-- A number as it is read: exact where it fits 64 bits. -/
inductive Number
  /-- A number that is not negative. -/
  | natural (n : Nat)
  /-- A negative number. -/
  | negative (n : Nat)
  /-- Any other number, by sign and size. -/
  | float (isNegative : Bool) (size : Binary64)
deriving DecidableEq, Repr, Inhabited

/-- How a number is named in messages. -/
def Number.describe : Number → String
  | .natural n => "integer \x60" ++ toString n ++ "\x60"
  | .negative n => "integer \x60-" ++ toString n ++ "\x60"
  | .float isNegative size => "floating point \x60" ++ Binary64.display isNegative size ++ "\x60"

/-- The digits from here, as many as there are. -/
def takeDigits (c : Cursor) : List Char × Cursor :=
  let digits := c.rest.takeWhile isDigit
  (digits, ⟨c.rest.dropWhile isDigit, c.offset + digits.length⟩)

/-- The number that decimal digits write. -/
def decimalValue (cs : List Char) : Nat :=
  cs.foldl (fun n c => n * 10 + (c.toNat - '0'.toNat)) 0

/-- Takes digits while the number they write stays below `2 ^ 64`; how many more there are. -/
def clampDigits : List Char → Nat → Nat × Nat
  | [], n => (n, 0)
  | c :: rest, n =>
    let m := n * 10 + (c.toNat - '0'.toNat)
    if m < 18446744073709551616 then clampDigits rest m else (n, (c :: rest).length)

/-- The number `n · 10 ^ e`, rounded when `n` is and again when scaled. -/
def scaled (n : Nat) (e : Int) : Option Binary64 :=
  let x := Binary64.ofNat n
  if e ≥ 0 then
    match (if n = 0 then Binary64.zero
      else if e > 308 then .infinite else x.mul (Binary64.ofDecimal 1 e)) with
    | .infinite => none
    | y => some y
  else if -e ≤ 308 then some (x.div (Binary64.ofDecimal 1 (-e)))
  else if -e ≤ 616 then
    some ((x.div (Binary64.ofDecimal 1 308)).div (Binary64.ofDecimal 1 (-e - 308)))
  else some .zero

/-- Reads the exponent of a number from behind its `e`. -/
def readExponent (c : Cursor) : Except Failure (Int × Cursor) :=
  let (negative, c) := match c.rest with
    | '+' :: _ => (false, c.next)
    | '-' :: _ => (true, c.next)
    | _ => (false, c)
  match c.rest with
  | [] => c.here .endInValue
  | x :: _ =>
    if isDigit x then
      let (digits, c) := takeDigits c
      let n : Int := decimalValue digits
      .ok (if negative then -n else n, c)
    else c.next.here .badNumber

/-- Reads a number from behind its sign. -/
def readUnsigned (isNegative : Bool) (c : Cursor) : Except Failure (Number × Cursor) :=
  match c.rest with
  | [] => c.here .endInValue
  | x :: rest =>
    if !isDigit x then c.next.here .badNumber
    else if x == '0' && (rest.head?.map isDigit).getD false then c.next.ahead .badNumber
    else
      let (digits, c) := takeDigits c
      let (n, extra) := clampDigits digits 0
      let finish (n : Nat) (e : Int) (c : Cursor) : Except Failure (Number × Cursor) :=
        match scaled n e with
        | some size => .ok (.float isNegative size, c)
        | none => c.here .hugeNumber
      match c.rest with
      | '.' :: _ =>
        let c := c.next
        let (fraction, c) := takeDigits c
        if fraction.isEmpty then
          if c.rest.isEmpty then c.here .endInValue else c.ahead .badNumber
        else
          let (n, lost) := if extra = 0 then clampDigits fraction n else (n, fraction.length)
          let places : Int := (fraction.length - lost : Nat)
          match c.rest with
          | 'e' :: _ | 'E' :: _ => do
            let (e, c) ← readExponent c.next
            finish n (e + extra - places) c
          | _ => finish n (extra - places) c
      | 'e' :: _ | 'E' :: _ => do
        let (e, c) ← readExponent c.next
        finish n (e + extra) c
      | _ =>
        if extra > 0 then finish n extra c
        else if !isNegative then .ok (.natural n, c)
        else if n = 0 ∨ n > 9223372036854775808 then .ok (.float true (Binary64.ofNat n), c)
        else .ok (.negative n, c)

/-- Reads a number. -/
def readNumber (c : Cursor) : Except Failure (Number × Cursor) :=
  match c.rest with
  | '-' :: _ => readUnsigned true c.next
  | _ => readUnsigned false c

/-! ## Values that are passed over -/

/-- Passes over the exponent of a number, if there is one. -/
def skipExponent (c : Cursor) : Except Failure Cursor :=
  match c.rest with
  | 'e' :: _ | 'E' :: _ =>
    let c := c.next
    let c := match c.rest with
      | '+' :: _ | '-' :: _ => c.next
      | _ => c
    match c.rest with
    | [] => c.here .badNumber
    | x :: _ => if isDigit x then .ok (takeDigits c).2 else c.next.here .badNumber
  | _ => .ok c

/-- Passes over a number from behind its sign. -/
def skipUnsigned (c : Cursor) : Except Failure Cursor :=
  match c.rest with
  | [] => c.here .badNumber
  | x :: rest =>
    if !isDigit x then c.next.here .badNumber
    else if x == '0' && (rest.head?.map isDigit).getD false then c.next.ahead .badNumber
    else
      let c := (takeDigits c).2
      match c.rest with
      | '.' :: _ =>
        let (fraction, c) := takeDigits c.next
        if fraction.isEmpty then c.ahead .badNumber else skipExponent c
      | _ => skipExponent c

mutual

/-- Passes over a value; the number bounds its depth and length. -/
def skipValueFrom : Nat → Cursor → Except Failure Cursor
  | 0, c => c.here .endInValue
  | fuel + 1, c =>
    let c := c.skipBlanks
    match c.rest with
    | [] => c.here .endInValue
    | 'n' :: _ => readWord c.next "ull".toList
    | 't' :: _ => readWord c.next "rue".toList
    | 'f' :: _ => readWord c.next "alse".toList
    | '"' :: _ => skipString c.next
    | '-' :: _ => skipUnsigned c.next
    | '[' :: _ =>
      let c := c.next.skipBlanks
      match c.rest with
      | [] => c.here .endInArray
      | ']' :: _ => .ok c.next
      | _ => do
        let c ← skipValueFrom fuel c
        skipElements fuel c
    | '\x7b' :: _ =>
      let c := c.next.skipBlanks
      match c.rest with
      | [] => c.here .endInObject
      | '\x7d' :: _ => .ok c.next
      | _ => do
        let c ← skipField fuel c
        skipFields fuel c
    | x :: _ => if isDigit x then skipUnsigned c else c.ahead .noValue

/-- Passes over the elements of an array behind one of them. -/
def skipElements : Nat → Cursor → Except Failure Cursor
  | 0, c => c.here .endInArray
  | fuel + 1, c =>
    let c := c.skipBlanks
    match c.rest with
    | [] => c.here .endInArray
    | ']' :: _ => .ok c.next
    | ',' :: _ => do
      let c ← skipValueFrom fuel c.next
      skipElements fuel c
    | _ => c.ahead .noCommaOrBracket

/-- Passes over one field of an object. -/
def skipField : Nat → Cursor → Except Failure Cursor
  | 0, c => c.here .endInObject
  | fuel + 1, c =>
    let c := c.skipBlanks
    match c.rest with
    | [] => c.here .endInObject
    | '"' :: _ => do
      let c ← skipString c.next
      let c := c.skipBlanks
      match c.rest with
      | [] => c.here .endInObject
      | ':' :: _ => skipValueFrom fuel c.next
      | _ => c.ahead .noColon
    | _ => c.ahead .keyNotString

/-- Passes over the fields of an object behind one of them. -/
def skipFields : Nat → Cursor → Except Failure Cursor
  | 0, c => c.here .endInObject
  | fuel + 1, c =>
    let c := c.skipBlanks
    match c.rest with
    | [] => c.here .endInObject
    | '\x7d' :: _ => .ok c.next
    | ',' :: _ => do
      let c ← skipField fuel c.next
      skipFields fuel c
    | _ => c.ahead .noCommaOrBrace

end

/-- Passes over a value. -/
def skipValue (c : Cursor) : Except Failure Cursor :=
  skipValueFrom (2 * c.rest.length + 2) c

/-! ## Values of one type -/

/-- A character as messages show it inside a quoted text. -/
def debugChar (c : Char) : List Char :=
  let n := c.toNat
  let code := '\\' :: 'u' :: '\x7b' :: (Nat.toDigits 16 n ++ ['\x7d'])
  if c == '"' then ['\\', '"']
  else if c == '\\' then ['\\', '\\']
  else if c == '\n' then ['\\', 'n']
  else if c == '\r' then ['\\', 'r']
  else if c == '\t' then ['\\', 't']
  else if n = 0 then ['\\', '0']
  else if n < 0x20 ∨ (0x7F ≤ n ∧ n < 0xA1) ∨ n = 0xAD ∨ (0x300 ≤ n ∧ n < 0x370) ∨
      (0x200B ≤ n ∧ n ≤ 0x200F) ∨ (0x2028 ≤ n ∧ n ≤ 0x202F) ∨ (0x205F ≤ n ∧ n ≤ 0x206F) ∨
      (0x2000 ≤ n ∧ n ≤ 0x200A) ∨ n = 0x3000 ∨ n = 0xFEFF ∨ (0xE000 ≤ n ∧ n ≤ 0xF8FF) ∨
      (0xFFF0 ≤ n ∧ n ≤ 0xFFFB) ∨ n ≥ 0xE0000 then code
  else [c]

/-- A text between quotes as messages show it. -/
def debugText (s : String) : String :=
  String.ofList ('"' :: s.toList.flatMap debugChar ++ ['"'])

/-- The failure of a value of another type than the one expected, at the place behind it; arrays
and objects are not read. -/
def wrongType {α : Type} (expected : String) (c : Cursor) : Except Failure α :=
  let fail (found : String) (c : Cursor) : Except Failure α :=
    c.here (.unexpected ("invalid type: " ++ found) expected)
  match c.rest with
  | 'n' :: _ => do fail "null" (← readWord c.next "ull".toList)
  | 't' :: _ => do fail "boolean \x60true\x60" (← readWord c.next "rue".toList)
  | 'f' :: _ => do fail "boolean \x60false\x60" (← readWord c.next "alse".toList)
  | '"' :: _ => do
    let (s, c) ← readString c.next
    fail ("string " ++ debugText s) c
  | '[' :: _ => fail "sequence" c
  | '\x7b' :: _ => fail "map" c
  | x :: _ =>
    if isDigit x || x == '-' then do
      let (n, c) ← readNumber c
      fail n.describe c
    else c.ahead .noValue
  | [] => c.ahead .noValue

/-- Reads a string where one is expected. -/
def readText (c : Cursor) : Except Failure (String × Cursor) :=
  let c := c.skipBlanks
  match c.rest with
  | [] => c.here .endInValue
  | '"' :: _ => readString c.next
  | _ => wrongType "a string" c

/-- Reads a truth value where one is expected. -/
def readBool (c : Cursor) : Except Failure (Bool × Cursor) :=
  let c := c.skipBlanks
  match c.rest with
  | [] => c.here .endInValue
  | 't' :: _ => (readWord c.next "rue".toList).map (true, ·)
  | 'f' :: _ => (readWord c.next "alse".toList).map (false, ·)
  | _ => wrongType "a boolean" c

/-- Reads a number of 64 bits where one is expected. -/
def readWord64 (c : Cursor) : Except Failure (UInt64 × Cursor) :=
  let c := c.skipBlanks
  match c.rest with
  | [] => c.here .endInValue
  | x :: _ =>
    if isDigit x || x == '-' then do
      let (n, c) ← readNumber c
      match n with
      | .natural n => pure (UInt64.ofNat n, c)
      | .negative _ => c.here (.unexpected ("invalid value: " ++ n.describe) "u64")
      | .float _ _ => c.here (.unexpected ("invalid type: " ++ n.describe) "u64")
    else wrongType "u64" c

/-! ## Arrays and objects -/

/-- Steps to the next element of an array, behind its bracket or an element; none are left at the
closing bracket, which is not passed. -/
def nextElement? (first : Bool) (c : Cursor) : Except Failure (Bool × Cursor) :=
  let c := c.skipBlanks
  match c.rest with
  | [] => c.here .endInArray
  | ']' :: _ => .ok (false, c)
  | x :: _ =>
    if first then .ok (true, c)
    else if x == ',' then
      let c := c.next.skipBlanks
      match c.rest with
      | [] => c.here .endInValue
      | ']' :: _ => c.ahead .trailingComma
      | _ => .ok (true, c)
    else c.ahead .noCommaOrBracket

/-- Passes the bracket that ends an array. -/
def endArray (c : Cursor) : Except Failure Cursor :=
  let c := c.skipBlanks
  match c.rest with
  | [] => c.here .endInArray
  | ']' :: _ => .ok c.next
  | ',' :: _ =>
    let c := c.next.skipBlanks
    match c.rest with
    | ']' :: _ => c.ahead .trailingComma
    | _ => c.ahead .trailing
  | _ => c.ahead .trailing

/-- Reads the elements of an array of strings; the number bounds how many there are. -/
def readTextsFrom : Nat → Bool → Cursor → List String → Except Failure (List String × Cursor)
  | 0, _, c, _ => c.here .endInArray
  | fuel + 1, first, c, acc => do
    let (more, c) ← nextElement? first c
    if more then
      let (s, c) ← readText c
      readTextsFrom fuel false c (s :: acc)
    else
      pure (acc.reverse, ← endArray c)

/-- Reads an array of strings where one is expected. -/
def readTexts (c : Cursor) : Except Failure (List String × Cursor) :=
  let c := c.skipBlanks
  match c.rest with
  | [] => c.here .endInValue
  | '[' :: _ => readTextsFrom (c.rest.length + 1) true c.next []
  | _ => wrongType "a sequence" c

/-- Steps to the next key of an object, behind its brace or a field; none are left at the closing
brace, which is not passed. -/
def nextKey? (first : Bool) (c : Cursor) : Except Failure (Option String × Cursor) :=
  let c := c.skipBlanks
  let key (c : Cursor) : Except Failure (Option String × Cursor) :=
    match c.rest with
    | '"' :: _ => do
      let (s, c) ← readString c.next
      pure (some s, c)
    | '\x7d' :: _ => c.ahead .trailingComma
    | [] => c.here .endInValue
    | _ => c.ahead .keyNotString
  match c.rest with
  | [] => c.here .endInObject
  | '\x7d' :: _ => .ok (none, c)
  | x :: _ =>
    if first then key c
    else if x == ',' then key c.next.skipBlanks
    else c.ahead .noCommaOrBrace

/-- Passes the colon behind a key. -/
def colon (c : Cursor) : Except Failure Cursor :=
  let c := c.skipBlanks
  match c.rest with
  | [] => c.here .endInObject
  | ':' :: _ => .ok c.next
  | _ => c.ahead .noColon

/-- Passes the brace that ends an object. -/
def endObject (c : Cursor) : Except Failure Cursor :=
  let c := c.skipBlanks
  match c.rest with
  | [] => c.here .endInObject
  | '\x7d' :: _ => .ok c.next
  | ',' :: _ => c.ahead .trailingComma
  | _ => c.ahead .trailing

end ModuleLoader.Json
