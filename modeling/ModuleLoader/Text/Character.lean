import ModuleLoader.Text.IdentifierTable

/-! # Classes of characters

The character classes that the scanners and printers of this library decide by: Unicode white
space, word characters, identifier characters, line terminators, and hexadecimal digits.

* **`isWhiteSpace`** is the Unicode property `White_Space`.
* **`isWord`** is the class of word characters: letters, marks, decimal digits, connectors, joiners.
* **`isIdentifierStart`**, **`isIdentifierPart`** bound the names of JavaScript.
* **`isLineTerminator`** marks the ends of JavaScript lines.
* **`hexValue?`**, **`hexDigit`** read and write one hexadecimal digit. -/

namespace ModuleLoader.Text

/-! ## White space -/

/-- The Unicode property `White_Space`. -/
def isWhiteSpace (c : Char) : Bool :=
  let n := c.toNat
  (9 ≤ n && n ≤ 13) || n == 32 || n == 0x85 || n == 0xA0 || n == 0x1680 ||
    (0x2000 ≤ n && n ≤ 0x200A) || n == 0x2028 || n == 0x2029 || n == 0x202F || n == 0x205F ||
    n == 0x3000

/-- Every character of the ASCII white space class is Unicode white space. -/
theorem isWhiteSpace_of_isWhitespace (c : Char) (h : c.isWhitespace = true) :
    isWhiteSpace c = true := by
  simp only [Char.isWhitespace, Bool.or_eq_true, decide_eq_true_eq] at h
  rcases h with ((h | h) | h) | h <;> subst h <;> decide

/-- The characters that end a line of JavaScript. -/
def isLineTerminator (c : Char) : Bool :=
  c == '\n' || c == '\r' || c == '\u2028' || c == '\u2029'

/-- The blanks between tokens of JavaScript that do not end a line. -/
def isBlank (c : Char) : Bool :=
  let n := c.toNat
  n == 9 || n == 11 || n == 12 || n == 32 || n == 0x85 || n == 0xA0 || n == 0x1680 ||
    (0x2000 ≤ n && n ≤ 0x200B) || n == 0x202F || n == 0x205F || n == 0x3000 ||
    n == 0xFEFF

/-! ## Words and identifiers -/

/-- The ASCII letters. -/
def isAsciiLetter (c : Char) : Bool :=
  ('a' ≤ c && c ≤ 'z') || ('A' ≤ c && c ≤ 'Z')

/-- The ASCII decimal digits. -/
def isDigit (c : Char) : Bool :=
  '0' ≤ c && c ≤ '9'

/-- The characters of the Unicode class of word characters: letters, marks, decimal digits,
connector punctuation and joiners. -/
def isWord (c : Char) : Bool :=
  let n := c.toNat
  if n < 128 then isAsciiLetter c || isDigit c || c == '_'
  else
    (inBoundaries n idStartBoundaries || inBoundaries n idContinueBoundaries ||
      inBoundaries n wordBoundaries) &&
    !(n == 0xB7 || n == 0x387 || (0x1369 ≤ n && n ≤ 0x1371) || n == 0x19DA || n == 0x2118 ||
      n == 0x212E || n == 0x309B || n == 0x309C || n == 0x30FB || n == 0xFF65)

/-- The characters that may start an identifier. -/
def isIdentifierStart (c : Char) : Bool :=
  let n := c.toNat
  if n < 128 then isAsciiLetter c || c == '_' || c == '$'
  else inBoundaries n idStartBoundaries

/-- The characters that may continue an identifier. -/
def isIdentifierPart (c : Char) : Bool :=
  let n := c.toNat
  if n < 128 then isAsciiLetter c || isDigit c || c == '_' || c == '$'
  else
    inBoundaries n idStartBoundaries || inBoundaries n idContinueBoundaries ||
      n == 0x200C || n == 0x200D

/-- Whatever starts an identifier may also continue one. -/
theorem isIdentifierPart_of_isIdentifierStart (c : Char) (h : isIdentifierStart c = true) :
    isIdentifierPart c = true := by
  unfold isIdentifierStart at h
  unfold isIdentifierPart
  by_cases hc : c.toNat < 128
  · simp only [hc, if_true, Bool.or_eq_true] at h ⊢
    rcases h with (h | h) | h <;> simp [h]
  · simp only [hc, if_false] at h ⊢
    simp [h]

/-- A text that is an identifier by its characters alone. -/
def isIdentifierName (s : String) : Bool :=
  match s.toList with
  | [] => false
  | c :: rest => isIdentifierStart c && rest.all isIdentifierPart

/-! ## Letter case of ASCII -/

/-- ASCII capitals become small letters; every other character stays. -/
def toAsciiLower (c : Char) : Char :=
  if 'A' ≤ c ∧ c ≤ 'Z' then Char.ofNat (c.toNat + 32) else c

/-- The text with its ASCII capitals made small. -/
def asciiLowercase (s : String) : String :=
  String.ofList (s.toList.map toAsciiLower)

/-! ## Hexadecimal digits -/

/-- The value of a hexadecimal digit in either case. -/
def hexValue? (c : Char) : Option Nat :=
  if isDigit c then some (c.toNat - '0'.toNat)
  else if 'a' ≤ c ∧ c ≤ 'f' then some (c.toNat - 'a'.toNat + 10)
  else if 'A' ≤ c ∧ c ≤ 'F' then some (c.toNat - 'A'.toNat + 10)
  else none

/-- The small hexadecimal digit of a value below sixteen. -/
def hexDigit (n : Nat) : Char :=
  if n < 10 then Char.ofNat ('0'.toNat + n) else Char.ofNat ('a'.toNat + (n - 10))

/-- The capital hexadecimal digit of a value below sixteen. -/
def hexDigitUpper (n : Nat) : Char :=
  if n < 10 then Char.ofNat ('0'.toNat + n) else Char.ofNat ('A'.toNat + (n - 10))

/-- Reading back a written digit gives its value. -/
theorem hexValue?_hexDigit : ∀ n : Fin 16, hexValue? (hexDigit n) = some n.val := by decide

/-- The number `n` in small hexadecimal digits, zero-filled on the left to `width`. -/
def hexFixed (n : Nat) : Nat → List Char
  | 0 => []
  | width + 1 => hexFixed (n / 16) width ++ [hexDigit (n % 16)]

/-- A fixed-width number has as many digits as asked for. -/
@[simp] theorem length_hexFixed (n width : Nat) : (hexFixed n width).length = width := by
  induction width generalizing n with
  | zero => rfl
  | succ w ih => simp [hexFixed, ih]

/-- How many hexadecimal digits `n` needs; none for zero. -/
def hexLength (n : Nat) : Nat :=
  if h : n = 0 then 0 else hexLength (n / 16) + 1
termination_by n
decreasing_by omega

/-- The number `n` in small hexadecimal digits, at least `width` of them. -/
def hexAtLeast (n width : Nat) : List Char :=
  hexFixed n (max width (hexLength n))

end ModuleLoader.Text
