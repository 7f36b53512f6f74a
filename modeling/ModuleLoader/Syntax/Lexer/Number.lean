import ModuleLoader.Text.Character
import ModuleLoader.Syntax.Token

/-! # Numeric literals

* **`readNumber`** reads a number that starts with a digit or with a point and a digit.
* **`Piece`** is what a step of reading has found.

A fault in a number does not end it; letters right behind it make it no number at all. -/

namespace ModuleLoader.Syntax.Lexer

/-- A token that has been read: its form, the faults in it, and the text behind it. -/
structure Piece where
  /-- What it is. -/
  form : Form
  /-- The messages of its faults, first one first. -/
  faults : List String
  /-- The text behind it. -/
  rest : List Char
deriving Inhabited

/-- The fault of a character that cannot stand here, or of a text that ends here. -/
def unexpectedFault : List Char → String
  | [] => "Unexpected end of file"
  | c :: _ => "Invalid Character \x60" ++ c.toString ++ "\x60"

/-! ## Digits -/

/-- Digits that have been read, with a fault when a separator has no digit behind it. -/
structure Digits where
  /-- The digits in order. -/
  digits : List Char
  /-- The fault in them. -/
  faults : List String
  /-- The text behind them. -/
  rest : List Char
deriving Inhabited

/-- Puts a digit in front. -/
def Digits.cons (c : Char) (d : Digits) : Digits := { d with digits := c :: d.digits }

/-- Reads digits and the separators between them. -/
def readDigits (isDigit : Char → Bool) : List Char → Digits
  | [] => ⟨[], [], []⟩
  | ['_'] => ⟨[], [unexpectedFault []], []⟩
  | '_' :: c :: rest =>
    if isDigit c then (readDigits isDigit rest).cons c
    else ⟨[], [unexpectedFault (c :: rest)], c :: rest⟩
  | c :: rest => if isDigit c then (readDigits isDigit rest).cons c else ⟨[], [], c :: rest⟩

/-- Reads at least one digit. -/
def readSomeDigits (isDigit : Char → Bool) (cs : List Char) : Digits :=
  match cs with
  | c :: rest =>
    if isDigit c then (readDigits isDigit rest).cons c else ⟨[], [unexpectedFault cs], cs⟩
  | [] => ⟨[], [unexpectedFault cs], cs⟩

/-- The number that digits make in a base. -/
def digitsNumber (base : Nat) (digits : List Char) : Nat :=
  digits.foldl (fun acc c => base * acc + (Text.hexValue? c).getD 0) 0

/-! ## The end of a number -/

/-- Nothing that could continue a name may follow a number. -/
def endNumber (form : Form) (faults : List String) (rest : List Char) : Piece :=
  match rest with
  | c :: more =>
    if Text.isIdentifierStart c || Text.isDigit c then
      ⟨.invalid, faults ++ ["Invalid characters after number"],
        more.dropWhile Text.isIdentifierStart⟩
    else ⟨form, faults, rest⟩
  | [] => ⟨form, faults, rest⟩

/-! ## Decimal numbers -/

/-- The exponent of a number, with its sign. -/
def readExponent (cs : List Char) : Int × Digits :=
  match cs with
  | '-' :: rest =>
    let d := readSomeDigits Text.isDigit rest
    (-(digitsNumber 10 d.digits : Int), d)
  | '+' :: rest =>
    let d := readSomeDigits Text.isDigit rest
    ((digitsNumber 10 d.digits : Int), d)
  | _ =>
    let d := readSomeDigits Text.isDigit cs
    ((digitsNumber 10 d.digits : Int), d)

/-- Reads an exponent if there is one, and ends the number with the given digits before and
behind the point. -/
def readScale (form : NumberForm) (whole fraction : List Char) (faults : List String)
    (cs : List Char) : Piece :=
  let digits := digitsNumber 10 (whole ++ fraction)
  let places : Int := fraction.length
  match cs with
  | c :: rest =>
    if c == 'e' || c == 'E' then
      let (exponent, d) := readExponent rest
      let form := if form == .decimal then NumberForm.exponential else form
      endNumber (.number form (Binary64.ofDecimal digits (exponent - places))) (faults ++ d.faults)
        d.rest
    else endNumber (.number form (Binary64.ofDecimal digits (-places))) faults cs
  | [] => endNumber (.number form (Binary64.ofDecimal digits (-places))) faults cs

/-- Reads what follows the point of a number that has digits before it. -/
def readFraction (whole : List Char) (faults : List String) (cs : List Char) : Piece :=
  match cs with
  | c :: _ =>
    if Text.isDigit c then
      let d := readDigits Text.isDigit cs
      readScale .float whole d.digits (faults ++ d.faults) d.rest
    else readScale .float whole [] faults cs
  | [] => readScale .float whole [] faults cs

/-- Reads a number with its first digit. -/
def readDecimal (cs : List Char) : Piece :=
  let d := readDigits Text.isDigit cs
  match d.rest with
  | '.' :: rest => readFraction d.digits d.faults rest
  | 'n' :: rest => endNumber (.bigint .decimal (digitsNumber 10 d.digits)) d.faults rest
  | _ => readScale .decimal d.digits [] d.faults d.rest

/-! ## Other bases -/

/-- Reads a number in another base behind the letter that names the base. -/
def readBased (form : NumberForm) (base : Nat) (cs : List Char) : Piece :=
  let isDigit (c : Char) : Bool := match Text.hexValue? c with
    | some d => d < base
    | none => false
  let d := readSomeDigits isDigit cs
  if d.faults.isEmpty then
    let n := digitsNumber base d.digits
    match d.rest with
    | 'n' :: rest => endNumber (.bigint form n) [] rest
    | rest => endNumber (.number form (Binary64.ofNat n)) [] rest
  else ⟨.invalid, d.faults, d.rest⟩

/-- Reads digits behind a leading zero: a number in base eight, unless an eight or nine is in it. -/
def readLegacy (cs : List Char) : Piece :=
  let digits := cs.takeWhile Text.isDigit
  let rest := cs.dropWhile Text.isDigit
  if digits.all fun c => c ≤ '7' then
    endNumber (.number .octal (Binary64.ofNat (digitsNumber 8 digits))) [] rest
  else
    match rest with
    | '.' :: rest => readFraction digits [] rest
    | 'e' :: _ => readScale .decimal digits [] [] rest
    | _ => endNumber (.number .decimal (Binary64.ofNat (digitsNumber 10 digits))) [] rest

/-- Reads a number; its first character is a digit, or a point before a digit. -/
def readNumber (cs : List Char) : Piece :=
  match cs with
  | '.' :: rest =>
    let d := readSomeDigits Text.isDigit rest
    readScale .float [] d.digits d.faults d.rest
  | '0' :: c :: rest =>
    if c == 'b' || c == 'B' then readBased .binary 2 rest
    else if c == 'o' || c == 'O' then readBased .octal 8 rest
    else if c == 'x' || c == 'X' then readBased .hex 16 rest
    else if c == '.' then readFraction ['0'] [] rest
    else if c == 'n' then endNumber (.bigint .decimal 0) [] rest
    else if Text.isDigit c then readLegacy (c :: rest)
    else readScale .decimal ['0'] [] [] (c :: rest)
  | _ => readDecimal cs

end ModuleLoader.Syntax.Lexer
