import ModuleLoader.Number.Binary64

/-! # The text of numbers

Two ways of writing the shortest decimal digits of a number: the one of error messages, and the
one of compiled code, which takes whatever form is shortest.

* **`Binary64.display`** writes a number as messages do.
* **`Binary64.script`** writes a number as JavaScript itself does.
* **`Binary64.compact`** writes a number in as few characters as compiled code can. -/

namespace ModuleLoader.Binary64

/-- Zeros. -/
def zeros (n : Nat) : String := "".pushn '0' n

/-- The digits without exponent when they start `point` places before the decimal point. -/
def positional (digits : String) (point : Int) : String :=
  let len : Int := digits.length
  if point ≤ 0 then "0." ++ zeros (-point).toNat ++ digits
  else if point ≥ len then digits ++ zeros (point - len).toNat
  else
    let ds := digits.toList
    String.ofList (ds.take point.toNat) ++ "." ++ String.ofList (ds.drop point.toNat)

/-- The digits with a point after the first. -/
def scientific (digits : String) : String :=
  match digits.toList with
  | [] => ""
  | [d] => String.ofList [d]
  | d :: rest => String.ofList (d :: '.' :: rest)

/-- A number as messages show it: with a fraction, and with a signed exponent of two digits from
`10 ^ 16` on and below `10 ^ -5`. -/
def display (negative : Bool) (x : Binary64) : String :=
  let sign := if negative then "-" else ""
  match x with
  | .infinite => sign ++ "inf"
  | .finite 0 _ => sign ++ "0.0"
  | .finite m e =>
    let (n, k) := shortest m e
    let digits := toString n
    let point : Int := digits.length + k
    if -5 < point && point ≤ 16 then
      let text := positional digits point
      sign ++ (if k ≥ 0 then text ++ ".0" else text)
    else
      let exponent := point - 1
      let size := toString exponent.natAbs
      let size := if size.length < 2 then "0" ++ size else size
      sign ++ scientific digits ++ "e" ++ (if exponent < 0 then "-" else "+") ++ size

/-- A number as JavaScript writes it: with exponent from `10 ^ 21` on and below `10 ^ -6`. -/
def script (x : Binary64) : String :=
  match x with
  | .infinite => "Infinity"
  | .finite 0 _ => "0"
  | .finite m e =>
    let (n, k) := shortest m e
    let digits := toString n
    let point : Int := digits.length + k
    if -6 < point && point ≤ 21 then positional digits point
    else
      let exponent := point - 1
      scientific digits ++ "e" ++ (if exponent < 0 then "-" else "+") ++ toString exponent.natAbs

/-! ## Compact text -/

/-- A number without exponent, and without a zero that stands before the point alone. -/
def plainText (digits : String) (point : Int) : String :=
  if point ≤ 0 then "." ++ zeros (-point).toNat ++ digits else positional digits point

/-- The digits as a whole number with an exponent. -/
def withExponent (digits : String) (exponent : Int) : String := digits ++ "e" ++ toString exponent

/-- The shorter of two texts, the first of two that are as long. -/
def shorter (a b : String) : String := if b.length < a.length then b else a

/-- A whole number in hexadecimal digits. -/
def hexText (m : Nat) (e : Int) : String :=
  let (num, den) := ratio m e
  "0x" ++ String.ofList (Nat.toDigits 16 (num / den))

/-- A number in the shortest form that compiled code can hold: no zero before the point, and
hexadecimal digits or an exponent where that is shorter. Small whole numbers stay as they are. -/
def compact (x : Binary64) : String :=
  match x with
  | .infinite => "Infinity"
  | .finite 0 _ => "0"
  | .finite m e =>
    let (n, k) := shortest m e
    let digits := toString n
    let point : Int := digits.length + k
    let isPositional := -6 < point && point ≤ 21
    let plain :=
      if isPositional then plainText digits point
      else withExponent (scientific digits) (point - 1)
    if k ≥ 0 then
      if point ≤ 3 then plain
      else if (hexText m e).length < plain.length then hexText m e
      else shorter plain (withExponent digits k)
    else if isPositional && point ≥ 0 then plain
    else shorter plain (withExponent digits k)

end ModuleLoader.Binary64
