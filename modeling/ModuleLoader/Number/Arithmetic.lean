import ModuleLoader.Number.Text

/-! # Arithmetic

The numbers of JavaScript with a sign, and the operations on them whose results a compiler can
write down in place of the operation.

* **`Double`** is a number with a sign, or none at all.
* **`Double.add`**, **`mul`**, **`div`**, **`rem`**, **`pow?`** are the operations on numbers.
* **`Double.toInt32`** is the number that bits are taken of. -/

namespace ModuleLoader

/-- A number of JavaScript. -/
inductive Double
  /-- Not a number. -/
  | nan
  | signed (isNegative : Bool) (magnitude : Binary64)
deriving DecidableEq, Repr, Inhabited

namespace Double

/-! ## Ratios -/

/-- The number nearest to a ratio, with the given sign if it is zero. -/
def ofRatio (zeroIsNegative : Bool) (num : Int) (den : Nat) : Double :=
  if num = 0 then .signed zeroIsNegative .zero
  else .signed (num < 0) (Binary64.ofRatio num.natAbs den)

/-- The number of an integer. -/
def ofInt (n : Int) : Double := ofRatio false n 1

/-- Numerator and denominator of a finite number. -/
def ratio? : Double → Option (Int × Nat)
  | .signed isNegative (.finite m e) =>
    let (num, den) := Binary64.ratio m e
    some (if isNegative then -(num : Int) else (num : Int), den)
  | _ => none

/-- The sign of a number. -/
def isNegative : Double → Bool
  | .signed negative _ => negative
  | .nan => false

/-- The number is zero. -/
def isZero (x : Double) : Bool :=
  match x.ratio? with
  | some (num, _) => num == 0
  | none => false

/-! ## Operations -/

/-- The number with the other sign. -/
def neg : Double → Double
  | .nan => .nan
  | .signed isNegative x => .signed (!isNegative) x

/-- The sum. -/
def add (x y : Double) : Double :=
  match x, y with
  | .nan, _ | _, .nan => .nan
  | .signed s .infinite, .signed t .infinite => if s == t then x else .nan
  | .signed _ .infinite, _ => x
  | _, .signed _ .infinite => y
  | .signed s (.finite m e), .signed t (.finite m' e') =>
    match (Double.signed s (.finite m e)).ratio?, (Double.signed t (.finite m' e')).ratio? with
    | some (a, b), some (c, d) => ofRatio (s && t) (a * d + c * b) (b * d)
    | _, _ => .nan

/-- The difference. -/
def sub (x y : Double) : Double := x.add y.neg

/-- The product. -/
def mul (x y : Double) : Double :=
  match x, y with
  | .nan, _ | _, .nan => .nan
  | .signed s a, .signed t b =>
    if x.isZero && b == .infinite || y.isZero && a == .infinite then .nan
    else .signed (s != t) (a.mul b)

/-- The quotient. -/
def div (x y : Double) : Double :=
  match x, y with
  | .nan, _ | _, .nan => .nan
  | .signed s a, .signed t b =>
    if x.isZero && y.isZero || a == .infinite && b == .infinite then .nan
    else .signed (s != t) (a.div b)

/-- The remainder, which has the sign of the first number. -/
def rem (x y : Double) : Double :=
  match x, y with
  | .nan, _ | _, .nan => .nan
  | .signed _ .infinite, _ => .nan
  | _, .signed _ .infinite => x
  | .signed s (.finite _ _), .signed _ (.finite _ _) =>
    match x.ratio?, y.ratio? with
    | some (a, b), some (c, d) =>
      if c = 0 then .nan
      else
        let r : Int := ((a.natAbs * d % (c.natAbs * b) : Nat) : Int)
        ofRatio s (if s then -r else r) (b * d)
    | _, _ => .nan

/-- The integer that a number is, if it is one. -/
def toInt? (x : Double) : Option Int :=
  match x.ratio? with
  | some (num, den) => if num % (den : Int) = 0 then some (num / (den : Int)) else none
  | none => none

/-- The power with an exponent that is an integer of moderate size. -/
def pow? (x y : Double) : Option Double :=
  match x.ratio?, y.toInt? with
  | some (num, den), some n =>
    if n.natAbs > 1100 then none
    else if n ≥ 0 then some (ofRatio (x.isNegative && n % 2 = 1) (Int.pow num n.natAbs)
        (Nat.pow den n.natAbs))
    else if num = 0 then some (.signed (x.isNegative && n % 2 ≠ 0) .infinite)
    else
      let sign : Int := if num < 0 && n % 2 ≠ 0 then -1 else 1
      some (ofRatio false (sign * (Nat.pow den n.natAbs : Int)) (Nat.pow num.natAbs n.natAbs))
  | _, _ => none

/-! ## Bits -/

/-- The number modulo `2 ^ 32` without its fraction. -/
def toUint32 (x : Double) : Nat :=
  match x.ratio? with
  | some (num, den) => (Int.tdiv num (den : Int) % 4294967296).toNat
  | none => 0

/-- The number of 32 bits with a sign. -/
def signedBits (n : Nat) : Int :=
  let n : Nat := n % 4294967296
  if n ≥ 2147483648 then (n : Int) - 4294967296 else (n : Int)

/-- The number as 32 bits with a sign. -/
def toInt32 (x : Double) : Int := signedBits x.toUint32

/-- How far a number shifts. -/
def shiftCount (x : Double) : Nat := x.toUint32 % 32

/-- The bits of two numbers joined. -/
def bitwise (f : Nat → Nat → Nat) (x y : Double) : Double :=
  ofInt (signedBits (f x.toUint32 y.toUint32))

/-- The number with all its bits turned. -/
def complement (x : Double) : Double := ofInt (-x.toInt32 - 1)

/-- The bits shifted up. -/
def shiftLeft (x y : Double) : Double := ofInt (signedBits (x.toUint32 * twoTo y.shiftCount))

/-- The bits shifted down, with the sign kept. -/
def shiftRight (x y : Double) : Double :=
  ofInt (Int.fdiv x.toInt32 ((twoTo y.shiftCount : Nat) : Int))

/-- The bits shifted down. -/
def shiftRightZero (x y : Double) : Double := ofInt ((x.toUint32 / twoTo y.shiftCount : Nat) : Int)

/-! ## Text -/

/-- The number as JavaScript writes it. -/
def script : Double → String
  | .nan => "NaN"
  | .signed isNegative x =>
    let text := Binary64.script x
    if isNegative && text != "0" then "-" ++ text else text

end Double

end ModuleLoader
