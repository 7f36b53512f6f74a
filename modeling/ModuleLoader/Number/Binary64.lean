import ModuleLoader.Number.Power

/-! # Numbers of double precision

The non-negative numbers of the binary64 format as exact values `m · 2 ^ e`, with rounding of any
ratio to the nearest of them.

* **`Binary64`** is a finite number or infinity.
* **`Binary64.ofRatio`** rounds a ratio to nearest, ties to even.
* **`Binary64.ofDecimal`** rounds a decimal number.
* **`Binary64.shortest`** finds the fewest decimal digits that read back as the number. -/

namespace ModuleLoader

/-- A non-negative number of the binary64 format. -/
inductive Binary64
  /-- The number `m · 2 ^ e`. -/
  | finite (m : Nat) (e : Int)
  /-- A number too large for the format. -/
  | infinite
deriving DecidableEq, Repr, Inhabited

namespace Binary64

/-- The number zero. -/
def zero : Binary64 := .finite 0 (-1074)

/-! ## Rounding -/

/-- The quotient nearest to `num / den`, of two the even one. -/
def roundDiv (num den : Nat) : Nat :=
  let q := num / den
  let r := num % den
  if 2 * r < den then q
  else if 2 * r > den then q + 1
  else if q % 2 = 0 then q else q + 1

/-- Rounding stays within one of the quotient. -/
theorem roundDiv_le (num den : Nat) : roundDiv num den ≤ num / den + 1 := by
  unfold roundDiv
  dsimp only
  split
  · omega
  · split
    · omega
    · split <;> omega

/-- Rounding never goes below the quotient. -/
theorem le_roundDiv (num den : Nat) : num / den ≤ roundDiv num den := by
  unfold roundDiv
  dsimp only
  split
  · omega
  · split
    · omega
    · split <;> omega

/-- The number with mantissa `m`, which may have just grown past 53 bits, at exponent `e`. -/
def normalize (m : Nat) (e : Int) : Binary64 :=
  let (m, e) := if m = 9007199254740992 then (4503599627370496, e + 1) else (m, e)
  if e > 971 then .infinite else .finite m e

/-- The exponent at which `num / den` has a mantissa of 53 bits, or the least exponent. -/
def exponentOf (num den : Nat) : Int :=
  let guess : Int := (Nat.log2 num : Int) - (Nat.log2 den : Int) - 52
  let small : Bool :=
    if guess ≥ 0 then num < 4503599627370496 * (den * twoTo guess.toNat)
    else num * twoTo (-guess).toNat < 4503599627370496 * den
  max (-1074) (if small then guess - 1 else guess)

/-- The number nearest to `num / den`. -/
def ofRatio (num den : Nat) : Binary64 :=
  if num = 0 ∨ den = 0 then zero
  else
    let e := exponentOf num den
    let m := if e ≥ 0 then roundDiv num (den * twoTo e.toNat)
      else roundDiv (num * twoTo (-e).toNat) den
    normalize m e

/-- The number nearest to `digits · 10 ^ exponent`. Exponents far outside the format's range are
decided by their sign, so that no power is computed for them. -/
def ofDecimal (digits : Nat) (exponent : Int) : Binary64 :=
  if digits = 0 then zero
  else if exponent > 400 then .infinite
  else if exponent ≥ 0 then ofRatio (digits * tenTo exponent.toNat) 1
  else if (-exponent).toNat > 400 + Nat.log2 digits then zero
  else ofRatio digits (tenTo (-exponent).toNat)

/-- The number nearest to a natural number. -/
def ofNat (n : Nat) : Binary64 := ofRatio n 1

/-! ## Reading a number -/

/-- Numerator and denominator of a finite number. -/
def ratio (m : Nat) (e : Int) : Nat × Nat :=
  if e ≥ 0 then (m * twoTo e.toNat, 1) else (m, twoTo (-e).toNat)

/-- The natural number that the number is, if it is one. -/
def toNat? : Binary64 → Option Nat
  | .infinite => none
  | .finite m e =>
    let (num, den) := ratio m e
    if num % den = 0 then some (num / den) else none

/-- The number times another, rounded. -/
def mul : Binary64 → Binary64 → Binary64
  | .finite m e, .finite m' e' =>
    let (a, b) := ratio m e
    let (c, d) := ratio m' e'
    ofRatio (a * c) (b * d)
  | _, _ => .infinite

/-- The number over another, rounded. -/
def div : Binary64 → Binary64 → Binary64
  | .finite m e, .finite m' e' =>
    let (a, b) := ratio m e
    let (c, d) := ratio m' e'
    if c = 0 then .infinite else ofRatio (a * d) (b * c)
  | .finite _ _, .infinite => zero
  | .infinite, _ => .infinite

/-! ## Fewest digits -/

/-- A decimal grid point `n · 10 ^ k` reads back as `m · 2 ^ e` when it lies in the interval that
rounds to it; the ends belong to the interval when `m` is even. -/
def readsBack (m : Nat) (e : Int) (n : Nat) (k : Int) : Bool :=
  let below : Nat := if m = 4503599627370496 ∧ e > -1074 then 1 else 2
  -- all numbers in units of `2 ^ (e - 2)`
  let e4 := e - 2
  let scaleUp : Nat :=
    (if k ≥ 0 then tenTo k.toNat else 1) * (if e4 < 0 then twoTo (-e4).toNat else 1)
  let scaleDown : Nat :=
    (if k < 0 then tenTo (-k).toNat else 1) * (if e4 ≥ 0 then twoTo e4.toNat else 1)
  let x := n * scaleUp
  let low := (4 * m - below) * scaleDown
  let high := (4 * m + 2) * scaleDown
  if m % 2 = 0 then low ≤ x && x ≤ high else low < x && x < high

/-- The point of the grid of `10 ^ k` that reads back as the number, the nearer of two. -/
def gridPoint? (m : Nat) (e : Int) (k : Int) : Option Nat :=
  let (num, den) := ratio m e
  let (num, den) := if k ≥ 0 then (num, den * tenTo k.toNat) else (num * tenTo (-k).toNat, den)
  let q := num / den
  let r := num % den
  let down := readsBack m e q k && q > 0
  let up := readsBack m e (q + 1) k
  if down && up then some (if 2 * r > den then q + 1 else q)
  else if down then some q
  else if up then some (q + 1)
  else none

/-- The coarsest grid, from `10 ^ k` down, on which a point reads back as the number. -/
def searchGrid (m : Nat) (e : Int) : Nat → Int → Nat × Int
  | 0, k => (m, k)
  | fuel + 1, k =>
    match gridPoint? m e k with
    | some n => (n, k)
    | none => searchGrid m e fuel (k - 1)

/-- Takes trailing zeros off a digit string. -/
def dropZeros : Nat → Nat → Int → Nat × Int
  | 0, n, k => (n, k)
  | fuel + 1, n, k => if n > 0 ∧ n % 10 = 0 then dropZeros fuel (n / 10) (k + 1) else (n, k)

/-- The power of ten of the leading digit, or one more. -/
def decimalTop (m : Nat) (e : Int) : Int :=
  let (num, den) := ratio m e
  if num / den > 0 then ((toString (num / den)).length : Int)
  else -((toString (den / num)).length : Int) + 2

/-- The fewest decimal digits `n` and their exponent `k` such that `n · 10 ^ k` reads back as the
positive number `m · 2 ^ e`; of several the nearest. -/
def shortest (m : Nat) (e : Int) : Nat × Int :=
  let (n, k) := searchGrid m e 24 (decimalTop m e)
  dropZeros 24 n k

end Binary64

end ModuleLoader
