import ModuleLoader.Url.Basic

/-! # Hosts

How the host of a URL is read and normalised: domains are percent-decoded, made small and, outside
ASCII, written in Punycode; a domain that ends in a number must be an IPv4 address; a bracketed
host must be an IPv6 address; the host of a scheme that is not special is kept as it is.

* **`hostOf`** reads a host for a scheme.
* **`ipv4?`**, **`ipv6?`** read the two kinds of address.
* **`punycode`** writes a label of any characters in ASCII. -/

namespace ModuleLoader.Url

open ModuleLoader.Text

/-! ## Numbers in hosts -/

/-- The value of a digit text in a base of at most sixteen, if all are digits of that base. -/
def digitsValue? (base : Nat) (cs : List Char) : Option Nat :=
  cs.foldl (fun acc c => do
    let n ← acc
    let d ← hexValue? c
    if d < base then some (n * base + d) else none) (some 0)

/-- One part of an IPv4 address: hexadecimal behind `0x`, octal behind `0`, else decimal. -/
def ipv4Part? (cs : List Char) : Option Nat :=
  match cs with
  | [] => none
  | '0' :: 'x' :: rest | '0' :: 'X' :: rest => digitsValue? 16 rest
  | '0' :: rest => digitsValue? 8 rest
  | _ => digitsValue? 10 cs

/-- The parts of a list between separators. -/
def splitAtChar (sep : Char) (cs : List Char) : List (List Char) :=
  cs.foldr (fun c parts =>
    if c == sep then [] :: parts
    else match parts with
      | [] => [[c]]
      | p :: ps => (c :: p) :: ps) [[]]

/-- A domain whose last label, a final dot aside, is a number. -/
def endsInNumber (cs : List Char) : Bool :=
  let parts := (splitAtChar '.' cs).reverse
  let last := match parts with
    | [] :: p :: _ => p
    | p :: _ => p
    | [] => []
  (!last.isEmpty && last.all isDigit) ||
    (match last with
     | '0' :: 'x' :: _ | '0' :: 'X' :: _ => (ipv4Part? last).isSome
     | _ => false)

/-- How many numbers have so many bytes. -/
def byteRange : Nat → Nat
  | 0 => 1
  | n + 1 => 256 * byteRange n

/-- The last part of an IPv4 address fills the bytes that the earlier parts leave. -/
def ipv4Number? (parts : List Nat) : Option Nat :=
  match parts.reverse with
  | [] => none
  | last :: front =>
    if front.length > 3 then none
    else if front.any (· > 255) then none
    else if last ≥ byteRange (4 - front.length) then none
    else some (front.reverse.foldl (fun n p => 256 * n + p) 0 * byteRange (4 - front.length) + last)

/-- Four bytes between dots. -/
def ipv4Text (n : Nat) : String :=
  String.intercalate "."
    ([n / 16777216 % 256, n / 65536 % 256, n / 256 % 256, n % 256].map toString)

/-- The IPv4 address that a domain ending in a number has to be. -/
def ipv4? (cs : List Char) : Option String := do
  let parts := splitAtChar '.' cs
  let parts := if parts.length > 1 && parts.getLast? == some [] then parts.dropLast else parts
  if parts.length > 4 then none
  else
    let numbers ← parts.mapM ipv4Part?
    let n ← ipv4Number? numbers
    some (ipv4Text n)

/-- The groups of one half of an IPv6 address. -/
def ipv6Groups? (cs : List Char) : Option (List Nat) :=
  if cs.isEmpty then some []
  else (splitAtChar ':' cs).foldr (fun part acc => do
    let groups ← acc
    if part.contains '.' then
      if !groups.isEmpty then none
      else
        let bytes ← (splitAtChar '.' part).mapM fun b =>
          if b.isEmpty || (b.length > 1 && b.head? == some '0') then none
          else (digitsValue? 10 b).bind fun n => if n < 256 then some n else none
        match bytes with
        | [a, b, c, d] => some [a * 256 + b, c * 256 + d]
        | _ => none
    else if part.isEmpty || part.length > 4 then none
    else
      let g ← digitsValue? 16 part
      some (g :: groups)) (some [])

/-- The two halves of a text around its first `::`. -/
def splitDoubleColon : List Char → Option (List Char × List Char)
  | [] => none
  | ':' :: ':' :: rest => some ([], rest)
  | c :: rest => (splitDoubleColon rest).map fun (a, b) => (c :: a, b)

/-- Start and length of the first longest run of zero groups of two or more. -/
def longestZeros (groups : List Nat) : Option (Nat × Nat) :=
  let runs := (List.range groups.length).map fun i =>
    (i, ((groups.drop i).takeWhile (· == 0)).length)
  runs.foldl (fun best run =>
    if run.2 < 2 then best
    else match best with
      | none => some run
      | some b => if run.2 > b.2 then some run else best) none

/-- Eight groups with the longest run of zeros written `::`. -/
def ipv6Text (groups : List Nat) : String :=
  let text (gs : List Nat) :=
    String.intercalate ":" (gs.map fun g => String.ofList (hexAtLeast g 1))
  match longestZeros groups with
  | none => text groups
  | some (i, n) => text (groups.take i) ++ "::" ++ text (groups.drop (i + n))

/-- The IPv6 address that a bracketed host has to be. -/
def ipv6? (cs : List Char) : Option String :=
  match splitDoubleColon cs with
  | none => do
    let groups ← ipv6Groups? cs
    if groups.length == 8 then some (ipv6Text groups) else none
  | some (front, back) => do
    let a ← ipv6Groups? front
    let b ← ipv6Groups? back
    let n := a.length + b.length
    if n > 7 then none else some (ipv6Text (a ++ List.replicate (8 - n) 0 ++ b))

/-! ## Punycode -/

/-- The digit of Punycode for a value below thirty-six. -/
def punycodeDigit (n : Nat) : Char :=
  if n < 26 then Char.ofNat ('a'.toNat + n) else Char.ofNat ('0'.toNat + (n - 26))

/-- The bias that follows a coded delta, by the rule of the format. -/
def punycodeAdapt (delta count : Nat) (first : Bool) : Nat :=
  let start := if first then delta / 700 else delta / 2
  let start := start + start / count
  let rec reduce : Nat → Nat → Nat → Nat
    | 0, d, k => k + 36 * d / (d + 38)
    | fuel + 1, d, k => if d > 455 then reduce fuel (d / 35) (k + 36) else k + 36 * d / (d + 38)
  reduce start start 0

/-- A delta as digits of mixed base. -/
def punycodeDelta (bias : Nat) : Nat → Nat → Nat → List Char
  | 0, _, _ => []
  | fuel + 1, q, k =>
    let t := if k ≤ bias then 1 else if k ≥ bias + 26 then 26 else k - bias
    if q < t then [punycodeDigit q]
    else punycodeDigit (t + (q - t) % (36 - t)) ::
      punycodeDelta bias fuel ((q - t) / (36 - t)) (k + 36)

/-- One character of a label while code points from `n` on are inserted. -/
def punycodeStep (n : Nat) (state : List Char × Nat × Nat × Nat × Bool) (c : Char) :
    List Char × Nat × Nat × Nat × Bool :=
  let (out, delta, bias, handled, first) := state
  if c.toNat < n then (out, delta + 1, bias, handled, first)
  else if c.toNat == n then
    (out ++ punycodeDelta bias (delta + 2) delta 36, 0,
      punycodeAdapt delta (handled + 1) first, handled + 1, false)
  else state

/-- The label in ASCII: its ASCII characters, then the coded insertions of the others. -/
def punycode (label : List Char) : List Char :=
  let basic := label.filter (·.toNat < 128)
  let start := if basic.isEmpty then [] else basic ++ ['-']
  let points := ((label.filter (·.toNat ≥ 128)).map Char.toNat).mergeSort.eraseDups
  let (out, _) := points.foldl (fun (acc : List Char × Nat × Nat × Nat × Nat × Bool) m =>
    let (out, delta, bias, handled, n, first) := acc
    let delta := delta + (m - n) * (handled + 1)
    let (out, delta, bias, handled, first) :=
      label.foldl (punycodeStep m) (out, delta, bias, handled, first)
    (out, delta + 1, bias, handled, m + 1, first)) (start, 0, 72, basic.length, 128, true)
  out

/-! ## Domains -/

/-- The small form of a character in a domain, for the alphabets with regular cases and for the
full-width forms. -/
def domainChar (c : Char) : Char :=
  let n := c.toNat
  if n < 128 then toAsciiLower c
  else if 0xFF01 ≤ n ∧ n ≤ 0xFF5E then toAsciiLower (Char.ofNat (n - 0xFEE0))
  else if (0xC0 ≤ n ∧ n ≤ 0xDE ∧ n ≠ 0xD7) ∨ (0x391 ≤ n ∧ n ≤ 0x3A9) ∨ (0x410 ≤ n ∧ n ≤ 0x42F) then
    Char.ofNat (n + 32)
  else if 0x400 ≤ n ∧ n ≤ 0x40F then Char.ofNat (n + 80)
  else if 0x100 ≤ n ∧ n ≤ 0x17F ∧ n % 2 = 0 ∧ n ≠ 0x130 ∧ n ≠ 0x138 then Char.ofNat (n + 1)
  else if n = 0x3002 then '.'
  else c

/-- The characters that no domain has. -/
def isForbiddenInDomain (c : Char) : Bool :=
  c.toNat ≤ 0x20 || c.toNat == 0x7F || "#/:<>?@[\\]^|%".toList.contains c

/-- The characters that no host has. -/
def isForbiddenInHost (c : Char) : Bool :=
  "\x00\t\n\r #/:<>?@[\\]^|".toList.contains c

/-- A domain in ASCII small letters. -/
def domain (bytes : List UInt8) : Except Failure String :=
  match decodeUtf8 bytes with
  | none => .error .badDomain
  | some s =>
    let cs := s.toList.map domainChar
    if cs.any isForbiddenInDomain then .error .badDomain
    else
      let labels := (splitAtChar '.' cs).map fun label =>
        if label.all (·.toNat < 128) then label else "xn--".toList ++ punycode label
      .ok (String.ofList (List.intercalate ['.'] labels))

/-- The control characters of ASCII. -/
def isControl (c : Char) : Bool :=
  c.toNat < 0x20 || c.toNat == 0x7F

/-- The host of a URL whose scheme is special or not. -/
def hostOf (special : Bool) (cs : List Char) : Except Failure String :=
  match cs with
  | '[' :: rest =>
    if rest.getLast? == some ']' then
      match ipv6? rest.dropLast with
      | some text => .ok ("[" ++ text ++ "]")
      | none => .error .badIpv6
    else .error .badIpv6
  | _ =>
    if special then do
      let name ← domain (percentDecode cs)
      if name.isEmpty then .error .emptyHost
      else if endsInNumber name.toList then
        match ipv4? name.toList with
        | some text => .ok text
        | none => .error .badIpv4
      else .ok name
    else if cs.any isForbiddenInHost then .error .badDomainCharacter
    else .ok (String.ofList (percentEncode isControl cs))

end ModuleLoader.Url
