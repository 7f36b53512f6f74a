import ModuleLoader.Syntax.Lexer.Scan
import ModuleLoader.Syntax.Printer.Literal

/-! # Strings in print are read back

A string between double quotes is written with escapes, so that no quote, no backslash and no line
break in it ends the string, and nothing in it ends a script. Whatever characters it has, reading
what is written gives them back.

* **`Printer.quotedChars_cons`** writes a string character by character.
* **`Lexer.Spells`** says that a character is written as it is, or as an escape that stands for it.
* **`Lexer.readStringFrom_quotedChars`** reads a string back character by character.
* **`Lexer.readForm_quoted`** says that a string in print is read back as a token. -/

namespace ModuleLoader.Syntax

open Lexer Printer

/-! ## Writing character by character -/

namespace Printer

variable {c : Char} {behind : List Char}

/-- A string without halves of surrogate pairs is written character by character. -/
theorem quotedChars_cons (c : Char) (behind : List Char) :
    quotedChars false (c :: behind) = quotedChar c behind ++ quotedChars false behind := by
  match behind with
  | [] | [_] | [_, _] | [_, _, _] => rfl
  | _ :: _ :: _ :: _ :: _ => rfl

/-- Capitals become letters, so what becomes another character than a letter is that character. -/
theorem eq_of_toAsciiLower {x y : Char} (h : Text.toAsciiLower x = y) (hy : y.toNat < 97) :
    x = y := by
  unfold Text.toAsciiLower at h
  split at h
  · next hcapital =>
    -- a capital would have become a letter, which `y` is not
    have hletter : ∀ n < 91, 65 ≤ n → 97 ≤ (Char.ofNat (n + 32)).toNat := by decide
    have hcode : 65 ≤ x.toNat ∧ x.toNat ≤ 90 := hcapital
    have hsmall := hletter x.toNat (by omega) hcode.1
    rw [h] at hsmall
    omega
  · exact h

/-- The closing tag of a script starts with an angle bracket and a slash. -/
theorem exists_slash_of_startsScriptEnd (h : startsScriptEnd (c :: behind) = true) :
    c = '<' ∧ ∃ rest, behind = '/' :: rest := by
  have hlower : ((c :: behind).take 8).map Text.toAsciiLower = "</script".toList :=
    eq_of_beq h
  cases behind with
  | nil => cases (List.cons.inj hlower).2
  | cons d rest =>
    obtain ⟨hc, hrest⟩ := List.cons.inj hlower
    obtain ⟨hd, -⟩ := List.cons.inj hrest
    exact ⟨eq_of_toAsciiLower hc (by decide),
      rest, congrArg (· :: rest) (eq_of_toAsciiLower hd (by decide))⟩

end Printer

/-! ## Characters and escapes -/

namespace Lexer

variable {quote c x : Char} {fuel : Nat} {s : StringState} {e w w' tail behind : List Char}

/-- A character is written as it is, or as an escape sequence that stands for it before some
characters. -/
def Spells (c : Char) (w tail : List Char) : Prop :=
  (w = [c] ∧ c ≠ '"' ∧ c ≠ '\\' ∧ c ≠ '\n' ∧ c ≠ '\r') ∨
    ∃ e, w = '\\' :: e ∧ readEscape false (e ++ tail) = ⟨[.char c], true, tail⟩

/-- A character that has an escape sequence of its own, or is another one. -/
theorem Spells.ite (hx : Spells x w tail) (hother : c ≠ x → Spells c w' tail) :
    Spells c (if c == x then w else w') tail := by
  by_cases h : c = x
  · subst h
    rwa [if_pos (beq_self_eq_true c)]
  · rw [if_neg (by simpa using h)]
    exact hother h

/-- The escape sequence stands for the character. -/
theorem Spells.escape (h : readEscape false (e ++ tail) = ⟨[.char c], true, tail⟩) :
    Spells c ('\\' :: e) tail :=
  .inr ⟨e, rfl, h⟩

/-- Zero is written so that no digit behind it goes on with it. -/
theorem spells_zero (hdigit : (∀ d ∈ behind.head?, Text.isDigit d = false) →
    ∀ d ∈ tail.head?, Text.isDigit d = false) : Spells '\x00' (quotedChar '\x00' behind) tail := by
  have hshort : (∀ d ∈ behind.head?, Text.isDigit d = false) →
      Spells '\x00' "\\0".toList tail := by
    intro hbehind
    refine .escape ?_
    cases tail with
    | nil => rfl
    | cons d more =>
      have hd := hdigit hbehind d rfl
      change readEscape false ('0' :: d :: more) = _
      simp [readEscape, hd]
      decide
  cases behind with
  | nil => exact hshort (by simp)
  | cons d more =>
    change Spells '\x00' (if Text.isDigit d = true then "\\x00".toList else "\\0".toList) tail
    split
    · exact .escape rfl
    · next h => exact hshort (by simpa using h)

/-- Every character of a string is written as it is or as an escape sequence, but for one that
starts the closing tag of a script. -/
theorem spells_quotedChar (hend : startsScriptEnd (c :: behind) = false) (hzero : c ≠ '\x00') :
    Spells c (quotedChar c behind) tail := by
  unfold quotedChar
  rw [if_neg (by simpa using hzero), hend]
  -- one escape after the other, and what has none is written as it is
  refine .ite (.escape rfl) fun _ => .ite (.escape rfl) fun _ => .ite (.escape rfl) fun _ =>
    .ite (.escape rfl) fun _ => .ite (.escape rfl) fun hfeed => .ite (.escape rfl) fun hreturn =>
    .ite (.escape rfl) fun _ => .ite (.escape rfl) fun hbackslash =>
    .ite (.escape rfl) fun hquote => .ite (.escape rfl) fun _ => .ite (.escape rfl) fun _ =>
    .ite (.escape rfl) fun _ => ?_
  exact .inl ⟨rfl, hquote, hbackslash, hfeed, hreturn⟩

/-! ## Reading character by character -/

/-- A string that is being read, with one more character that is written in some way. -/
def StringState.push (s : StringState) (c : Char) (written : List Char) : StringState :=
  { s with units := .char c :: s.units, written := written.reverse ++ s.written }

/-- What a character is written as is read as the character. -/
theorem readStringFrom_of_spells (h : Spells c w tail) :
    readStringFrom '"' (fuel + 1) s (w ++ tail) = readStringFrom '"' fuel (s.push c w) tail := by
  obtain ⟨rfl, hquote, hbackslash, hfeed, hreturn⟩ | ⟨e, rfl, he⟩ := h
  · rw [List.singleton_append, readStringFrom]
    · simp [hquote, hfeed, hreturn, StringState.push]
    · exact hbackslash
  · rw [List.cons_append, readStringFrom, he]
    simp [StringState.push]

/-- What is written for a character starts with the character or with a backslash. -/
theorem exists_quotedChar_eq (c : Char) (behind : List Char) :
    ∃ more, quotedChar c behind = c :: more ∨ quotedChar c behind = '\\' :: more := by
  by_cases hzero : c = '\x00'
  · subst hzero
    cases behind with
    | nil => exact ⟨_, .inr rfl⟩
    | cons d more =>
      change ∃ more, (if Text.isDigit d = true then "\\x00".toList else "\\0".toList) = _ ∨
        (if Text.isDigit d = true then "\\x00".toList else "\\0".toList) = _
      split
      · exact ⟨_, .inr rfl⟩
      · exact ⟨_, .inr rfl⟩
  cases hend : startsScriptEnd (c :: behind) with
  | false =>
    have hspells : Spells c (quotedChar c behind) [] := spells_quotedChar hend hzero
    obtain ⟨hw, -⟩ | ⟨e, hw, -⟩ := hspells
    · exact ⟨[], .inl hw⟩
    · exact ⟨e, .inr hw⟩
  | true =>
    obtain ⟨rfl, -⟩ := exists_slash_of_startsScriptEnd hend
    refine ⟨['\\'], .inl ?_⟩
    unfold quotedChar
    rw [hend]
    rfl

/-- What is written for a string that starts with no digit does not, either. -/
theorem isDigit_head_quotedChars {cs : List Char} (h : ∀ d ∈ cs.head?, Text.isDigit d = false)
    (rest : List Char) :
    ∀ d ∈ (quotedChars false cs ++ '"' :: rest).head?, Text.isDigit d = false := by
  cases cs with
  | nil =>
    rintro _ ⟨⟩
    rfl
  | cons c behind =>
    rw [quotedChars_cons]
    obtain ⟨more, hc | hbackslash⟩ := exists_quotedChar_eq c behind
    · rw [hc]
      rintro _ ⟨⟩
      exact h c rfl
    · rw [hbackslash]
      rintro _ ⟨⟩
      rfl

/-- A string is written with no fewer characters than it has. -/
theorem length_le_length_quotedChars (cs : List Char) :
    cs.length ≤ (quotedChars false cs).length := by
  induction cs with
  | nil => exact Nat.zero_le _
  | cons c behind ih =>
    rw [quotedChars_cons, List.length_append, List.length_cons]
    obtain ⟨more, hw | hw⟩ := exists_quotedChar_eq c behind
    all_goals
      rw [hw, List.length_cons]
      omega

/-- The characters of a string are read back one after the other. -/
theorem readStringFrom_quotedChars (cs : List Char) (fuel : Nat) (s : StringState)
    (rest : List Char) :
    readStringFrom '"' (fuel + cs.length) s (quotedChars false cs ++ '"' :: rest) =
      readStringFrom '"' fuel ⟨(cs.map Unit16.char).reverse ++ s.units,
        (quotedChars false cs).reverse ++ s.written, s.faults⟩ ('"' :: rest) := by
  match cs with
  | [] => rfl
  | c :: behind =>
    rw [quotedChars_cons, List.append_assoc, List.length_cons, ← Nat.add_assoc]
    cases hend : startsScriptEnd (c :: behind) with
    | false =>
      have hspells : Spells c (quotedChar c behind) (quotedChars false behind ++ '"' :: rest) := by
        by_cases hzero : c = '\x00'
        · subst hzero
          exact spells_zero fun h => isDigit_head_quotedChars h rest
        · exact spells_quotedChar hend hzero
      rw [readStringFrom_of_spells hspells, readStringFrom_quotedChars behind]
      simp [StringState.push]
    | true =>
      obtain ⟨rfl, behind, rfl⟩ := exists_slash_of_startsScriptEnd hend
      -- the backslash behind the angle bracket belongs to the slash
      have hangle : quotedChar '<' ('/' :: behind) = ['<', '\\'] := by
        unfold quotedChar
        rw [hend]
        rfl
      have hslash : quotedChar '/' behind = ['/'] := rfl
      have hreadsAngle : ∀ tail, Spells '<' ['<'] tail := fun _ => .inl (by decide)
      have hreadsSlash : ∀ tail, Spells '/' ['\\', '/'] tail := fun _ => .escape rfl
      rw [quotedChars_cons, hangle, hslash, List.length_cons, ← Nat.add_assoc]
      change readStringFrom '"' _ s
        (['<'] ++ (['\\', '/'] ++ (quotedChars false behind ++ '"' :: rest))) = _
      rw [readStringFrom_of_spells (hreadsAngle _), readStringFrom_of_spells (hreadsSlash _),
        readStringFrom_quotedChars behind]
      simp [StringState.push]
termination_by cs.length

/-! ## Strings as tokens -/

/-- A string without halves of surrogate pairs has the characters that its pieces are. -/
theorem stringValue_map_char (cs : List Char) :
    stringValue (cs.map Unit16.char) = String.ofList cs := by
  have hwhole : (cs.map Unit16.char).any Unit16.isLone = false := by
    rw [List.any_map, List.any_eq_false]
    exact fun _ _ => Bool.false_ne_true
  unfold stringValue
  rw [hwhole, List.flatMap_map]
  simp

/-- The literal that is read where a literal is written between double quotes. -/
def reread (l : StringLiteral) : StringLiteral :=
  ⟨l.value, false, some ('"', String.ofList (quotedChars false l.value.toList))⟩

/-- A string in print is read back as a token, whatever characters it has and whatever follows. -/
theorem readForm_quoted {l : StringLiteral} (h : l.hasHalves = false) (rest : List Char) :
    readForm ((quoted l).toList ++ rest) = .sound (.string (reread l)) rest := by
  have htext : (quoted l).toList ++ rest =
      '"' :: (quotedChars false l.value.toList ++ '"' :: rest) := by
    unfold quoted
    rw [h]
    simp
  obtain ⟨fuel, hfuel⟩ : ∃ fuel, (quotedChars false l.value.toList ++ '"' :: rest).length + 1 =
      fuel + 1 + l.value.toList.length := by
    have hlength := length_le_length_quotedChars l.value.toList
    refine ⟨(quotedChars false l.value.toList ++ '"' :: rest).length - l.value.toList.length, ?_⟩
    rw [List.length_append]
    omega
  rw [htext]
  change readStringFrom '"' _ ⟨[], [], []⟩ _ = _
  rw [hfuel, readStringFrom_quotedChars, readStringFrom]
  · have hwhole : (l.value.toList.map Unit16.char).any Unit16.isLone = false := by
      simp [Unit16.isLone]
    simp [stringValue_map_char, reread, Piece.sound, hwhole]
  · decide

end Lexer

end ModuleLoader.Syntax
