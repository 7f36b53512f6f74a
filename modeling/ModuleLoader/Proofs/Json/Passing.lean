import ModuleLoader.Proofs.Json.Strings

/-! # Passing over values

A value that nobody asks for is passed over, in whichever way it is written.

* **`StopsNumber`** says that no number goes on in a text.
* **`passes_number`** says that a number is passed over.
* **`passes_value`** says that every value is. -/

namespace ModuleLoader.Json

open ModuleLoader.Text

variable {cs rest : List Char}

/-! ## Numbers -/

/-- A number does not go on in a text. -/
def StopsNumber (cs : List Char) : Prop :=
  ∀ c ∈ cs.head?, isDigit c = false ∧ c ≠ '.' ∧ c ≠ 'e' ∧ c ≠ 'E'

/-- All digits are taken. -/
theorem takeDigits_append {ds : List Char} (hds : ∀ d ∈ ds, isDigit d = true)
    (hcs : ∀ c ∈ cs.head?, isDigit c = false) (o : Nat) :
    takeDigits ⟨ds ++ cs, o⟩ = (ds, ⟨cs, o + ds.length⟩) := by
  obtain ⟨htake, hdrop⟩ := takeWhile_append_stop hds hcs
  rw [takeDigits, htake, hdrop]

/-- The exponent of a number is passed over. -/
theorem passes_exponent {exponent : List Char} (h : IsExponent exponent)
    (hrest : StopsNumber rest) : Passes skipExponent (exponent ++ rest) rest := by
  intro o
  rcases h with rfl | ⟨e, sign, ds, rfl, he, hsign, hne, hds⟩
  · refine ⟨o, ?_⟩
    cases rest with
    | nil => rfl
    | cons c rest =>
      obtain ⟨-, -, he, hE⟩ := hrest c rfl
      simp [skipExponent, he, hE]
  · obtain ⟨d, ds, rfl⟩ := List.exists_cons_of_ne_nil hne
    have hd : isDigit d = true := hds d List.mem_cons_self
    have hsigns : d ≠ '+' ∧ d ≠ '-' := by
      constructor <;> rintro rfl <;> cases hd
    have htake (o : Nat) : (takeDigits ⟨d :: (ds ++ rest), o⟩).2 = ⟨rest, o + (d :: ds).length⟩ :=
      congrArg Prod.snd (takeDigits_append hds (fun c hc => (hrest c hc).1) o)
    rcases he with rfl | rfl <;> rcases hsign with rfl | rfl | rfl <;>
      simp [skipExponent, Cursor.next, hd, hsigns, htake]

/-- Neither a digit nor a point stands at the exponent of a number, or behind it. -/
theorem head_exponent {exponent : List Char} (h : IsExponent exponent) (hrest : StopsNumber rest) :
    ∀ c ∈ (exponent ++ rest).head?, isDigit c = false ∧ c ≠ '.' := by
  rcases h with rfl | ⟨e, sign, ds, rfl, he, -, -⟩
  · exact fun c hc => ⟨(hrest c hc).1, (hrest c hc).2.1⟩
  · intro c hc
    obtain rfl : e = c := Option.some.inj hc
    rcases he with rfl | rfl <;> decide

/-- No digit stands at the point of a number, or behind it. -/
theorem head_fraction {fraction : List Char} (h : IsFraction fraction)
    (hcs : ∀ c ∈ cs.head?, isDigit c = false) :
    ∀ c ∈ (fraction ++ cs).head?, isDigit c = false := by
  rcases h with rfl | ⟨ds, rfl, -⟩
  · exact hcs
  · intro c hc
    obtain rfl : '.' = c := Option.some.inj hc
    decide

/-- A number with no sign has no zero before other digits. -/
theorem not_leadingZero {d : Char} {ds : List Char} (h : IsInteger (d :: ds))
    (hcs : ∀ c ∈ cs.head?, isDigit c = false) :
    (d == '0' && ((ds ++ cs).head?.map isDigit).getD false) = false := by
  by_cases hd : d = '0'
  · obtain rfl : ds = [] := (List.cons.inj (h.2 (congrArg some hd))).2
    cases cs with
    | nil => simp
    | cons c cs => simp [hcs c rfl]
  · simp [hd]

/-- A number is passed over from behind its sign. -/
theorem passes_unsigned {ds fraction exponent : List Char} (hds : IsInteger ds)
    (hfraction : IsFraction fraction) (hexponent : IsExponent exponent)
    (hrest : StopsNumber rest) :
    Passes skipUnsigned (ds ++ (fraction ++ (exponent ++ rest))) rest := by
  intro o
  have hhead := head_exponent hexponent hrest
  have hstop := head_fraction hfraction fun c hc => (hhead c hc).1
  obtain ⟨d, ds, rfl⟩ := List.exists_cons_of_ne_nil hds.1.1
  have hd : isDigit d = true := hds.1.2 d List.mem_cons_self
  have hzero := not_leadingZero hds hstop
  have htake := congrArg Prod.snd (takeDigits_append hds.1.2 hstop o)
  rw [List.cons_append] at htake ⊢
  rw [skipUnsigned]
  simp only [hd, hzero, htake, Bool.not_true, Bool.false_eq_true, if_false]
  rcases hfraction with rfl | ⟨fs, rfl, hne, hfs⟩
  · rw [List.nil_append]
    split
    · next heq => exact absurd rfl (hhead _ (heq ▸ rfl)).2
    · exact passes_exponent hexponent hrest _
  · have hfs' (o : Nat) := takeDigits_append hfs (fun c hc => (hhead c hc).1) o
    rw [List.cons_append]
    simp only [Cursor.next, hfs', List.isEmpty_iff, hne, if_false]
    exact passes_exponent hexponent hrest _

/-! ## What values start with and stop at -/

/-- A digit is no blank. -/
theorem isBlank_of_isDigit {d : Char} (h : isDigit d = true) : Cursor.isBlank d = false := by
  rw [Bool.eq_false_iff]
  intro hblank
  simp only [Cursor.isBlank, Bool.or_eq_true, beq_iff_eq] at hblank
  rcases hblank with ((rfl | rfl) | rfl) | rfl <;> cases h

/-- A value starts with a character that is neither a blank nor a closing bracket. -/
theorem Written.exists_head {v : Value} (h : Written (.value v) cs) :
    ∃ x tail, cs = x :: tail ∧ Cursor.isBlank x = false ∧ x ≠ ']' := by
  cases h with
  | null | yes | no => exact ⟨_, _, rfl, by decide, by decide⟩
  | string | noElements | array | noFields | object => exact ⟨_, _, rfl, by decide, by decide⟩
  | number h =>
    obtain ⟨sign, ds, fraction, exponent, hdigits, hsign, ⟨⟨hne, hds⟩, -⟩, -⟩ := h
    obtain ⟨d, ds, rfl⟩ := List.exists_cons_of_ne_nil hne
    have hd : isDigit d = true := hds d List.mem_cons_self
    rcases hsign with rfl | rfl
    · refine ⟨d, _, hdigits, ?_, ?_⟩
      · exact isBlank_of_isDigit hd
      · rintro rfl
        cases hd
    · exact ⟨'-', _, hdigits, by decide, by decide⟩

/-- A field starts with a quote. -/
theorem Written.exists_quote {key : String} {v : Value} (h : Written (.field key v) cs) :
    ∃ tail, cs = '"' :: tail := by
  cases h
  exact ⟨_, rfl⟩

/-- A number does not go on at a blank. -/
theorem stopsNumber_blank {w : Char} (hw : Cursor.isBlank w = true) : StopsNumber (w :: cs) := by
  intro c hc
  obtain rfl : w = c := Option.some.inj hc
  simp only [Cursor.isBlank, Bool.or_eq_true, beq_iff_eq] at hw
  rcases hw with ((rfl | rfl) | rfl) | rfl <;> decide

/-- A number does not go on at blanks with nothing behind them. -/
theorem stopsNumber_blanks {ws : List Char} (hws : Blanks ws) : StopsNumber ws := by
  cases ws with
  | nil => exact fun c hc => nomatch hc
  | cons w ws => exact stopsNumber_blank (hws w List.mem_cons_self)

/-- A number does not go on behind blanks and a character that it cannot hold. -/
theorem stopsNumber_append {ws : List Char} {x : Char} (hws : Blanks ws)
    (hx : isDigit x = false ∧ x ≠ '.' ∧ x ≠ 'e' ∧ x ≠ 'E') : StopsNumber (ws ++ x :: cs) := by
  cases ws with
  | nil =>
    intro c hc
    obtain rfl : x = c := Option.some.inj hc
    exact hx
  | cons w ws => exact stopsNumber_blank (hws w List.mem_cons_self)

/-- No number goes on at the elements behind one. -/
theorem stopsNumber_elements {vs : List Value} (h : Written (.elements vs) cs) (rest : List Char) :
    StopsNumber (cs ++ rest) := by
  cases h with
  | lastElement hws =>
    rw [List.append_assoc]
    exact stopsNumber_append hws (by decide)
  | element hws =>
    rw [List.append_assoc]
    exact stopsNumber_append hws (by decide)

/-- No number goes on at the fields behind one. -/
theorem stopsNumber_fields {fs : List (String × Value)} (h : Written (.fields fs) cs)
    (rest : List Char) : StopsNumber (cs ++ rest) := by
  cases h with
  | lastField hws =>
    rw [List.append_assoc]
    exact stopsNumber_append hws (by decide)
  | nextField hws =>
    rw [List.append_assoc]
    exact stopsNumber_append hws (by decide)

/-- A value does not start with a blank. -/
theorem Written.startsPlain {v : Value} (h : Written (.value v) cs) : StartsPlain (cs ++ rest) := by
  obtain ⟨x, tail, rfl, hx, -⟩ := h.exists_head
  exact startsPlain_cons hx

/-- A field does not start with a blank. -/
theorem Written.startsQuoted {key : String} {v : Value} (h : Written (.field key v) cs) :
    StartsPlain (cs ++ rest) := by
  obtain ⟨tail, rfl⟩ := h.exists_quote
  exact startsPlain_cons (by decide)

/-- A word is passed over. -/
theorem passes_word (word rest : List Char) : Passes (readWord · word) (word ++ rest) rest := by
  intro o
  induction word generalizing o with
  | nil => exact ⟨o, rfl⟩
  | cons x word ih =>
    obtain ⟨o', ho'⟩ := ih (o + x.utf8Size)
    exact ⟨o', by simpa [readWord, Cursor.next] using ho'⟩

/-- A number is passed over, also with its sign. -/
theorem passes_number {number : List Char} (h : IsNumber number) (hrest : StopsNumber rest)
    (fuel : Nat) : Passes (skipValueFrom (fuel + 1)) (number ++ rest) rest := by
  obtain ⟨sign, ds, fraction, exponent, rfl, hsign, hds, hfraction, hexponent⟩ := h
  have hunsigned := passes_unsigned hds hfraction hexponent hrest
  have hassoc : sign ++ (ds ++ (fraction ++ exponent)) ++ rest =
      sign ++ (ds ++ (fraction ++ (exponent ++ rest))) := by
    simp only [List.append_assoc]
  rw [hassoc]
  intro o
  rcases hsign with rfl | rfl
  · obtain ⟨o', ho'⟩ := hunsigned o
    refine ⟨o', ?_⟩
    obtain ⟨d, ds, rfl⟩ := List.exists_cons_of_ne_nil hds.1.1
    have hd : isDigit d = true := hds.1.2 d List.mem_cons_self
    rw [List.cons_append] at ho'
    rw [List.nil_append, List.cons_append, skipValueFrom,
      skipBlanks_eq_self (startsPlain_cons (isBlank_of_isDigit hd))]
    -- none of the other values starts with a digit
    split <;> rename_i heq <;> cases heq
    case h_9 => rw [if_pos hd, ho']
    all_goals cases hd
  · obtain ⟨o', ho'⟩ := hunsigned (o + 1)
    exact ⟨o', ho'⟩

/-! ## Any value -/

section Steps

variable {ws mid : List Char} {fuel : Nat}

/-- Blanks before a value do not keep it from being passed over. -/
theorem passes_blanks (hws : Blanks ws) (hcs : StartsPlain cs)
    (h : Passes (skipValueFrom fuel) cs rest) : Passes (skipValueFrom fuel) (ws ++ cs) rest := by
  intro o
  cases fuel with
  | zero =>
    obtain ⟨o', ho'⟩ := h o
    cases ho'
  | succ fuel =>
    obtain ⟨o', ho'⟩ := h (o + ws.length)
    refine ⟨o', ?_⟩
    rw [skipValueFrom, skipBlanks_eq_self hcs] at ho'
    rw [skipValueFrom, skipBlanks_append hws hcs, ho']

/-- Blanks before a field do not keep it from being passed over. -/
theorem passes_blanksField (hws : Blanks ws) (hcs : StartsPlain cs)
    (h : Passes (skipField fuel) cs rest) : Passes (skipField fuel) (ws ++ cs) rest := by
  intro o
  cases fuel with
  | zero =>
    obtain ⟨o', ho'⟩ := h o
    cases ho'
  | succ fuel =>
    obtain ⟨o', ho'⟩ := h (o + ws.length)
    refine ⟨o', ?_⟩
    rw [skipField, skipBlanks_eq_self hcs] at ho'
    rw [skipField, skipBlanks_append hws hcs, ho']

/-- An array with no elements is passed over. -/
theorem passes_noElements (hws : Blanks ws) :
    Passes (skipValueFrom (fuel + 1)) ('[' :: (ws ++ ']' :: rest)) rest := by
  intro o
  rw [skipValueFrom, skipBlanks_eq_self (startsPlain_cons (by decide))]
  simp only [Cursor.next]
  rw [skipBlanks_append hws (startsPlain_cons (by decide))]
  exact ⟨_, rfl⟩

/-- An array is passed over by its first element and those behind it. -/
theorem passes_array {x : Char} (hws : Blanks ws) (hx : Cursor.isBlank x = false) (hx' : x ≠ ']')
    (hv : Passes (skipValueFrom fuel) (x :: cs) mid) (hvs : Passes (skipElements fuel) mid rest) :
    Passes (skipValueFrom (fuel + 1)) ('[' :: (ws ++ x :: cs)) rest := by
  intro o
  rw [skipValueFrom, skipBlanks_eq_self (startsPlain_cons (by decide))]
  simp only [Cursor.next]
  rw [skipBlanks_append hws (startsPlain_cons hx)]
  split
  · next heq => cases heq
  · next heq => exact absurd (List.cons.inj heq).1 hx'
  · exact hv.trans hvs _

/-- The end of an array is passed. -/
theorem passes_lastElement (hws : Blanks ws) :
    Passes (skipElements (fuel + 1)) (ws ++ ']' :: rest) rest := by
  intro o
  rw [skipElements, skipBlanks_append hws (startsPlain_cons (by decide))]
  exact ⟨_, rfl⟩

/-- An element behind a comma is passed over, then those behind it. -/
theorem passes_element (hws : Blanks ws) (hv : Passes (skipValueFrom fuel) cs mid)
    (hvs : Passes (skipElements fuel) mid rest) :
    Passes (skipElements (fuel + 1)) (ws ++ ',' :: cs) rest := by
  intro o
  rw [skipElements, skipBlanks_append hws (startsPlain_cons (by decide))]
  exact hv.trans hvs _

/-- An object with no fields is passed over. -/
theorem passes_noFields (hws : Blanks ws) :
    Passes (skipValueFrom (fuel + 1)) ('\x7b' :: (ws ++ '\x7d' :: rest)) rest := by
  intro o
  rw [skipValueFrom, skipBlanks_eq_self (startsPlain_cons (by decide))]
  simp only [Cursor.next]
  rw [skipBlanks_append hws (startsPlain_cons (by decide))]
  exact ⟨_, rfl⟩

/-- An object is passed over by its first field and those behind it. -/
theorem passes_object (hws : Blanks ws) (hfield : Passes (skipField fuel) ('"' :: cs) mid)
    (hfs : Passes (skipFields fuel) mid rest) :
    Passes (skipValueFrom (fuel + 1)) ('\x7b' :: (ws ++ '"' :: cs)) rest := by
  intro o
  rw [skipValueFrom, skipBlanks_eq_self (startsPlain_cons (by decide))]
  simp only [Cursor.next]
  rw [skipBlanks_append hws (startsPlain_cons (by decide))]
  exact hfield.trans hfs _

/-- The end of an object is passed. -/
theorem passes_lastField (hws : Blanks ws) :
    Passes (skipFields (fuel + 1)) (ws ++ '\x7d' :: rest) rest := by
  intro o
  rw [skipFields, skipBlanks_append hws (startsPlain_cons (by decide))]
  exact ⟨_, rfl⟩

/-- A field behind a comma is passed over, then those behind it. -/
theorem passes_nextField (hws : Blanks ws) (hfield : Passes (skipField fuel) cs mid)
    (hfs : Passes (skipFields fuel) mid rest) :
    Passes (skipFields (fuel + 1)) (ws ++ ',' :: cs) rest := by
  intro o
  rw [skipFields, skipBlanks_append hws (startsPlain_cons (by decide))]
  exact hfield.trans hfs _

/-- Blanks and a colon are passed before a value. -/
theorem passes_behindColon (hws : Blanks ws) (hv : Passes (skipValueFrom fuel) cs rest) :
    Passes (fun c =>
      let c := c.skipBlanks
      match c.rest with
      | [] => c.here .endInObject
      | ':' :: _ => skipValueFrom fuel c.next
      | _ => c.ahead .noColon) (ws ++ ':' :: cs) rest := by
  intro o
  dsimp only
  rw [skipBlanks_append hws (startsPlain_cons (by decide))]
  exact hv _

/-- A field is passed over: its key, the colon and its value. -/
theorem passes_field {key : String} {name : List Char} (hname : WritesText key.toList name)
    (hws : Blanks ws) (hv : Passes (skipValueFrom fuel) cs rest) :
    Passes (skipField (fuel + 1)) ('"' :: (name ++ '"' :: (ws ++ ':' :: cs))) rest := by
  intro o
  rw [skipField, skipBlanks_eq_self (startsPlain_cons (by decide))]
  exact (passes_string hname).trans (passes_behindColon hws hv) _

end Steps

/-- How a part of a value is passed over. -/
def Part.skip : Part → Nat → Cursor → Except Failure Cursor
  | .value _ => skipValueFrom
  | .elements _ => skipElements
  | .field _ _ => skipField
  | .fields _ => skipFields

/-- A part of a value ends before a text. Only a number may go on. -/
def Part.EndsAt : Part → List Char → Prop
  | .value _, rest | .field _ _, rest => StopsNumber rest
  | .elements _, _ | .fields _, _ => True

/-- Where a text starts there is a step for its first character. -/
theorem exists_fuel {c : Char} {fuel : Nat} (h : (c :: cs).length ≤ fuel) :
    ∃ fuel', fuel = fuel' + 1 ∧ cs.length ≤ fuel' := by
  rw [List.length_cons] at h
  exact ⟨fuel - 1, by omega, by omega⟩

/-- A part of a value is passed over if there are as many steps as its text is long. -/
theorem passes_part {part : Part} (h : Written part cs) (fuel : Nat) (hfuel : cs.length ≤ fuel)
    (hrest : part.EndsAt rest) : Passes (part.skip fuel) (cs ++ rest) rest := by
  induction h generalizing fuel rest with
  | null | yes | no =>
    obtain ⟨fuel, rfl, -⟩ := exists_fuel hfuel
    intro o
    obtain ⟨o', ho'⟩ := passes_word _ rest (o + 1)
    exact ⟨o', ho'⟩
  | number h =>
    obtain ⟨x, tail, heq, -⟩ := (Written.number h).exists_head
    rw [heq] at hfuel
    obtain ⟨fuel, rfl, -⟩ := exists_fuel hfuel
    exact passes_number h hrest fuel
  | string h =>
    obtain ⟨fuel, rfl, -⟩ := exists_fuel hfuel
    rw [List.cons_append, List.append_assoc]
    intro o
    exact passes_string h (o + 1)
  | noElements hws =>
    obtain ⟨fuel, rfl, -⟩ := exists_fuel hfuel
    rw [List.cons_append, List.append_assoc]
    exact passes_noElements hws
  | array hws hv hvs ihv ihvs =>
    obtain ⟨fuel, rfl, hle⟩ := exists_fuel hfuel
    obtain ⟨x, tail, rfl, hx, hx'⟩ := hv.exists_head
    simp only [List.length_append] at hle
    simp only [List.cons_append, List.append_assoc]
    exact passes_array hws hx hx' (ihv fuel (by omega) (stopsNumber_elements hvs _))
      (ihvs fuel (by omega) trivial)
  | lastElement hws =>
    rw [List.length_append] at hfuel
    obtain ⟨fuel, rfl, -⟩ := exists_fuel (Nat.le_of_add_left_le hfuel)
    rw [List.append_assoc]
    exact passes_lastElement hws
  | element hws hws' hv hvs ihv ihvs =>
    rw [List.length_append] at hfuel
    obtain ⟨fuel, rfl, hle⟩ := exists_fuel (Nat.le_of_add_left_le hfuel)
    simp only [List.length_append] at hle
    simp only [List.cons_append, List.append_assoc]
    exact passes_element hws
      (passes_blanks hws' hv.startsPlain (ihv fuel (by omega) (stopsNumber_elements hvs _)))
      (ihvs fuel (by omega) trivial)
  | noFields hws =>
    obtain ⟨fuel, rfl, -⟩ := exists_fuel hfuel
    rw [List.cons_append, List.append_assoc]
    exact passes_noFields hws
  | object hws hfield hfs ihfield ihfs =>
    obtain ⟨fuel, rfl, hle⟩ := exists_fuel hfuel
    obtain ⟨tail, rfl⟩ := hfield.exists_quote
    simp only [List.length_append] at hle
    simp only [List.cons_append, List.append_assoc]
    exact passes_object hws (ihfield fuel (by omega) (stopsNumber_fields hfs _))
      (ihfs fuel (by omega) trivial)
  | field hname hws hws' hv ih =>
    obtain ⟨fuel, rfl, hle⟩ := exists_fuel hfuel
    simp only [List.length_append, List.length_cons] at hle
    simp only [List.cons_append, List.append_assoc]
    exact passes_field hname hws (passes_blanks hws' hv.startsPlain (ih fuel (by omega) hrest))
  | lastField hws =>
    rw [List.length_append] at hfuel
    obtain ⟨fuel, rfl, -⟩ := exists_fuel (Nat.le_of_add_left_le hfuel)
    rw [List.append_assoc]
    exact passes_lastField hws
  | nextField hws hws' hfield hfs ihfield ihfs =>
    rw [List.length_append] at hfuel
    obtain ⟨fuel, rfl, hle⟩ := exists_fuel (Nat.le_of_add_left_le hfuel)
    simp only [List.length_append] at hle
    simp only [List.cons_append, List.append_assoc]
    exact passes_nextField hws
      (passes_blanksField hws' hfield.startsQuoted
        (ihfield fuel (by omega) (stopsNumber_fields hfs _)))
      (ihfs fuel (by omega) trivial)

/-- A value is passed over in whichever way it is written. -/
theorem passes_value {v : Value} {ws : List Char} (h : Written (.value v) cs) (hws : Blanks ws)
    (hrest : StopsNumber rest) : Passes skipValue (ws ++ (cs ++ rest)) rest := by
  intro o
  rw [skipValue]
  refine passes_blanks hws h.startsPlain (passes_part h _ ?_ hrest) o
  simp only [List.length_append]
  omega

end ModuleLoader.Json
