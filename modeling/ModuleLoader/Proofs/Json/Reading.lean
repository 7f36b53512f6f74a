import ModuleLoader.Proofs.Json.Passing

/-! # Reading values of one type

* **`Gets`** says that a reader gets something from a value, in whichever way it is written.
* **`gets_text`**, **`gets_bool`**, **`gets_word64`** and **`gets_texts`** say so for strings, truth
  values, numbers of 64 bits and arrays of strings. -/

namespace ModuleLoader.Json

open ModuleLoader.Text

variable {α : Type} {ws ws' cs rest : List Char}

/-- A reader gets something from a value, in whichever way it is written and with blanks before. -/
def Gets (read : Cursor → Except Failure (α × Cursor)) (v : Value) (a : α) : Prop :=
  ∀ ⦃ws cs rest⦄, Blanks ws → Written (.value v) cs → StopsNumber rest →
    Reads read (ws ++ (cs ++ rest)) rest a

/-! ## Strings and truth values -/

/-- A string is got. -/
theorem gets_text (s : String) : Gets readText (.string s) s := by
  rintro ws cs rest hws hcs - o
  rw [readText, skipBlanks_append hws hcs.startsPlain]
  cases hcs with
  | string h =>
    rw [List.cons_append, List.append_assoc]
    exact reads_string h _

/-- A truth value is got. -/
theorem gets_bool (b : Bool) : Gets readBool (.bool b) b := by
  rintro ws cs rest hws hcs - o
  rw [readBool, skipBlanks_append hws hcs.startsPlain]
  cases hcs with
  | yes =>
    obtain ⟨o', ho'⟩ := passes_word "rue".toList rest (o + ws.length + 1)
    exact ⟨o', congrArg (Except.map (true, ·)) ho'⟩
  | no =>
    obtain ⟨o', ho'⟩ := passes_word "alse".toList rest (o + ws.length + 1)
    exact ⟨o', congrArg (Except.map (false, ·)) ho'⟩

/-! ## Numbers -/

/-- The digits of a number. -/
theorem isDigits_toDigits (n : Nat) : IsDigits (Nat.toDigits 10 n) := by
  refine ⟨Nat.toDigits_ne_nil, fun d hd => ?_⟩
  have h : d.isDigit = true := Nat.isDigit_of_mem_toDigits (by decide) (by decide) hd
  simp only [Char.isDigit, isDigit, Bool.and_eq_true, decide_eq_true_eq] at h ⊢
  exact h

/-- The digit zero is that of no other number. -/
theorem digitChar_zero : ∀ n < 10, n.digitChar = '0' → n = 0 := by decide

/-- The digits of a number start with a zero only if it is zero. -/
theorem head?_toDigits (n : Nat) (h : (Nat.toDigits 10 n).head? = some '0') : n = 0 := by
  induction n using Nat.strongRecOn with
  | _ n ih =>
    rw [Nat.toDigits_eq_if (by decide)] at h
    split at h
    · next hlt => exact digitChar_zero n hlt (Option.some.inj h)
    · next hle =>
      -- the first digit is that of a smaller number
      obtain ⟨d, ds, hd⟩ := List.exists_cons_of_ne_nil (Nat.toDigits_ne_nil (n := n / 10) (b := 10))
      rw [hd] at h
      have hzero : n / 10 = 0 := ih (n / 10) (by omega) (by rw [hd]; exact h)
      omega

/-- The digits of a number are a number. -/
theorem isInteger_toDigits (n : Nat) : IsInteger (Nat.toDigits 10 n) := by
  refine ⟨isDigits_toDigits n, fun h => ?_⟩
  obtain rfl := head?_toDigits n h
  rfl

/-- More digits do not make a number smaller. -/
theorem le_ofDigitChars (ds : List Char) (n : Nat) : n ≤ Nat.ofDigitChars 10 ds n := by
  induction ds generalizing n with
  | nil => exact Nat.le_refl n
  | cons d ds ih =>
    have hstep := ih (10 * n + (d.toNat - '0'.toNat))
    rw [Nat.ofDigitChars_cons]
    omega

/-- Digits whose number fits 64 bits are all kept. -/
theorem clampDigits_eq {ds : List Char} {n : Nat} (h : Nat.ofDigitChars 10 ds n < UInt64.size) :
    clampDigits ds n = (Nat.ofDigitChars 10 ds n, 0) := by
  induction ds generalizing n with
  | nil => rfl
  | cons d ds ih =>
    rw [Nat.ofDigitChars_cons] at h ⊢
    have hfits : 10 * n + (d.toNat - '0'.toNat) < 18446744073709551616 :=
      Nat.lt_of_le_of_lt (le_ofDigitChars ds _) h
    have hcomm : n * 10 + (d.toNat - '0'.toNat) = 10 * n + (d.toNat - '0'.toNat) := by omega
    simp only [clampDigits, hcomm]
    rw [if_pos hfits, ih h]

/-- A number that fits 64 bits is read from its digits. -/
theorem reads_unsigned {n : Nat} (h : n < UInt64.size) (hrest : StopsNumber rest) :
    Reads (readUnsigned false) (Nat.toDigits 10 n ++ rest) rest (.natural n) := by
  intro o
  have hds := isInteger_toDigits n
  have hstop : ∀ c ∈ rest.head?, isDigit c = false := fun c hc => (hrest c hc).1
  have hvalue : Nat.ofDigitChars 10 (Nat.toDigits 10 n) 0 = n := Nat.ofDigitChars_ten_toDigits
  have hclamp : clampDigits (Nat.toDigits 10 n) 0 = (n, 0) := by
    rw [clampDigits_eq (by rw [hvalue]; exact h), hvalue]
  generalize Nat.toDigits 10 n = digits at hds hclamp
  have htake := takeDigits_append hds.1.2 hstop o
  obtain ⟨d, ds, rfl⟩ := List.exists_cons_of_ne_nil hds.1.1
  have hd : isDigit d = true := hds.1.2 d List.mem_cons_self
  have hzero := not_leadingZero hds hstop
  refine ⟨o + (d :: ds).length, ?_⟩
  rw [List.cons_append] at htake ⊢
  rw [readUnsigned]
  simp only [hd, hzero, htake, hclamp, Bool.not_true, Bool.false_eq_true, if_false]
  -- neither a point nor an exponent follows
  split
  · exact absurd rfl (hrest '.' rfl).2.1
  · exact absurd rfl (hrest 'e' rfl).2.2.1
  · exact absurd rfl (hrest 'E' rfl).2.2.2
  · rfl

/-- A number of 64 bits is got from its digits. -/
theorem gets_word64 (n : UInt64) : Gets readWord64 (.number (toString n.toNat)) n := by
  intro ws cs rest hws hcs hrest o
  rw [readWord64, skipBlanks_append hws hcs.startsPlain]
  cases hcs with
  | number h =>
    have hdigits : (toString n.toNat).toList = Nat.toDigits 10 n.toNat := Nat.toList_repr
    rw [hdigits]
    obtain ⟨o', ho'⟩ := reads_unsigned n.toNat_lt hrest (o + ws.length)
    refine ⟨o', ?_⟩
    have hds := (isDigits_toDigits n.toNat)
    generalize Nat.toDigits 10 n.toNat = digits at hds ho'
    obtain ⟨d, ds, rfl⟩ := List.exists_cons_of_ne_nil hds.1
    have hd : isDigit d = true := hds.2 d List.mem_cons_self
    have hnumber : readNumber ⟨d :: ds ++ rest, o + ws.length⟩ =
        .ok (.natural n.toNat, ⟨rest, o'⟩) := by
      rw [readNumber]
      split
      · next heq =>
        obtain rfl : d = '-' := (List.cons.inj heq).1
        cases hd
      · exact ho'
    rw [List.cons_append] at hnumber ⊢
    simp only [hd, Bool.true_or, if_true]
    rw [ok_bind hnumber]
    simp only [UInt64.ofNat_toNat]
    rfl

/-! ## Arrays of strings -/

section Elements

variable {x : Char} {first : Bool}

/-- No element is left before the closing bracket. -/
theorem reads_noElement (hws : Blanks ws) :
    Reads (nextElement? first) (ws ++ ']' :: rest) (']' :: rest) false := by
  intro o
  rw [nextElement?, skipBlanks_append hws (startsPlain_cons (by decide))]
  exact ⟨_, rfl⟩

/-- The first element stands behind the bracket. -/
theorem reads_firstElement (hws : Blanks ws) (hx : Cursor.isBlank x = false) (hx' : x ≠ ']') :
    Reads (nextElement? true) (ws ++ x :: cs) (x :: cs) true := by
  intro o
  rw [nextElement?, skipBlanks_append hws (startsPlain_cons hx)]
  refine ⟨o + ws.length, ?_⟩
  split
  · next heq => cases heq
  · next heq => exact absurd (List.cons.inj heq).1 hx'
  · rfl

/-- Any other element stands behind a comma. -/
theorem reads_nextElement (hws : Blanks ws) (hws' : Blanks ws') (hx : Cursor.isBlank x = false)
    (hx' : x ≠ ']') :
    Reads (nextElement? false) (ws ++ ',' :: (ws' ++ x :: cs)) (x :: cs) true := by
  intro o
  rw [nextElement?, skipBlanks_append hws (startsPlain_cons (by decide))]
  simp only [Cursor.next]
  rw [skipBlanks_append hws' (startsPlain_cons hx)]
  refine ⟨o + ws.length + ','.utf8Size + ws'.length, ?_⟩
  simp [hx']

end Elements

/-- How many elements or fields a part of a value lists. -/
def Part.count : Part → Nat
  | .value _ | .field _ _ => 0
  | .elements vs => vs.length
  | .fields fs => fs.length

/-- A text has a character for each element or field that it lists. -/
theorem Written.count_le {part : Part} (h : Written part cs) : part.count ≤ cs.length := by
  induction h with
  | element _ _ _ _ _ ih | nextField _ _ _ _ _ ih =>
    simp only [Part.count, List.length_append, List.length_cons] at ih ⊢
    omega
  | _ => exact Nat.zero_le _

/-- The strings behind one are read, up to the closing bracket. -/
theorem reads_texts {xs : List String} (h : Written (.elements (xs.map .string)) cs)
    (fuel : Nat) (hfuel : xs.length < fuel) (acc : List String) :
    Reads (readTextsFrom fuel false · acc) (cs ++ rest) rest (acc.reverse ++ xs) := by
  induction xs generalizing cs fuel acc with
  | nil =>
    obtain ⟨fuel, rfl⟩ := Nat.exists_eq_add_one_of_ne_zero (Nat.ne_zero_of_lt hfuel)
    cases h with
    | lastElement hws =>
      rw [List.append_assoc, List.append_nil]
      exact (reads_noElement hws).bind fun o => ⟨_, rfl⟩
  | cons x xs ih =>
    obtain ⟨fuel, rfl⟩ := Nat.exists_eq_add_one_of_ne_zero (Nat.ne_zero_of_lt hfuel)
    cases h with
    | element hws hws' hv hvs =>
      obtain ⟨y, tail, rfl, hy, hy'⟩ := hv.exists_head
      have htext := gets_text x blanks_nil hv (stopsNumber_elements hvs rest)
      have hmore := ih hvs fuel (Nat.lt_of_succ_lt_succ hfuel) (x :: acc)
      rw [List.reverse_cons, List.append_assoc] at hmore
      simp only [List.cons_append, List.append_assoc]
      exact (reads_nextElement hws hws' hy hy').bind (htext.bind hmore)

/-- An array of strings is got. -/
theorem gets_texts (xs : List String) : Gets readTexts (.array (xs.map .string)) xs := by
  rintro ws cs rest hws hcs - o
  rw [readTexts, skipBlanks_append hws hcs.startsPlain]
  cases xs with
  | nil =>
    cases hcs with
    | noElements hws' =>
      rw [List.cons_append, List.append_assoc]
      refine (reads_noElement hws').bind ?_ _
      exact fun o => ⟨_, rfl⟩
  | cons x xs =>
    cases hcs with
    | array hws' hv hvs =>
      obtain ⟨y, tail, rfl, hy, hy'⟩ := hv.exists_head
      have htext := gets_text x blanks_nil hv (stopsNumber_elements hvs rest)
      simp only [List.cons_append, List.append_assoc]
      refine (reads_firstElement hws' hy hy').bind (htext.bind (reads_texts hvs _ ?_ [x])) _
      have hcount := hvs.count_le
      simp only [Part.count, List.length_map] at hcount
      simp only [List.length_cons, List.length_append]
      omega

/-! ## Keys -/

section Keys

variable {key : String} {name : List Char} {first : Bool}

/-- No key is left before the closing brace. -/
theorem reads_noKey (hws : Blanks ws) :
    Reads (nextKey? first) (ws ++ '\x7d' :: rest) ('\x7d' :: rest) none := by
  intro o
  rw [nextKey?, skipBlanks_append hws (startsPlain_cons (by decide))]
  exact ⟨_, rfl⟩

/-- The first key stands behind the brace. -/
theorem reads_firstKey (hws : Blanks ws) (hname : WritesText key.toList name) :
    Reads (nextKey? true) (ws ++ '"' :: (name ++ '"' :: rest)) rest (some key) := by
  intro o
  rw [nextKey?, skipBlanks_append hws (startsPlain_cons (by decide))]
  refine (reads_string hname).bind ?_ _
  exact fun o => ⟨_, rfl⟩

/-- Any other key stands behind a comma. -/
theorem reads_nextKey (hws : Blanks ws) (hws' : Blanks ws') (hname : WritesText key.toList name) :
    Reads (nextKey? false) (ws ++ ',' :: (ws' ++ '"' :: (name ++ '"' :: rest))) rest
      (some key) := by
  intro o
  rw [nextKey?, skipBlanks_append hws (startsPlain_cons (by decide))]
  simp only [Cursor.next]
  rw [skipBlanks_append hws' (startsPlain_cons (by decide))]
  refine (reads_string hname).bind ?_ _
  exact fun o => ⟨_, rfl⟩

/-- The colon behind a key is passed. -/
theorem passes_colon (cs : List Char) (hws : Blanks ws) : Passes colon (ws ++ ':' :: cs) cs := by
  intro o
  rw [colon, skipBlanks_append hws (startsPlain_cons (by decide))]
  exact ⟨_, rfl⟩

end Keys

end ModuleLoader.Json
