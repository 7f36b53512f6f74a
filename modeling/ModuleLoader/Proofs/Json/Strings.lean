import ModuleLoader.Proofs.Json.Written

/-! # Reading strings that are written

* **`Reads`** says that a reader reads something from the front of a text, **`Passes`** that it goes
  over the front of one.
* **`reads_string`** says that a string is read from any text that it is written as,
  **`passes_string`** that such a text is passed over. -/

namespace ModuleLoader.Json

open ModuleLoader.Text

/-! ## Steps -/

/-- Wherever a reader is, it reads something from a text and leaves the rest. -/
def Reads {α : Type} (p : Cursor → Except Failure (α × Cursor)) (cs rest : List Char) (a : α) :
    Prop :=
  ∀ o, ∃ o', p ⟨cs, o⟩ = .ok (a, ⟨rest, o'⟩)

/-- Wherever a reader is, it passes over a text and leaves the rest. -/
def Passes (p : Cursor → Except Failure Cursor) (cs rest : List Char) : Prop :=
  ∀ o, ∃ o', p ⟨cs, o⟩ = .ok ⟨rest, o'⟩

variable {α β : Type} {p : Cursor → Except Failure (α × Cursor)} {a : α} {b : β}
variable {cs mid rest : List Char}

/-- What follows a step that succeeds goes on with what it gives. -/
theorem ok_bind {ε α β : Type} {x : Except ε α} {a : α} (h : x = .ok a) (f : α → Except ε β) :
    (x >>= f) = f a := by
  rw [h]
  rfl

/-- One thing is read behind the other. -/
theorem Reads.bind {q : α × Cursor → Except Failure (β × Cursor)} (h : Reads p cs mid a)
    (hq : Reads (fun c => q (a, c)) mid rest b) : Reads (fun c => p c >>= q) cs rest b := by
  intro o
  obtain ⟨o', ho'⟩ := h o
  obtain ⟨o'', ho''⟩ := hq o'
  exact ⟨o'', (ok_bind ho' _).trans ho''⟩

/-- Something is read behind a text that is passed over. -/
theorem Passes.bind {p : Cursor → Except Failure Cursor}
    {q : Cursor → Except Failure (β × Cursor)} (h : Passes p cs mid) (hq : Reads q mid rest b) :
    Reads (fun c => p c >>= q) cs rest b := by
  intro o
  obtain ⟨o', ho'⟩ := h o
  obtain ⟨o'', ho''⟩ := hq o'
  exact ⟨o'', (ok_bind ho' _).trans ho''⟩

/-- A text is passed over in two steps. -/
theorem Passes.trans {p q : Cursor → Except Failure Cursor} (h : Passes p cs mid)
    (hq : Passes q mid rest) : Passes (fun c => p c >>= q) cs rest := by
  intro o
  obtain ⟨o', ho'⟩ := h o
  obtain ⟨o'', ho''⟩ := hq o'
  exact ⟨o'', (ok_bind ho' _).trans ho''⟩

/-! ## Blanks -/

/-- A text does not start with a blank. -/
def StartsPlain (cs : List Char) : Prop := ∀ c ∈ cs.head?, Cursor.isBlank c = false

/-- The end of a text is no blank. -/
theorem startsPlain_nil : StartsPlain [] := by
  intro c hc
  cases hc

/-- A character that is no blank starts a text plainly. -/
theorem startsPlain_cons {c : Char} (hc : Cursor.isBlank c = false) : StartsPlain (c :: cs) := by
  intro d hd
  obtain rfl : c = d := Option.some.inj hd
  exact hc

/-- A text is split where its characters stop to have a property. -/
theorem takeWhile_append_stop {q : Char → Bool} {xs ys : List Char} (hxs : ∀ x ∈ xs, q x = true)
    (hys : ∀ y ∈ ys.head?, q y = false) :
    (xs ++ ys).takeWhile q = xs ∧ (xs ++ ys).dropWhile q = ys := by
  have hstop : ys.takeWhile q = [] ∧ ys.dropWhile q = ys := by
    cases ys with
    | nil => exact ⟨rfl, rfl⟩
    | cons y ys =>
      have hy : q y = false := hys y rfl
      simp [hy]
  rw [List.takeWhile_append_of_pos hxs, List.dropWhile_append_of_pos hxs, hstop.1, hstop.2,
    List.append_nil]
  exact ⟨rfl, rfl⟩

/-- Blanks before a text that does not start with one are passed. -/
theorem skipBlanks_append {ws : List Char} (hws : Blanks ws) (hcs : StartsPlain cs) (o : Nat) :
    Cursor.skipBlanks ⟨ws ++ cs, o⟩ = ⟨cs, o + ws.length⟩ := by
  obtain ⟨htake, hdrop⟩ := takeWhile_append_stop hws hcs
  rw [Cursor.skipBlanks, htake, hdrop]

/-- There may be no blanks at all. -/
theorem blanks_nil : Blanks [] := fun _ h => nomatch h

/-- Before a text that does not start with a blank nothing is passed. -/
theorem skipBlanks_eq_self (hcs : StartsPlain cs) (o : Nat) :
    Cursor.skipBlanks ⟨cs, o⟩ = ⟨cs, o⟩ :=
  skipBlanks_append blanks_nil hcs o

/-! ## Characters -/

/-- Four hexadecimal digits are read. -/
theorem reads_hex4 (rest : List Char) {n : Nat} {digits : List Char} (h : Hex4 n digits) :
    Reads readHex4 (digits ++ rest) rest n := by
  intro o
  cases h with
  | digits hw hx hy hz => exact ⟨o + 4, by simp [readHex4, hw, hx, hy, hz]⟩

/-- A character is read from its number. -/
theorem reads_unicode (rest : List Char) {c : Char} {digits : List Char} (h : Hex4 c.toNat digits) :
    Reads readUnicode (digits ++ rest) rest c := by
  intro o
  obtain ⟨o', hdigits⟩ := reads_hex4 rest h o
  -- no character is a surrogate
  have hvalid : c.toNat < 0xD800 ∨ (0xDFFF < c.toNat ∧ c.toNat < 0x110000) := c.valid
  have hlow : ¬ (0xDC00 ≤ c.toNat ∧ c.toNat ≤ 0xDFFF) := by omega
  have hhigh : c.toNat < 0xD800 ∨ c.toNat > 0xDBFF := by omega
  refine ⟨o', ?_⟩
  rw [readUnicode, hdigits]
  simp only [bind, Except.bind, if_neg hlow, if_pos hhigh]
  rw [Char.ofNat_toNat]
  rfl

/-- A character is read from the numbers of its surrogates. -/
theorem reads_unicodePair (rest : List Char) {c : Char} {n m : Nat} {high low : List Char}
    (hhigh : Hex4 n high) (hlow : Hex4 m low) (hn : 0xD800 ≤ n ∧ n ≤ 0xDBFF)
    (hm : 0xDC00 ≤ m ∧ m ≤ 0xDFFF)
    (hc : c.toNat = (n - 0xD800) * 0x400 + (m - 0xDC00) + 0x10000) :
    Reads readUnicode (high ++ '\\' :: 'u' :: (low ++ rest)) rest c := by
  intro o
  obtain ⟨o', hfirst⟩ := reads_hex4 ('\\' :: 'u' :: (low ++ rest)) hhigh o
  obtain ⟨o'', hsecond⟩ := reads_hex4 rest hlow (o' + 1 + 1)
  have hn' : ¬ (0xDC00 ≤ n ∧ n ≤ 0xDFFF) := by omega
  have hn'' : ¬ (n < 0xD800 ∨ n > 0xDBFF) := by omega
  have hm' : ¬ (m < 0xDC00 ∨ m > 0xDFFF) := by omega
  refine ⟨o'', ?_⟩
  rw [readUnicode, hfirst]
  simp only [bind, Except.bind, if_neg hn', if_neg hn'']
  change (readHex4 ⟨low ++ rest, o' + 1 + 1⟩ >>= _) = _
  rw [hsecond]
  simp only [bind, Except.bind, if_neg hm', ← hc]
  rw [Char.ofNat_toNat]
  rfl

/-- A character is read from what it is written as. -/
theorem readStringFrom_char (cs : List Char) {c : Char} {written : List Char}
    (h : WritesChar c written) (fuel o : Nat) (acc : List Char) :
    ∃ o', readStringFrom (fuel + 1) ⟨written ++ cs, o⟩ acc =
      readStringFrom fuel ⟨cs, o'⟩ (c :: acc) := by
  cases h with
  | plain hquote hbackslash hcontrol =>
    refine ⟨o + c.utf8Size, ?_⟩
    simp [readStringFrom, hcontrol, Cursor.next]
  | letter h =>
    -- an escape by number does not start with such a letter
    rename_i x
    have hx : x ≠ 'u' := by
      rintro rfl
      cases h
    exact ⟨o + '\\'.utf8Size + x.utf8Size, by simp [readStringFrom, Cursor.next, h]⟩
  | hex h =>
    obtain ⟨o', ho'⟩ := reads_unicode cs h (o + 1 + 1)
    exact ⟨o', ok_bind ho' _⟩
  | pair hhigh hlow hn hm hc =>
    obtain ⟨o', ho'⟩ := reads_unicodePair cs hhigh hlow hn hm hc (o + 1 + 1)
    refine ⟨o', ?_⟩
    rw [List.cons_append, List.cons_append, List.append_assoc, List.cons_append, List.cons_append]
    exact ok_bind ho' _

/-- A character is written as something. -/
theorem WritesChar.length_pos {c : Char} {written : List Char} (h : WritesChar c written) :
    0 < written.length := by
  cases h <;> exact Nat.zero_lt_succ _

/-- The characters up to the closing quote are read. -/
theorem readStringFrom_written (rest : List Char) {xs written : List Char}
    (h : WritesText xs written) (fuel o : Nat) (acc : List Char) (hfuel : written.length < fuel) :
    ∃ o', readStringFrom fuel ⟨written ++ '"' :: rest, o⟩ acc =
      .ok (String.ofList (acc.reverse ++ xs), ⟨rest, o'⟩) := by
  induction h generalizing fuel o acc with
  | nil =>
    obtain ⟨fuel, rfl⟩ := Nat.exists_eq_add_one_of_ne_zero (Nat.ne_zero_of_lt hfuel)
    exact ⟨o + '"'.utf8Size, by simp [readStringFrom, Cursor.next]⟩
  | @cons c cs written more hchar hmore ih =>
    obtain ⟨fuel, rfl⟩ := Nat.exists_eq_add_one_of_ne_zero (Nat.ne_zero_of_lt hfuel)
    have hpos := hchar.length_pos
    rw [List.length_append] at hfuel
    obtain ⟨o', ho'⟩ := readStringFrom_char (more ++ '"' :: rest) hchar fuel o acc
    obtain ⟨o'', ho''⟩ := ih fuel o' (c :: acc) (by omega)
    refine ⟨o'', ?_⟩
    rw [List.append_assoc, ho', ho'', List.reverse_cons, List.append_assoc]
    rfl

/-- A string is read from any text that it is written as. -/
theorem reads_string {s : String} {written : List Char} (h : WritesText s.toList written) :
    Reads readString (written ++ '"' :: rest) rest s := by
  intro o
  obtain ⟨o', ho'⟩ := readStringFrom_written rest h ((written ++ '"' :: rest).length + 1) o []
    (by simp only [List.length_append]; omega)
  exact ⟨o', by rw [readString, ho', List.reverse_nil, List.nil_append, String.ofList_toList]⟩

/-! ## Passing over strings -/

/-- The digits of an escape are passed over. -/
theorem skipStringFrom_hex (cs : List Char) {n : Nat} {digits : List Char} (h : Hex4 n digits)
    (fuel o : Nat) :
    ∃ o', skipStringFrom (fuel + 1) ⟨'\\' :: 'u' :: (digits ++ cs), o⟩ =
      skipStringFrom fuel ⟨cs, o'⟩ := by
  obtain ⟨o', ho'⟩ := reads_hex4 cs h (o + 1 + 1)
  exact ⟨o', ok_bind ho' _⟩

/-- A character is passed over; the numbers of two surrogates take two steps. -/
theorem skipStringFrom_char (cs : List Char) {c : Char} {written : List Char}
    (h : WritesChar c written) (fuel o : Nat) (hfuel : written.length ≤ fuel) :
    ∃ fuel' o', fuel ≤ fuel' + written.length ∧
      skipStringFrom fuel ⟨written ++ cs, o⟩ = skipStringFrom fuel' ⟨cs, o'⟩ := by
  obtain ⟨fuel, rfl⟩ := Nat.exists_eq_add_one_of_ne_zero
    (Nat.ne_zero_of_lt (Nat.lt_of_lt_of_le h.length_pos hfuel))
  cases h with
  | plain hquote hbackslash hcontrol =>
    exact ⟨fuel, o + c.utf8Size, Nat.le_refl _, by simp [skipStringFrom, hcontrol, Cursor.next]⟩
  | letter h =>
    rename_i x
    have hx : x ≠ 'u' := by
      rintro rfl
      cases h
    exact ⟨fuel, o + '\\'.utf8Size + x.utf8Size, by simp,
      by simp [skipStringFrom, Cursor.next, h]⟩
  | hex h =>
    obtain ⟨o', ho'⟩ := skipStringFrom_hex cs h fuel o
    exact ⟨fuel, o', by simp, ho'⟩
  | @pair n m high low hhigh hlow hn hm hc =>
    simp only [List.length_cons, List.length_append] at hfuel ⊢
    obtain ⟨fuel, rfl⟩ := Nat.exists_eq_add_one_of_ne_zero (n := fuel) (by omega)
    obtain ⟨o', ho'⟩ := skipStringFrom_hex ('\\' :: 'u' :: (low ++ cs)) hhigh (fuel + 1) o
    obtain ⟨o'', ho''⟩ := skipStringFrom_hex cs hlow fuel o'
    refine ⟨fuel, o'', by omega, ?_⟩
    rw [List.cons_append, List.cons_append, List.append_assoc, List.cons_append, List.cons_append,
      ho', ho'']

/-- The characters up to the closing quote are passed over. -/
theorem skipStringFrom_written {xs written : List Char} (h : WritesText xs written) (fuel o : Nat)
    (hfuel : written.length < fuel) :
    ∃ o', skipStringFrom fuel ⟨written ++ '"' :: rest, o⟩ = .ok ⟨rest, o'⟩ := by
  induction h generalizing fuel o with
  | nil =>
    obtain ⟨fuel, rfl⟩ := Nat.exists_eq_add_one_of_ne_zero (Nat.ne_zero_of_lt hfuel)
    exact ⟨o + '"'.utf8Size, by simp [skipStringFrom, Cursor.next]⟩
  | @cons c cs written more hchar hmore ih =>
    rw [List.length_append] at hfuel
    obtain ⟨fuel', o', hle, ho'⟩ := skipStringFrom_char (more ++ '"' :: rest) hchar fuel o
      (by omega)
    obtain ⟨o'', ho''⟩ := ih fuel' o' (by omega)
    exact ⟨o'', by rw [List.append_assoc, ho', ho'']⟩

/-- A string is passed over in any text that it is written as. -/
theorem passes_string {s : String} {written : List Char} (h : WritesText s.toList written) :
    Passes skipString (written ++ '"' :: rest) rest := fun o =>
  skipStringFrom_written h _ o (by simp only [List.length_append]; omega)

end ModuleLoader.Json
