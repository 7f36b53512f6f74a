import Mathlib.Data.List.Forall2
import ModuleLoader.Proofs.Json.Reading

/-! # Texts without blanks

A value is written when its parts are put together with nothing between them.

* **`written_quote`** says so for strings, **`written_digits`** for numbers.
* **`written_array`** and **`written_object`** say so for arrays and objects, whose parts are
  separated by commas. -/

namespace ModuleLoader.Json

open ModuleLoader.Text

variable {cs : List Char}

/-! ## Strings -/

/-- A number of sixteen bits is written by four hexadecimal digits. -/
theorem hex4_hexFixed {n : Nat} (h : n < 0x10000) : Hex4 n (hexFixed n 4) := by
  have hdigit (k : Nat) : hexValue? (hexDigit (k % 16)) = some (k % 16) :=
    hexValue?_hexDigit ⟨k % 16, Nat.mod_lt k (by decide)⟩
  have hdigits := Hex4.digits (hdigit (n / 16 / 16 / 16)) (hdigit (n / 16 / 16)) (hdigit (n / 16))
    (hdigit n)
  have hvalue : ((n / 16 / 16 / 16 % 16 * 16 + n / 16 / 16 % 16) * 16 + n / 16 % 16) * 16 +
      n % 16 = n := by omega
  rw [hvalue] at hdigits
  exact hdigits

/-- A character is written as it is escaped. -/
theorem writesChar_escapeChar (c : Char) : WritesChar c (escapeChar c) := by
  have hletter {x y : Char} (h : (c == y) = true) (hx : simpleEscape? x = some y) :
      WritesChar c ['\\', x] := .letter (eq_of_beq h ▸ hx)
  unfold escapeChar
  split_ifs with hquote hbackslash hback hform hline hreturn htab hcontrol
  · exact hletter hquote rfl
  · exact hletter hbackslash rfl
  · exact hletter hback rfl
  · exact hletter hform rfl
  · exact hletter hline rfl
  · exact hletter hreturn rfl
  · exact hletter htab rfl
  · exact .hex (hex4_hexFixed (by omega))
  · exact .plain (mt beq_iff_eq.2 hquote) (mt beq_iff_eq.2 hbackslash) hcontrol

/-- Characters are written as they are escaped. -/
theorem writesText_escaped (cs : List Char) : WritesText cs (cs.flatMap escapeChar) := by
  induction cs with
  | nil => exact .nil
  | cons c cs ih => exact .cons (writesChar_escapeChar c) ih

/-- A string is written between quotes. -/
theorem written_quote (s : String) : Written (.value (.string s)) (quote s).toList := by
  rw [quote, String.toList_ofList]
  exact .string (writesText_escaped s.toList)

/-! ## Numbers -/

/-- A number is written by its digits. -/
theorem written_digits (n : Nat) :
    Written (.value (.number (toString n))) (toString n).toList := by
  have hdigits : (toString n).toList = Nat.toDigits 10 n := Nat.toList_repr
  refine .number ⟨[], Nat.toDigits 10 n, [], [], ?_, .inl rfl, isInteger_toDigits n, .inl rfl,
    .inl rfl⟩
  rw [hdigits, List.nil_append, List.nil_append, List.append_nil]

/-! ## Lists -/

/-- Texts that are separated by commas are the first one and each other one behind its comma. -/
theorem intercalate_comma (text : List Char) (texts : List (List Char)) :
    List.intercalate [','] (text :: texts) = text ++ texts.flatMap (',' :: ·) := by
  induction texts generalizing text with
  | nil => simp
  | cons text' texts ih =>
    rw [List.intercalate_cons_cons, ih, List.append_assoc]
    rfl

/-- The elements behind one are written with a comma before each. -/
theorem written_elements {vs : List Value} {texts : List (List Char)}
    (h : List.Forall₂ (fun v text => Written (.value v) text) vs texts) :
    Written (.elements vs) (texts.flatMap (',' :: ·) ++ [']']) := by
  induction h with
  | nil => exact .lastElement blanks_nil
  | cons hv _ ih =>
    rw [List.flatMap_cons, List.append_assoc]
    have hwritten := Written.element blanks_nil blanks_nil hv ih
    exact hwritten

/-- An array is written between brackets, with commas between its elements. -/
theorem written_array {vs : List Value} {texts : List (List Char)}
    (h : List.Forall₂ (fun v text => Written (.value v) text) vs texts) :
    Written (.value (.array vs)) ('[' :: (List.intercalate [','] texts ++ [']'])) := by
  cases h with
  | nil => exact .noElements blanks_nil
  | cons hv hvs =>
    rw [intercalate_comma, List.append_assoc]
    have hwritten := Written.array blanks_nil hv (written_elements hvs)
    exact hwritten

/-- A field is written as its key, a colon and its value. -/
theorem written_field (key : String) {v : Value} (h : Written (.value v) cs) :
    Written (.field key v) ((quote key).toList ++ ':' :: cs) := by
  rw [quote, String.toList_ofList, List.cons_append, List.cons_append, List.append_assoc]
  exact .field (writesText_escaped key.toList) blanks_nil blanks_nil h

/-- The fields behind one are written with a comma before each. -/
theorem written_fields {fs : List (String × Value)} {texts : List (List Char)}
    (h : List.Forall₂ (fun f text => Written (.field f.1 f.2) text) fs texts) :
    Written (.fields fs) (texts.flatMap (',' :: ·) ++ ['\x7d']) := by
  induction h with
  | nil => exact .lastField blanks_nil
  | cons hfield _ ih =>
    rw [List.flatMap_cons, List.append_assoc]
    have hwritten := Written.nextField blanks_nil blanks_nil hfield ih
    exact hwritten

/-- An object is written between braces, with commas between its fields. -/
theorem written_object {fs : List (String × Value)} {texts : List (List Char)}
    (h : List.Forall₂ (fun f text => Written (.field f.1 f.2) text) fs texts) :
    Written (.value (.object fs)) ('\x7b' :: (List.intercalate [','] texts ++ ['\x7d'])) := by
  cases h with
  | nil => exact .noFields blanks_nil
  | cons hfield hfs =>
    rw [intercalate_comma, List.append_assoc]
    have hwritten := Written.object blanks_nil hfield (written_fields hfs)
    exact hwritten

end ModuleLoader.Json
