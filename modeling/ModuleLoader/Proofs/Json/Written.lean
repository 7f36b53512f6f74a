import ModuleLoader.Json.Value

/-! # How JSON is written

A value can be written as a text in many ways: blanks may stand between its parts, a character may
be escaped or not, and where it is escaped by digits, these may be small or capital.

* **`Value`** is a JSON value.
* **`WritesChar`** says how a character may be written in a string, **`WritesText`** how a string
  may.
* **`IsNumber`** says which texts are numbers.
* **`Written`** says how a value and its parts may be written, **`Document`** which texts hold a
  value and nothing else. -/

namespace ModuleLoader.Json

open ModuleLoader.Text

/-! ## Values -/

/-- A JSON value. A number is as it is written, since a reader may look at its form. -/
inductive Value
  | null
  | bool (b : Bool)
  | number (digits : String)
  | string (s : String)
  | array (items : List Value)
  | object (fields : List (String × Value))

/-! ## Strings -/

/-- Four hexadecimal digits write a number. -/
inductive Hex4 : Nat → List Char → Prop
  | digits {w x y z : Char} {a b d e : Nat} (hw : hexValue? w = some a) (hx : hexValue? x = some b)
    (hy : hexValue? y = some d) (hz : hexValue? z = some e) :
    Hex4 (((a * 16 + b) * 16 + d) * 16 + e) [w, x, y, z]

/-- A character may be written in a string: as it is, by a letter behind a backslash, by its
number, or by the numbers of two surrogates. -/
inductive WritesChar : Char → List Char → Prop
  | plain {c : Char} (hquote : c ≠ '"') (hbackslash : c ≠ '\\') (hcontrol : ¬ c.toNat < 0x20) :
    WritesChar c [c]
  | letter {c x : Char} (h : simpleEscape? x = some c) : WritesChar c ['\\', x]
  | hex {c : Char} {digits : List Char} (h : Hex4 c.toNat digits) :
    WritesChar c ('\\' :: 'u' :: digits)
  | pair {c : Char} {n m : Nat} {high low : List Char} (hhigh : Hex4 n high) (hlow : Hex4 m low)
    (hn : 0xD800 ≤ n ∧ n ≤ 0xDBFF) (hm : 0xDC00 ≤ m ∧ m ≤ 0xDFFF)
    (hc : c.toNat = (n - 0xD800) * 0x400 + (m - 0xDC00) + 0x10000) :
    WritesChar c ('\\' :: 'u' :: (high ++ '\\' :: 'u' :: low))

/-- Some characters may be written between quotes. -/
inductive WritesText : List Char → List Char → Prop
  | nil : WritesText [] []
  | cons {c : Char} {cs written more : List Char} (h : WritesChar c written)
    (hmore : WritesText cs more) : WritesText (c :: cs) (written ++ more)

/-! ## Numbers -/

/-- Digits, of which there is one at least. -/
def IsDigits (ds : List Char) : Prop := ds ≠ [] ∧ ∀ d ∈ ds, isDigit d = true

/-- The part of a number before its point: it starts with a zero only if that is all. -/
def IsInteger (ds : List Char) : Prop := IsDigits ds ∧ (ds.head? = some '0' → ds = ['0'])

/-- The part of a number from its point on. -/
def IsFraction (cs : List Char) : Prop := cs = [] ∨ ∃ ds, cs = '.' :: ds ∧ IsDigits ds

/-- The power of ten at the end of a number. -/
def IsExponent (cs : List Char) : Prop :=
  cs = [] ∨ ∃ e sign ds, cs = e :: (sign ++ ds) ∧ (e = 'e' ∨ e = 'E') ∧
    (sign = [] ∨ sign = ['+'] ∨ sign = ['-']) ∧ IsDigits ds

/-- A text is a number. -/
def IsNumber (cs : List Char) : Prop :=
  ∃ sign ds fraction exponent, cs = sign ++ (ds ++ (fraction ++ exponent)) ∧
    (sign = [] ∨ sign = ['-']) ∧ IsInteger ds ∧ IsFraction fraction ∧ IsExponent exponent

/-! ## Texts of values -/

/-- Nothing but blanks. -/
def Blanks (ws : List Char) : Prop := ∀ c ∈ ws, Cursor.isBlank c = true

/-- A value, or a part of one: the elements behind one, up to the closing bracket, a field of an
object, or the fields behind one, up to the closing brace. -/
inductive Part
  | value (v : Value)
  | elements (vs : List Value)
  | field (key : String) (v : Value)
  | fields (fs : List (String × Value))

/-- A part of a value may be written as a text. -/
inductive Written : Part → List Char → Prop
  | null : Written (.value .null) "null".toList
  | yes : Written (.value (.bool true)) "true".toList
  | no : Written (.value (.bool false)) "false".toList
  | number {digits : String} (h : IsNumber digits.toList) :
    Written (.value (.number digits)) digits.toList
  | string {s : String} {cs : List Char} (h : WritesText s.toList cs) :
    Written (.value (.string s)) ('"' :: (cs ++ ['"']))
  | noElements {ws : List Char} (hws : Blanks ws) :
    Written (.value (.array [])) ('[' :: (ws ++ [']']))
  | array {v : Value} {vs : List Value} {ws cs more : List Char} (hws : Blanks ws)
    (hv : Written (.value v) cs) (hvs : Written (.elements vs) more) :
    Written (.value (.array (v :: vs))) ('[' :: (ws ++ (cs ++ more)))
  | lastElement {ws : List Char} (hws : Blanks ws) : Written (.elements []) (ws ++ [']'])
  | element {v : Value} {vs : List Value} {ws ws' cs more : List Char} (hws : Blanks ws)
    (hws' : Blanks ws') (hv : Written (.value v) cs) (hvs : Written (.elements vs) more) :
    Written (.elements (v :: vs)) (ws ++ ',' :: (ws' ++ (cs ++ more)))
  | noFields {ws : List Char} (hws : Blanks ws) :
    Written (.value (.object [])) ('\x7b' :: (ws ++ ['\x7d']))
  | object {key : String} {v : Value} {fs : List (String × Value)} {ws cs more : List Char}
    (hws : Blanks ws) (hfield : Written (.field key v) cs) (hfs : Written (.fields fs) more) :
    Written (.value (.object ((key, v) :: fs))) ('\x7b' :: (ws ++ (cs ++ more)))
  | field {key : String} {v : Value} {name ws ws' cs : List Char}
    (hname : WritesText key.toList name) (hws : Blanks ws) (hws' : Blanks ws')
    (hv : Written (.value v) cs) :
    Written (.field key v) ('"' :: (name ++ '"' :: (ws ++ ':' :: (ws' ++ cs))))
  | lastField {ws : List Char} (hws : Blanks ws) : Written (.fields []) (ws ++ ['\x7d'])
  | nextField {key : String} {v : Value} {fs : List (String × Value)} {ws ws' cs more : List Char}
    (hws : Blanks ws) (hws' : Blanks ws') (hfield : Written (.field key v) cs)
    (hfs : Written (.fields fs) more) :
    Written (.fields ((key, v) :: fs)) (ws ++ ',' :: (ws' ++ (cs ++ more)))

/-- A text holds a value and nothing else but blanks. -/
def Document (v : Value) (text : String) : Prop :=
  ∃ ws cs ws', text.toList = ws ++ (cs ++ ws') ∧ Blanks ws ∧ Blanks ws' ∧ Written (.value v) cs

end ModuleLoader.Json
