/-! # Places in a text

* **`Position`** is a line and a column, both counted from one.
* **`Position.behind`** is the place behind some characters. -/

namespace ModuleLoader.Text

/-- A place in a text. -/
structure Position where
  /-- The line. -/
  line : Nat
  /-- The column, in units of UTF-16. -/
  column : Nat
deriving DecidableEq, Repr, Inhabited

namespace Position

/-- The characters that end a line in any script. -/
def endsLine (c : Char) : Bool :=
  c == '\n' || c == '\r' || c == '\x0b' || c == '\x0c' || c == '\x85' || c == '\u2028' ||
    c == '\u2029'

/-- The place behind some characters that follow a place. -/
def advance (p : Position) : List Char → Position
  | [] => p
  | '\r' :: '\n' :: rest => advance ⟨p.line + 1, 1⟩ rest
  | c :: rest =>
    if endsLine c then advance ⟨p.line + 1, 1⟩ rest
    else advance ⟨p.line, p.column + (if c.toNat < 0x10000 then 1 else 2)⟩ rest

/-- The place behind the characters that a text starts with. -/
def behind (cs : List Char) : Position := advance ⟨1, 1⟩ cs

end Position

end ModuleLoader.Text
