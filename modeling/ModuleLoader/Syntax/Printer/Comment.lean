import ModuleLoader.Syntax.Printer.Literal

/-! # Comments in print

Comments keep their text; the lines of a long one take the indentation of the place.

* **`commentText`** writes a comment.
* **`leadingText`** writes the comments before a statement or member, and tells how what they stand
  before is led in.
* **`remarksText`** writes the comments before an object, **`argumentComments`** those before an
  argument. -/

namespace ModuleLoader.Syntax.Printer

/-! ## One comment -/

/-- The lines of a text. -/
def linesOf : List Char → List Char → List (List Char)
  | acc, [] => [acc.reverse]
  | acc, '\r' :: '\n' :: rest => acc.reverse :: linesOf [] rest
  | acc, c :: rest =>
    if Text.isLineTerminator c then acc.reverse :: linesOf [] rest else linesOf (c :: acc) rest

/-- One line of a comment on a place of the given indentation. -/
def commentLine (n : Nat) (line : List Char) : String :=
  let isFirst := "/*".toList.isPrefixOf line
  let isLast := "*/".toList.isSuffixOf line
  (if isFirst then "" else tabs n) ++
    String.ofList (escapeScriptEndsIn (line.dropWhile Text.isWhiteSpace)) ++
    (if isLast then "" else "\n")

/-- A comment on a place of the given indentation. -/
def commentText (n : Nat) (c : Comment) : String :=
  if c.isLine then escapeScriptEnds c.text
  else String.join ((linesOf [] c.text.toList).map (commentLine n))

/-- The comment is about the rights in the code. -/
def isLegalComment (c : Comment) : Bool :=
  let cs := c.text.toList.drop 2
  cs.head? == some '!' ||
    (c.text.splitOn "@license").length > 1 || (c.text.splitOn "@preserve").length > 1

/-! ## Comments before a statement -/

/-- How a statement or member is led in. -/
inductive Lead
  /-- It starts a line. -/
  | line
  /-- It goes on in a line behind a blank. -/
  | blank
  /-- It goes on in a line. -/
  | direct
  /-- It is the body of the statement before it. -/
  | body
  /-- It stands behind `else`. -/
  | branch
deriving DecidableEq, Repr, Inhabited

/-- The characters that lead in on a place of the given indentation. -/
def Lead.text (n : Nat) : Lead → String
  | .line => tabs n
  | .direct => ""
  | .blank | .body | .branch => " "

/-- The comments behind the first one. -/
def furtherComments (n : Nat) : List Comment → String
  | [] => ""
  | c :: rest =>
    (if c.afterBreak then "\n" ++ tabs n else if isLegalComment c then "\n" else "") ++
      commentText n c ++ furtherComments n rest

/-- The comments before a statement or member, with how that is led in behind them. -/
def leadingText (n : Nat) (lead : Lead) (comments : List Comment) : String × Lead :=
  match comments with
  | [] => ("", lead)
  | first :: rest =>
    let start := (if first.afterBreak && lead != .line then "\n" else "") ++ lead.text n
    let text := start ++ commentText n first ++ furtherComments n rest
    let last := rest.getLastD first
    if last.isLine || last.beforeBreak then (text ++ "\n", .line) else (text, .blank)

/-! ## Comments before an expression -/

/-- The comments before an object, or another thing in its line, with what leads that in. -/
def remarksText (n : Nat) (comments : List Comment) : String :=
  match comments with
  | [] => tabs n
  | first :: rest =>
    let last := rest.getLastD first
    (if first.afterBreak then "\n" else "") ++ tabs n ++ commentText n first ++
      furtherComments n rest ++
      (if last.isLine || last.beforeBreak then "\n" ++ tabs n else " ")

/-- The start of an argument on a line of its own, behind the comments before it. -/
def argumentComments (n : Nat) (comments : List Comment) : String :=
  String.join (comments.map fun c => "\n" ++ tabs n ++ commentText n c) ++ "\n"

end ModuleLoader.Syntax.Printer
