import ModuleLoader.Text.Entity

/-! # Text in elements

The text between elements is put together from its lines: blanks at line ends and line starts
vanish, lines of blanks alone vanish with them, and one space joins what is left. The very first
and last blanks stay where no line ends.

* **`childText?`** is the text that a child stands for.
* **`attributeText`** is the text that an attribute stands for. -/

namespace ModuleLoader.Syntax

/-- Splits a text into its lines. -/
def linesOf : List Char → List (List Char)
  | [] => [[]]
  | c :: rest =>
    if Text.isLineTerminator c then [] :: linesOf rest
    else
      match linesOf rest with
      | line :: lines => (c :: line) :: lines
      | [] => [[c]]

/-- A line without the blanks at its start, its end, or both. -/
def trimLine (atStart atEnd : Bool) (line : List Char) : List Char :=
  let line := if atStart then line.dropWhile Text.isBlank else line
  if atEnd then (line.reverse.dropWhile Text.isBlank).reverse else line

/-- The lines of a text without the blanks around the breaks between them. -/
def trimLines (atStart : Bool) : List (List Char) → List (List Char)
  | [] => []
  | [line] => [trimLine atStart false line]
  | line :: rest => trimLine atStart true line :: trimLines true rest

/-- Joins lines by spaces. -/
def joinLines : List (List Char) → List Char
  | [] => []
  | [line] => line
  | line :: rest => line ++ ' ' :: joinLines rest

/-- The text that a child stands for, if any is left of it. -/
def childText? (written : String) : Option String :=
  match ((trimLines false (linesOf written.toList)).filter (!·.isEmpty)).map
      Text.decodeEntities with
  | [] => none
  | lines => some (String.ofList (joinLines lines))

/-- The text that an attribute stands for. -/
def attributeText (written : String) : String :=
  String.ofList (Text.decodeEntities written.toList)

end ModuleLoader.Syntax
