import ModuleLoader.Syntax.Tree
import ModuleLoader.Text.Character

/-! # Literals in print

How strings, directives and the texts of templates are written in compiled code. Compiled code may
end up inside a page, so nothing in it may look like the end of a script.

* **`escapeScriptEnds`** keeps a text from ending a script.
* **`quoted`** writes a string between double quotes.
* **`directiveText`** writes a directive as it was written. -/

namespace ModuleLoader.Syntax.Printer

/-- The indentation of a line: a tab for each level. -/
def tabs (n : Nat) : String := "".pushn '\t' n

/-- A text in parentheses if they are needed. -/
def parenthesizedIf (isNeeded : Bool) (text : String) : String :=
  if isNeeded then "(" ++ text ++ ")" else text

/-! ## The ends of scripts -/

/-- The characters start with the closing tag of a script, in capitals or not. -/
def startsScriptEnd (cs : List Char) : Bool :=
  (cs.take 8).map Text.toAsciiLower == "</script".toList

/-- The characters with a backslash in each closing tag of a script. -/
def escapeScriptEndsIn : List Char → List Char
  | [] => []
  | c :: rest =>
    if startsScriptEnd (c :: rest) then c :: '\\' :: escapeScriptEndsIn rest
    else c :: escapeScriptEndsIn rest

/-- The text with a backslash in each closing tag of a script. -/
def escapeScriptEnds (text : String) : String := String.ofList (escapeScriptEndsIn text.toList)

/-! ## Strings -/

/-- One character between double quotes, by the characters behind it. -/
def quotedChar (c : Char) (behind : List Char) : List Char :=
  if c == '\x00' then
    match behind with
    | d :: _ => if Text.isDigit d then "\\x00".toList else "\\0".toList
    | [] => "\\0".toList
  else if c == '\x07' then "\\x07".toList
  else if c == '\x08' then "\\b".toList
  else if c == '\x0b' then "\\v".toList
  else if c == '\x0c' then "\\f".toList
  else if c == '\n' then "\\n".toList
  else if c == '\r' then "\\r".toList
  else if c == '\x1b' then "\\x1B".toList
  else if c == '\\' then "\\\\".toList
  else if c == '"' then "\\\"".toList
  else if c == '\u2028' then "\\u2028".toList
  else if c == '\u2029' then "\\u2029".toList
  else if c == '\u00A0' then "\\xA0".toList
  else if startsScriptEnd (c :: behind) then "<\\".toList
  else [c]

/-- The characters of a string between double quotes; four digits behind U+FFFD are half a surrogate
pair if there are any. -/
def quotedChars (hasHalves : Bool) : List Char → List Char
  | [] => []
  | x :: a :: b :: c :: d :: rest =>
    if hasHalves && x == '\uFFFD' then
      if [a, b, c, d] == "fffd".toList then x :: quotedChars hasHalves rest
      else '\\' :: 'u' :: a :: b :: c :: d :: quotedChars hasHalves rest
    else quotedChar x (a :: b :: c :: d :: rest) ++
      quotedChars hasHalves (a :: b :: c :: d :: rest)
  | c :: rest => quotedChar c rest ++ quotedChars hasHalves rest

/-- A string between double quotes. -/
def quoted (literal : StringLiteral) : String :=
  "\"" ++ String.ofList (quotedChars literal.hasHalves literal.value.toList) ++ "\""

/-! ## Directives -/

/-- The quotes that can stand around a text with the given characters, by the first quote in it. -/
def directiveQuote : List Char → Char
  | [] => '"'
  | '\\' :: _ :: rest => directiveQuote rest
  | c :: rest =>
    if c == '"' then '\x27' else if c == '\x27' then '"' else directiveQuote rest

/-- A directive, whose text stays as it was written. -/
def directiveText (written : String) : String :=
  let quote := String.singleton (directiveQuote written.toList)
  quote ++ written ++ quote

end ModuleLoader.Syntax.Printer
