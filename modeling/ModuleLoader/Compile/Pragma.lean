import ModuleLoader.Syntax.Lexer.Trivia

/-! # What comments say about elements

A comment may say how the elements of its module are to be compiled: `@jsx` and `@jsxFrag` name the
functions that make them, `@jsxImportSource` the package these come from, and `@jsxRuntime` whether
they are imported by the compiler at all.

* **`Pragmas`** is what the comments of a module say; the last word counts.
* **`Pragmas.ofComments`** reads comments. -/

namespace ModuleLoader.Syntax

/-- What the comments of a module say about elements. -/
structure Pragmas where
  /-- The function that makes elements. -/
  factory : Option String
  /-- What stands for a fragment. -/
  fragment : Option String
  /-- The package that the functions are imported from. -/
  importSource : Option String
  /-- The functions are imported by the module itself. -/
  isClassic : Bool
deriving DecidableEq, Repr, Inhabited

namespace Pragmas

/-- Comments that say nothing. -/
def none : Pragmas := ⟨.none, .none, .none, false⟩

/-- A text behind the place where `@jsx` first stands in it. -/
def behindMark : List Char → Option (List Char)
  | '@' :: 'j' :: 's' :: 'x' :: rest => some rest
  | _ :: rest => behindMark rest
  | [] => .none

/-- A space or tab. -/
def isGap (c : Char) : Bool := c == ' ' || c == '\t'

/-- Takes one word about elements into account. -/
def note (p : Pragmas) (keyword : List Char) (value : String) : Pragmas :=
  if keyword.isEmpty then { p with factory := some value }
  else if keyword == "Frag".toList then { p with fragment := some value }
  else if keyword == "ImportSource".toList then { p with importSource := some value }
  else if value == "classic" then { p with isClassic := true }
  else if value == "automatic" then { p with isClassic := false }
  else p

/-- The words that can be said. -/
def isKeyword (keyword : List Char) : Bool :=
  keyword.isEmpty || [("Frag" : String), "ImportSource", "Runtime"].any (·.toList == keyword)

/-- Reads the content of a comment. A word ends at a gap, its value at white space; a word without
a value ends the reading. The number bounds how many words there are. -/
def readFrom : Nat → Pragmas → List Char → Pragmas
  | 0, p, _ => p
  | fuel + 1, p, cs =>
    match behindMark cs with
    | .none => p
    | some rest =>
      let keyword := rest.takeWhile (!isGap ·)
      match rest.dropWhile (!isGap ·) with
      | [] => p
      | gap =>
        if isKeyword keyword then
          let rest := gap.dropWhile isGap
          let value := rest.takeWhile (!Text.isWhiteSpace ·)
          if value.isEmpty then p
          else readFrom fuel (p.note keyword (String.ofList value))
            (rest.dropWhile (!Text.isWhiteSpace ·))
        else readFrom fuel p gap

/-- The content of a comment, without its delimiters. -/
def inside (c : Comment) : List Char :=
  let cs := c.text.toList.drop 2
  if c.isLine then cs else cs.take (cs.length - 2)

/-- What comments say, in their order. -/
def ofComments (comments : List Comment) : Pragmas :=
  comments.foldl (fun p c => readFrom (inside c).length p (inside c)) none

end Pragmas

end ModuleLoader.Syntax
