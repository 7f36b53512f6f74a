import ModuleLoader.Text.Character
import ModuleLoader.Imports.Reference

/-! # Scanning text for imports

A scan that knows no grammar: comments are taken out, and then the text is searched for three
shapes of imports, each shape on its own.

* **`withoutComments`** takes comments out.
* **`staticImport?`**, **`dynamicImport?`**, **`exportFrom?`** are the shapes.
* **`scanText`** lists the specifiers in the order of the text. -/

namespace ModuleLoader.TextScan

/-! ## Comments -/

/-- What follows the end of a block comment; `none` when it does not end. -/
def behindBlock : List Char → Option (List Char)
  | '*' :: '/' :: rest => some rest
  | _ :: rest => behindBlock rest
  | [] => none

/-- What follows a block comment is shorter than it. -/
theorem length_behindBlock_lt {cs rest : List Char} (h : behindBlock cs = some rest) :
    rest.length < cs.length := by
  induction cs with
  | nil => simp [behindBlock] at h
  | cons c cs ih =>
    unfold behindBlock at h
    split at h
    · rename_i heq
      simp only [Option.some.injEq] at h
      rw [heq, ← h]
      simp only [List.length_cons]
      omega
    · rename_i heq
      simp only [List.cons.injEq] at heq
      rw [← heq.2] at h
      have := ih h
      simp only [List.length_cons]
      omega
    · simp at h

/-- The text with a blank for each block comment. One that does not end stays. -/
def withoutBlocks (cs : List Char) : List Char :=
  match cs with
  | [] => []
  | c :: tail =>
    match tail with
    | [] => [c]
    | d :: rest =>
      if c == '/' && d == '*' then
        match _h : behindBlock rest with
        | some after => ' ' :: withoutBlocks after
        | none => c :: withoutBlocks (d :: rest)
      else c :: withoutBlocks (d :: rest)
termination_by cs.length
decreasing_by
  · have := length_behindBlock_lt _h
    simp only [List.length_cons]
    omega
  · simp only [List.length_cons]
    omega
  · simp only [List.length_cons]
    omega

/-- What is left of a line behind two slashes is not part of the text. -/
def restOfLine (cs : List Char) : List Char := cs.dropWhile (· != '\n')

/-- Two slashes are the next characters. -/
def startsLineComment : List Char → Bool
  | '/' :: '/' :: _ => true
  | _ => false

/-- The text without line comments. Two slashes behind a colon or a backslash start none; the flag
says that a line starts here, and the number bounds the steps. -/
def withoutLinesFrom : Nat → Bool → List Char → List Char
  | 0, _, cs => cs
  | _ + 1, _, [] => []
  | fuel + 1, lineStart, c :: rest =>
    if lineStart && startsLineComment (c :: rest) then
      withoutLinesFrom fuel false (restOfLine (c :: rest))
    else if c != ':' && c != '\\' && startsLineComment rest then
      c :: withoutLinesFrom fuel false (restOfLine rest)
    else c :: withoutLinesFrom fuel (c == '\n') rest

/-- The text without line comments. -/
def withoutLines (cs : List Char) : List Char := withoutLinesFrom (cs.length + 1) true cs

/-- The text without comments. -/
def withoutComments (cs : List Char) : List Char := withoutLines (withoutBlocks cs)

/-! ## Shapes -/

/-- Either quote; the two that close a specifier need not be the same. -/
def isQuote (c : Char) : Bool := c == '"' || c == '\x27'

/-- A character of a name. -/
def isNameChar (c : Char) : Bool := Text.isWord c || c == '$'

/-- A character that may stand between `import` and `from`. -/
def isClauseChar (c : Char) : Bool :=
  isNameChar c || c == '*' || c == '\x7b' || c == '\x7d' || c == ',' || Text.isWhiteSpace c

/-- Passes white space. -/
def skipSpace (cs : List Char) : List Char := cs.dropWhile Text.isWhiteSpace

/-- What follows the given characters, if they come next. -/
def behind (word : String) (cs : List Char) : Option (List Char) :=
  if word.toList.isPrefixOf cs then some (cs.drop word.length) else none

/-- A specifier that a shape has come to. -/
structure Match where
  /-- The specifier. -/
  specifier : List Char
  /-- How many characters of the text follow the quote before it. -/
  tail : Nat
  /-- What follows the shape. -/
  after : List Char
deriving DecidableEq, Repr

/-- A specifier between quotes, on one line and not empty. -/
def quoted? (cs : List Char) : Option Match :=
  match cs with
  | q :: rest =>
    if isQuote q then
      let specifier := rest.takeWhile fun c => !isQuote c && c != '\n'
      match specifier, rest.dropWhile fun c => !isQuote c && c != '\n' with
      | [], _ => none
      | _, [] => none
      | specifier, q :: after => if isQuote q then some ⟨specifier, rest.length, after⟩ else none
    else none
  | [] => none

/-- What stands between `import` and the specifier: nothing, or a clause that ends in `from`. -/
def isClause (cs : List Char) : Bool :=
  if cs.all Text.isWhiteSpace then true
  else
    let reversed := cs.reverse.dropWhile Text.isWhiteSpace
    match reversed with
    | 'm' :: 'o' :: 'r' :: 'f' :: _ :: _ => cs.all isClauseChar
    | _ => false

/-- An import declaration behind the character before it. -/
def staticImport? (cs : List Char) : Option Match := do
  let cs ← behind "import" cs
  if isClause (cs.takeWhile fun c => !isQuote c) then quoted? (cs.dropWhile fun c => !isQuote c)
  else none

/-- An `import()` behind the character before it. -/
def dynamicImport? (cs : List Char) : Option Match := do
  let cs ← behind "import" cs
  let cs ← behind "(" (skipSpace cs)
  let m ← quoted? (skipSpace cs)
  let after ← behind ")" (skipSpace m.after)
  return { m with after }

/-- The `from` of an export with its specifier. -/
def fromQuoted? (cs : List Char) : Option Match := do
  let cs ← behind "from" (skipSpace cs)
  quoted? (skipSpace cs)

/-- The name behind `as` with what follows it. A name may end in the `from` that is needed. -/
def renamedFrom? (cs : List Char) : Option Match := do
  let cs ← behind "as" (skipSpace cs)
  let name := (skipSpace cs).takeWhile isNameChar
  let after := (skipSpace cs).dropWhile isNameChar
  if (skipSpace cs).length == cs.length || name.isEmpty then none
  else
    fromQuoted? after <|>
      match name.reverse with
      | 'm' :: 'o' :: 'r' :: 'f' :: _ :: _ => quoted? (skipSpace after)
      | _ => none

/-- An export from another module behind the character before it. -/
def exportFrom? (cs : List Char) : Option Match := do
  let cs ← behind "export" cs
  match skipSpace cs with
  | '*' :: rest => renamedFrom? rest <|> fromQuoted? rest
  | '\x7b' :: rest =>
    match rest.dropWhile (· != '\x7d') with
    | _ :: rest => fromQuoted? rest
    | [] => none
  | _ => none

/-! ## Searching -/

/-- The character before an import or export declaration. -/
def beforeDeclaration (c : Char) : Bool := c == ';' || Text.isWhiteSpace c

/-- The character before an `import()`. -/
def beforeCall (c : Char) : Bool := !(isNameChar c || c == '.')

/-- A specifier that has been found, with its place counted from the end of the text. -/
structure Found where
  /-- How many characters follow the quote before the specifier. -/
  tail : Nat
  /-- The reference. -/
  reference : Reference
deriving DecidableEq, Repr

/-- The specifiers that a shape finds behind a character of a kind or at the start of the text,
one behind the other; the number bounds the steps. -/
def searchFrom (before : Char → Bool) (shape : List Char → Option Match) (isDynamic : Bool) :
    Nat → Bool → List Char → List Found
  | 0, _, _ => []
  | _ + 1, _, [] => []
  | fuel + 1, isStart, c :: rest =>
    let found := (if isStart then shape (c :: rest) else none) <|>
      (if before c then shape rest else none)
    match found with
    | some m =>
      ⟨m.tail, ⟨String.ofList m.specifier, isDynamic⟩⟩ ::
        searchFrom before shape isDynamic fuel false m.after
    | none => searchFrom before shape isDynamic fuel false rest

/-- The specifiers that a shape finds. -/
def search (before : Char → Bool) (shape : List Char → Option Match) (isDynamic : Bool)
    (cs : List Char) : List Found :=
  searchFrom before shape isDynamic (cs.length + 1) true cs

/-- The specifiers in a text, with the way each is used, in the order of the text. -/
def scanText (text : String) : List Reference :=
  let cs := withoutComments text.toList
  let found := search beforeDeclaration staticImport? false cs ++
    search beforeCall dynamicImport? true cs ++ search beforeDeclaration exportFrom? false cs
  mergeReferences ((found.mergeSort fun a b => a.tail ≥ b.tail).map Found.reference)

end ModuleLoader.TextScan
