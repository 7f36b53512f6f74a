import ModuleLoader.Syntax.Binding
import ModuleLoader.Syntax.Parser.Statement

/-! # Programs

A module as a whole: its statements and all its comments.

* **`Program`** is a module that has been read.
* **`Program.read`** reads a module, or lists the faults in it. -/

namespace ModuleLoader.Syntax

open Parser

/-- A module that has been read. -/
structure Program where
  /-- What the module may hold. -/
  dialect : Dialect
  /-- The line behind `#!` that the text starts with, if it does. -/
  interpreter : Option String
  /-- Its statements. -/
  body : List Stmt
  /-- The comments behind the last statement. -/
  trailing : List Comment
  /-- All its comments. -/
  comments : List Comment
  /-- What its types name. -/
  asides : List Expr
deriving Inhabited

namespace Parser

/-! ## The rules -/

/-- The rules that accept nothing. -/
def noRules : Rules :=
  { expression := unexpected, assignment := fun _ => unexpected, binary := fun _ => unexpected
    unary := unexpected, leftHand := unexpected, target := unexpected
    element := fun _ _ => unexpected, statement := fun _ => unexpected, type := unexpected
    typeMembers := unexpected }

/-- The rules of the grammar, each of which may refer to others as often as the number says. -/
def rules : Nat → Rules
  | 0 => noRules
  | n + 1 =>
    { expression := fun s => expressionOf (rules n) s
      assignment := fun allows s => assignmentOf (rules n) allows s
      binary := fun level s => binaryOf (rules n) level s
      unary := fun s => unaryOf (rules n) s
      leftHand := fun s => leftHandOf (rules n) s
      target := fun s => bindingTarget (rules n) s
      element := fun tail inChild s => elementRest (rules n) tail inChild s
      statement := fun isAlone s => statementOf (rules n) isAlone s
      type := fun s => typeOf (rules n) s
      typeMembers := fun s => typeMembersOf (rules n) s }

/-- The statements up to the end of the text. A closing brace cannot stand between them. -/
def programBody (r : Rules) : Parse (List Stmt) := do
  let body ← repeated do
    if ← atEnd then return none
    return some (← r.statement false)
  return markDirectives body

/-! ## The start of a text -/

/-- Splits off the line that names an interpreter. -/
def splitInterpreter : List Char → Option String × List Char
  | '#' :: '!' :: rest =>
    (some (String.ofList (rest.takeWhile fun c => !Text.isLineTerminator c)),
      rest.dropWhile fun c => !Text.isLineTerminator c)
  | cs => (none, cs)

/-- Drops the mark of byte order at the start of a text. -/
def dropByteOrderMark : List Char → List Char
  | c :: rest => if c == '\uFEFF' then rest else c :: rest
  | [] => []

/-- The context of the statements of a module. -/
def moduleContext (d : Dialect) : Context :=
  ⟨true, false, true, false, false, d.isDefinition, false⟩

/-- The state before the first token of a text. -/
def start (d : Dialect) (isFirst : Bool) (cs : List Char) : State :=
  let scan := Lexer.nextToken isFirst .eof cs
  ⟨d, moduleContext d, scan.token, scan.rest, .bare .eof [], 0, scan.faults.reverse, [], 0,
    scan.comments.reverse, []⟩

/-! ## Faults -/

/-- The names that are in a list again, as often as they are. -/
def repeatedNames (names : List String) : List String :=
  match names with
  | [] => []
  | name :: rest =>
    let again := repeatedNames rest
    if rest.contains name && !again.contains name then
      rest.filter (· == name) ++ again.filter (· != name)
    else again

/-- The name of an export that has a name of its own. -/
def Stmt.namedExports (s : Stmt) : List String :=
  match s.bare with
  | .exportDefault _ | .exportDefaultDecl _ => []
  | s => s.exportedNames

/-- The names that are exported twice. -/
def exportFaults (body : List Stmt) : List String :=
  let twice := repeatedNames (body.flatMap Stmt.namedExports)
  let defaults := (exportedNames body).filter (· == "default")
  twice.map (fun name => "Duplicated export '" ++ name ++ "'") ++
    (if defaults.length > 1 then ["Duplicated default export"] else [])

/-- The faults of properties whose values only targets can have, and that are no targets. -/
def coverFaults (count : Nat) : List String :=
  List.replicate count "Invalid assignment in object literal"

/-- A text holds another. -/
def holds (part : List Char) : List Char → Bool
  | [] => part.isEmpty
  | c :: rest => part.isPrefixOf (c :: rest) || holds part rest

/-- Faults in a text whose first comment says that it has types of another kind are not listed. -/
def withoutFlow (s : State) (faults : List String) : List String :=
  match s.comments.getLast? with
  | some c =>
    if !faults.isEmpty && !s.dialect.hasTypes && holds "@flow".toList c.text.toList then
      ["Flow is not supported"]
    else faults
  | none => faults

/-- All faults that a parser has noted. -/
def State.allFaults (s : State) : List String := s.tokenFaults.reverse ++ s.faults.reverse

end Parser

/-- How deep the rules of the grammar may refer to each other in a text. -/
def Program.depth (cs : List Char) : Nat := 16 * (cs.length + 4)

/-- Reads a module, or lists the faults in it. A fault that ends the parse is not listed beside
faults of tokens if the parser has come to the end of the text by it. -/
def Program.read (d : Dialect) (text : String) : Except (List String) Program :=
  let (interpreter, cs) := splitInterpreter (dropByteOrderMark text.toList)
  let s := start d interpreter.isNone cs
  match programBody (rules (Program.depth cs)) s with
  | .ok body s =>
    let faults := s.allFaults ++ coverFaults s.covers ++
      (if d.hasTypes then [] else exportFaults body)
    if faults.isEmpty then
      .ok ⟨d, interpreter, body, s.token.comments, s.comments.reverse, s.asides.reverse⟩
    else .error (withoutFlow s faults)
  | .error fatal s =>
    let atEnd := fatal.isInside || s.token.form == .eof
    let last := if !s.tokenFaults.isEmpty && atEnd then [] else [fatal.message]
    .error (withoutFlow s (s.allFaults ++ last ++ coverFaults s.covers))

end ModuleLoader.Syntax
