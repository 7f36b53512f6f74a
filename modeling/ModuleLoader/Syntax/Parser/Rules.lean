import ModuleLoader.Syntax.Parser.State
import ModuleLoader.Syntax.Remarks

/-! # Rules that refer to each other

The grammar of JavaScript is recursive. A rule that needs another one behind a bracket or an
operator finds it in a table; `Rules` is that table, and the parser ties it to itself.

* **`Rules`** holds the rules that others refer to.
* **`identifier`**, **`bindingName`**, **`identifierName`** read names.
* **`stringLiteral`**, **`moduleName`** read what imports and exports name. -/

namespace ModuleLoader.Syntax.Parser

/-- The rules that other rules refer to. -/
structure Rules where
  /-- An expression with commas. -/
  expression : Parse Expr
  /-- An expression without commas; in some places an arrow function must not have a return type
  that a colon follows. -/
  assignment : Bool → Parse Expr
  /-- Operands joined by operators that bind more than a level. -/
  binary : Precedence → Parse Expr
  /-- An operand with the operators before it. -/
  unary : Parse Expr
  /-- What can be called or assigned to. -/
  leftHand : Parse Expr
  /-- What a declaration binds. -/
  target : Parse Expr
  /-- An element or fragment behind its first angle bracket, where `tail` counts the characters
  from that; the flag says that it is the child of another one. -/
  element : Nat → Bool → Parse Expr
  /-- A statement with the comments before it; the flag says that it stands alone. -/
  statement : Bool → Parse Stmt
  /-- A type. -/
  type : Parse Unit
  /-- The members of an object type with its braces. -/
  typeMembers : Parse Unit

/-- An expression without commas. -/
def Rules.assign (r : Rules) : Parse Expr := r.assignment true

/-- An expression without commas in which `in` is an operator. -/
def Rules.assignIn (r : Rules) : Parse Expr :=
  within (fun c => { c with allowsIn := true }) r.assign

/-- An expression with commas in which `in` is an operator. -/
def Rules.expressionIn (r : Rules) : Parse Expr :=
  within (fun c => { c with allowsIn := true }) r.expression

/-! ## Names -/

/-- A word that names a variable. -/
def isNameWord (word : String) : Bool := !isReserved word || word == "await"

/-- The token is a word that names a variable. -/
def Form.isName : Form → Bool
  | .word text _ => isNameWord text
  | _ => false

/-- The token is any word. -/
def Form.isAnyWord : Form → Bool
  | .word _ _ => true
  | _ => false

/-- The token starts a template. -/
def Form.isTemplate : Form → Bool
  | .template _ _ _ => true
  | _ => false

/-- The token is a private name. -/
def Form.isPrivateName : Form → Bool
  | .privateName _ => true
  | _ => false

/-- The token is a string. -/
def Form.isString : Form → Bool
  | .string _ => true
  | _ => false

/-- The token is a number. -/
def Form.isNumber : Form → Bool
  | .number _ _ | .bigint _ _ => true
  | _ => false

/-- The current token is a word that names a variable. -/
def atName : Parse Bool := return Form.isName (← form)

/-- Notes that a name is an operator at its place. -/
def checkName (word : String) (c : Context) : Parse Unit := do
  if c.allowsAwait && word == "await" then
    note "Cannot use \x60await\x60 as an identifier in an async context"
  else if c.allowsYield && word == "yield" then
    note "Cannot use \x60yield\x60 as an identifier in a generator context"

/-- The name of a variable that is used. -/
def identifier : Parse String := do
  match ← form with
  | .word text _ =>
    if isNameWord text then
      checkName text (← context)
      skip
      pure text
    else unexpected
  | _ => unexpected

/-- The message about a reserved word where a name is bound. -/
def reservedMessage (word : String) : String :=
  "Identifier expected. '" ++ word ++ "' is a reserved word that cannot be used here."

/-- The name of a variable that is bound. -/
def bindingName : Parse String := do
  match ← form with
  | .word text _ =>
    if isNameWord text then
      checkName text (← context)
      skip
      pure text
    else fail (reservedMessage text)
  | _ => unexpected

/-- Any word. -/
def identifierName : Parse String := do
  match ← form with
  | .word text _ =>
    skip
    pure text
  | _ => unexpected

/-- A string. -/
def stringLiteral : Parse StringLiteral := do
  match ← form with
  | .string literal =>
    skip
    pure literal
  | _ => unexpected

/-- The name of an import or export: any word or a string. -/
def moduleName : Parse ModuleName := do
  match ← form with
  | .string literal =>
    skip
    pure (.string literal)
  | _ => return .ident (← identifierName)

/-- The comments before the current token. -/
def leadingComments : Parse (List Comment) := return (← current).comments

/-- The token is a single character. -/
def isSingleCharacter (t : Token) : Bool :=
  match t.form, t.start with
  | .symbol text, _ => text.length == 1
  | .word _ _, _ :: c :: _ | .number _ _, _ :: c :: _ =>
    !(Text.isIdentifierPart c || c == '\\' || c == '.')
  | .word _ _, _ | .number _ _, _ => true
  | _, _ => false

/-- The comments before the last character that has been passed: those before the last token, if
that is a single character. -/
def commentsBeforeEnd : Parse (List Comment) := do
  let t := (← get).previous
  return if isSingleCharacter t then t.comments else []

end ModuleLoader.Syntax.Parser
