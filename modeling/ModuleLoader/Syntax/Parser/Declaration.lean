import ModuleLoader.Syntax.Parser.Module

/-! # Declarations

* **`typeDeclaration?`** tells whether a declaration that only files with types have follows.
* **`declaration`** reads what can be declared and exported.
* **`exportDeclaration`** reads a declaration behind `export`. -/

namespace ModuleLoader.Syntax.Parser

/-! ## Declarations of types -/

/-- The words before a declaration that change what it is. -/
def declarationModifiers : List String :=
  ["declare", "abstract", "public", "private", "protected", "readonly", "static", "accessor"]

/-- A declaration that starts with a word of its own follows; the number bounds the modifiers. -/
def startsDeclarationFrom : Nat → Parse Bool
  | 0 => pure false
  | fuel + 1 => do
    match ← form with
    | .word word _ =>
      if ["var", "let", "const", "function", "class", "enum"].contains word then return true
      skip
      if word == "interface" || word == "type" then
        return !(← afterBreak) && (← atName)
      if word == "module" || word == "namespace" then
        return !(← afterBreak) && ((← atName) || Form.isString (← form))
      if word == "global" then
        return (← atSymbol "\x7b") || (← atName) || (← atWord "export")
      if word == "import" then
        return (← atSymbol "*") || (← atSymbol "\x7b") || Form.isString (← form) ||
          Form.isAnyWord (← form)
      if word == "async" then return !(← afterBreak) && (← atWord "function")
      if declarationModifiers.contains word then
        if ← afterBreak then return false
        return ← startsDeclarationFrom fuel
      return false
    | _ => return false

/-- A declaration that only files with types have follows. -/
def startsTypeDeclaration : Parse Bool := do
  if !(← hasTypes) then return false
  if ← atAnyWord (["interface", "type", "module", "namespace", "global", "enum"] ++
      declarationModifiers) then
    let fuel ← remaining
    lookahead (startsDeclarationFrom fuel)
  else return false

/-- An interface. -/
def interfaceDeclaration (r : Rules) : Parse Stmt := do
  expectWord "interface"
  let name ← bindingName
  typeParameters r
  if ← eatWord "extends" then namedTypes r
  if ← eatWord "implements" then
    namedTypes r
    note "Interface declaration cannot have 'implements' clause."
  r.typeMembers
  return .typeDecl name

/-- A name for a type. -/
def aliasDeclaration (r : Rules) : Parse Stmt := do
  expectWord "type"
  let name ← bindingName
  typeParameters r
  expect "="
  r.type
  endStatement
  return .typeDecl name

/-- One member of an enumeration; the comments before it stay with its name. -/
def enumMember (r : Rules) : Parse Property := do
  let comments ← leadingComments
  let key ← withComments comments <$> (do
    match ← form with
    | .string literal =>
      skip
      return Expr.string literal
    | .symbol "[" =>
      let e ← between "[" "]" r.assignIn
      match e with
      | .string literal => return Expr.string literal
      | .template [text] [] => return Expr.string (.made text)
      | e =>
        note "Computed property names are not allowed in enums."
        return Expr.computed e
    | .number _ value =>
      skip
      note "An enum member cannot have a numeric name."
      return Expr.number value
    | _ => return Expr.ident (← identifierName))
  if ← eat "=" then return .value key (← r.assign) false
  return .value key .absent false

/-- An enumeration. -/
def enumDeclaration (r : Rules) (isConst : Bool) : Parse Stmt := do
  expectWord "enum"
  let name ← bindingName
  between "\x7b" "\x7d" do
    let members ← listUntil "," "\x7d" (enumMember r)
    return .enumDecl isConst name members (← leadingComments)

/-- A namespace, or a module that is named by its specifier. -/
def namespaceDeclaration (r : Rules) : Parse Stmt := do
  advance
  match ← form with
  | .string _ =>
    skip
    if ← atSymbol "\x7b" then return .ambientModule (← block r)
    endStatement
    return .ambientModule []
  | _ =>
    let first ← bindingName
    let more ← repeated do
      if ← eat "." then return some (← identifierName) else return none
    return .namespaceDecl (first :: more) (markDirectives (← block r))

/-! ## What can be declared -/

/-- The kind of variables that the current word declares. -/
def variableKind? : Parse (Option VariableKind) := do
  match ← form with
  | .word "var" _ => return some .var
  | .word "let" _ => return some .letVar
  | .word "const" _ => return some .const
  | _ => return none

/-- An enumeration of constants follows. -/
def atConstEnum : Parse Bool := do
  if (← hasTypes) && (← atWord "const") then
    lookahead do
      skip
      atWord "enum"
  else return false

/-- Notes the modifiers that a declaration cannot have. -/
def checkDeclarationModifiers (seen allowed : List String) : Parse Unit := do
  for word in seen do
    if !allowed.contains word then note (misplacedModifier word)

/-- A declaration behind its modifiers, if none of the words that only types know starts it. -/
def plainDeclaration? (r : Rules) (decorators : List Expr) (seen : List String) :
    Parse (Option Stmt) := do
  if ← atConstEnum then
    advance
    checkDeclarationModifiers seen ["declare"]
    return some (← enumDeclaration r true)
  if let some kind ← variableKind? then
    advance
    checkDeclarationModifiers seen ["declare"]
    return some (← variableDeclaration r kind)
  if ← atWord "class" then
    checkDeclarationModifiers seen ["declare", "abstract"]
    return some (← classDeclaration r decorators)
  if (← atWord "function") || (← atAsyncFunction) then
    checkDeclarationModifiers seen ["declare"]
    return some (← functionDeclaration r true)
  return none

/-- A declaration behind its modifiers that starts with a word that only types know. -/
def typeOnlyDeclaration (r : Rules) (seen : List String) (word : String) : Parse Stmt := do
  checkDeclarationModifiers seen ["declare"]
  if word == "interface" then interfaceDeclaration r
  else if word == "type" then aliasDeclaration r
  else if word == "enum" then enumDeclaration r false
  else if word == "module" || word == "namespace" then namespaceDeclaration r
  else if word == "global" then
    advance
    return .ambientModule (← block r)
  else if word == "import" then
    advance
    importDeclaration
  else unexpected

/-- A declaration behind modifiers. The number bounds how many more of them there are. -/
def declarationFrom (r : Rules) (decorators : List Expr) : Nat → List String → Parse Stmt
  | 0, _ => unexpected
  | fuel + 1, seen => do
    if let some s ← plainDeclaration? r decorators seen then return s
    if !(← hasTypes) then return ← unexpected
    match ← form with
    | .word word _ =>
      if word == "declare" then
        let seen ← modifierBehind seen
        return .declared (← within (fun c => { c with isAmbient := true })
          (declarationFrom r decorators fuel seen))
      else if declarationModifiers.contains word then
        let seen ← modifierBehind seen
        declarationFrom r decorators fuel seen
      else typeOnlyDeclaration r seen word
    | _ => unexpected

/-- A declaration behind its decorators. -/
def declaration (r : Rules) (decorators : List Expr) : Parse Stmt := do
  declarationFrom r decorators (← remaining) []

/-! ## Exports -/

/-- A specifier in the braces of an export. -/
def exportSpecifier : Parse ExportSpecifier := do
  let names ← specifierNames moduleName
  return ⟨names.first, names.second.getD names.first, names.isType⟩

/-- Notes what only an export from another module can name. -/
def checkLocal (s : ExportSpecifier) : Parse Unit := do
  match s.bound with
  | .string _ =>
    note "A string literal cannot be used as an exported binding without \x60from\x60"
  | .ident name =>
    if isReserved name || (strictWords.contains name && name != "yield") then
      note "A reserved word cannot be used as an exported binding without \x60from\x60"

/-- A literal follows. -/
def atLiteral : Parse Bool := do
  match ← form with
  | .string _ | .number _ _ | .bigint _ _ => pure true
  | .word word _ => pure (word == "null" || word == "true" || word == "false")
  | _ => pure false

/-- Names in braces behind `export`. -/
def exportNames (isType : Bool) : Parse Stmt := do
  let specifiers ← listBetween "\x7b" "," "\x7d" exportSpecifier
  if (← eatWord "from") && (← atLiteral) then
    let source ← stringLiteral
    let attributes ← attributes?
    endStatement
    return .exportNamed isType specifiers (some source) attributes
  for s in specifiers do checkLocal s
  endStatement
  return .exportNamed isType specifiers none none

/-- All names of another module behind `export`. -/
def exportEverything (isType : Bool) : Parse Stmt := do
  expect "*"
  let exported ← if ← eatWord "as" then some <$> moduleName else pure none
  expectWord "from"
  let source ← stringLiteral
  let attributes ← attributes?
  endStatement
  return .exportAll isType exported source attributes

/-- What stands behind `export default`. -/
def exportDefaultRest (r : Rules) (decorators : List Expr) : Parse Stmt := do
  let decorators ← (do
    let more ← decoratorsBefore r
    return decorators ++ more)
  if ← atWord "class" then return .exportDefaultDecl (← classDeclaration r decorators)
  if (← atWord "function") || (← atAsyncFunction) then
    return .exportDefaultDecl (← functionDeclaration r false)
  if ← hasTypes then
    if ← atWord "abstract" then
      let isClass ← lookahead do
        skip
        return !(← afterBreak) && (← atWord "class")
      if isClass then
        advance
        return .exportDefaultDecl (← classDeclaration r decorators)
    if ← atWord "interface" then
      let isInterface ← lookahead do
        skip
        return !(← afterBreak) && (← atName)
      if isInterface then return .exportDefaultDecl (← interfaceDeclaration r)
  let e ← r.assign
  endStatement
  return .exportDefault e

/-- The word `type` behind `export` says that only types are exported. -/
def atTypeExport : Parse Bool := do
  if (← hasTypes) && (← atWord "type") then
    lookahead do
      skip
      return (← atSymbol "\x7b") || (← atSymbol "*")
  else return false

/-- A declaration behind `export`. -/
def exportDeclaration (r : Rules) (decorators : List Expr) : Parse Stmt := do
  if ← atSymbol "\x7b" then return ← exportNames false
  if ← atSymbol "*" then return ← exportEverything false
  if ← eatWord "default" then return ← exportDefaultRest r decorators
  if ← atTypeExport then
    advance
    return ← if ← atSymbol "*" then exportEverything true else exportNames true
  if ← hasTypes then
    if ← eat "=" then
      let e ← r.expression
      endStatement
      return .exportAssign e
    if ← atWord "as" then
      advance
      expectWord "namespace"
      let name ← bindingName
      endStatement
      return .exportAsNamespace name
  let more ← decoratorsBefore r
  return .exportDecl (← declaration r (decorators ++ more))

end ModuleLoader.Syntax.Parser
