import ModuleLoader.Syntax.Parser.Class

/-! # Imports and exports

* **`importDeclaration`** reads a declaration behind `import`, **`exportDeclaration`** one behind
  `export`.
* **`declaration`** reads what an export can declare.
* **`variableDeclaration`** reads variables. -/

namespace ModuleLoader.Syntax.Parser

/-! ## Variables -/

/-- Notes that a variable has no value and needs one. -/
def checkInitializer (kind : VariableKind) (e : Expr) : Parse Unit := do
  match e with
  | .ident _ =>
    if !(← context).isAmbient then
      if kind == .const then note "Missing initializer in const declaration"
      if kind == .using || kind == .awaitUsing then
        note "Using declarations must have an initializer."
  | .object _ | .array _ =>
    if !(← context).isAmbient then note "Missing initializer in destructuring declaration"
  | _ => pure ()

/-- One variable. -/
def declarator (r : Rules) : Parse Expr := do
  let target ← r.target
  if ← hasTypes then
    if !(← afterBreak) then
      let _ ← eat "!"
    let _ ← eat "?"
  typeAnnotation r
  if ← eat "=" then return .assign .plain target (← r.assign)
  return target

/-- The variables behind the first word of a declaration. -/
def declarators (r : Rules) : Parse (List Expr) := do
  let first ← declarator r
  let more ← repeated do
    if ← eat "," then return some (← declarator r) else return none
  return first :: more

/-- The variables of a declaration that is a statement of its own. -/
def variableDeclaration (r : Rules) (kind : VariableKind) : Parse Stmt := do
  let ds ← declarators r
  for d in ds do checkInitializer kind d
  endStatement
  return .variables kind ds

/-! ## Imports -/

/-- One attribute of an import or export. -/
def attributeEntry : Parse (ModuleName × StringLiteral) := do
  let key ← moduleName
  expect ":"
  return (key, ← stringLiteral)

/-- The attributes of an import or export, if there are any. -/
def attributes? : Parse (Option Attributes) := do
  let word ← (do
    if ← atWord "with" then return some "with"
    if (← atWord "assert") && !(← afterBreak) then return some "assert"
    return none)
  match word with
  | none => return none
  | some word =>
    advance
    return some ⟨word, ← listBetween "\x7b" "," "\x7d" attributeEntry⟩

/-- The names of a specifier: it names a type or not, its first name, and its second one. -/
structure SpecifierNames where
  /-- The word `type` stands before the names. -/
  isType : Bool
  /-- The name before `as`, or the only one. -/
  first : ModuleName
  /-- The name behind `as`. -/
  second : Option ModuleName

/-- A word or string follows. -/
def atModuleName : Parse Bool := do
  match ← form with
  | .word _ _ | .string _ => pure true
  | _ => pure false

/-- The second name of a specifier behind `as`, if there is one. -/
def secondName? (second : Parse ModuleName) : Parse (Option ModuleName) := do
  if ← eatWord "as" then return some (← second) else return none

/-- The names behind `type as`, where each of the two words may be a name. -/
def namesBehindTypeAs (second : Parse ModuleName) : Parse SpecifierNames := do
  if ← eatWord "as" then
    if ← atModuleName then return ⟨true, .ident "as", some (← second)⟩
    return ⟨false, .ident "type", some (.ident "as")⟩
  if ← atModuleName then return ⟨false, .ident "type", some (← second)⟩
  return ⟨true, .ident "as", none⟩

/-- The names of a specifier; `second` reads the name behind `as`. In files with types the word
`type` may stand before the names, and may itself be one. -/
def specifierNames (second : Parse ModuleName) : Parse SpecifierNames := do
  let first ← moduleName
  if (← hasTypes) && first == .ident "type" then
    if ← eatWord "as" then return ← namesBehindTypeAs second
    if ← atModuleName then
      let name ← moduleName
      return ⟨true, name, ← secondName? second⟩
  return ⟨false, first, ← secondName? second⟩

/-- A specifier in the braces of an import. -/
def importSpecifier : Parse ImportSpecifier := do
  let names ← specifierNames (ModuleName.ident <$> bindingName)
  match names.second, names.first with
  | some second, first => return ⟨first, second.text, names.isType⟩
  | none, .ident name =>
    if isReserved name then fail (reservedMessage name)
    return ⟨.ident name, name, names.isType⟩
  | none, .string _ => failExpected "as"

/-- The names in the braces of an import. -/
def importSpecifiers : Parse (List ImportSpecifier) :=
  listBetween "\x7b" "," "\x7d" importSpecifier

/-- The name of a whole module. -/
def importedNamespace : Parse String := do
  expect "*"
  expectWord "as"
  bindingName

/-- What an import binds, up to the word before the specifier, with the default name read. -/
def importClause (default : Option String) : Parse ImportClause := do
  let clause : ImportClause := ⟨default, none, none⟩
  let clause ← (do
    if default.isSome && !(← eat ",") then return clause
    if ← atSymbol "*" then return { clause with whole? := some (← importedNamespace) }
    if ← atSymbol "\x7b" then return { clause with named? := some (← importSpecifiers) }
    if default.isSome then return ← unexpected
    return clause)
  expectWord "from"
  return clause

/-- An import that names what is imported by an expression of names, at its equals sign. -/
def importEquals (isType : Bool) (name : String) : Parse Stmt := do
  expect "="
  let isRequire ← (do
    if ← atWord "require" then
      lookahead do
        skip
        atSymbol "("
    else return false)
  let s ← (do
    if isRequire then
      advance
      return Stmt.importRequire isType name (← between "(" ")" stringLiteral)
    return Stmt.importEquals isType name (← qualifiedName))
  endStatement
  if !(← hasTypes) then note "'import ... =' can only be used in TypeScript files."
  return s

/-- The word `type` behind `import` says that only types are imported. -/
def atTypeImport : Parse Bool := do
  if !(← hasTypes) then return false
  if (← atSymbol "*") || (← atSymbol "\x7b") then return true
  if !(← atName) then return false
  if !(← atWord "from") then return true
  lookahead do
    skip
    return (← atWord "from") || (← atSymbol "=")

/-- The word `source` behind `import` says that the source of the module is imported. -/
def atSourceImport : Parse Bool := do
  if !(← atName) then return false
  if !(← atWord "from") then return true
  lookahead do
    skip
    return !Form.isString (← form)

/-- A declaration behind `import`. -/
def importDeclaration : Parse Stmt := do
  let first ← if ← atName then some <$> bindingName else pure none
  let nameHere : Parse (Option String) := do
    if ← atName then return some (← bindingName) else return none
  let (isType, phase, default) ← (do
    if first == some "type" && (← atTypeImport) then
      return (true, Phase.evaluation, ← nameHere)
    if first == some "defer" && (← atSymbol "*") then return (false, Phase.deferred, none)
    if first == some "source" && (← atSourceImport) then
      return (false, Phase.source, ← nameHere)
    return (false, Phase.evaluation, first))
  match default with
  | some name => if ← atSymbol "=" then return ← importEquals isType name
  | none => pure ()
  let clause ← (do
    if default.isNone && Form.isString (← form) then return none
    return some (← importClause default))
  let source ← stringLiteral
  let attributes ← attributes?
  endStatement
  return .importDecl phase isType clause source attributes

end ModuleLoader.Syntax.Parser
