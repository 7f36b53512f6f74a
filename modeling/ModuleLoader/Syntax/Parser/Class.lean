import ModuleLoader.Syntax.Parser.Function

/-! # Classes

* **`classRest`** reads a class behind its first word.
* **`classMember`** reads what stands in its braces. -/

namespace ModuleLoader.Syntax.Parser

/-! ## Before a member -/

/-- A block of static initialisation follows. -/
def atStaticBlock : Parse Bool := do
  if ← atWord "static" then
    lookahead do
      skip
      atSymbol "\x7b"
  else pure false

/-- Notes the modifiers that only types know where there are none, and those that no member can
have. -/
def checkMemberModifiers (words : List String) : Parse Unit := do
  for word in words do
    if typeOnlyModifiers.contains word && !(← hasTypes) then
      note ("'" ++ word ++ "' modifier can only be used in TypeScript files.")
    if foreignModifiers.contains word then note (misplacedModifier word)

/-- Notes that what is no method cannot be one that returns a promise. -/
def checkNotAsync (words : List String) : Parse Unit := do
  if words.contains "async" then note (misplacedModifier "async")

/-- A `get` or `set` before the name of a member follows. -/
def accessorKind? : Parse (Option MethodKind) := do
  if !(← atAnyWord ["get", "set"]) then return none
  let isAccessor ← lookahead do
    skip
    canFollowModifier
  if !isAccessor then return none
  let word ← identifierName
  return some (if word == "get" then .getter else .setter)

/-! ## Members -/

/-- The name of a member. -/
def memberKey (r : Rules) : Parse Expr := do
  match ← form with
  | .privateName name =>
    skip
    if name == "constructor" then note "Classes can't have an element named '#constructor'"
    pure (.privateName name)
  | _ => propertyKey r

/-- The name that a key states. -/
def statedName? : Expr → Option String
  | .ident name => some name
  | .string literal => some literal.value
  | _ => none

/-- Notes what is wrong with the parameters of a getter or setter. -/
def checkAccessor (kind : MethodKind) (params : List Expr) : Parse Unit := do
  match kind with
  | .getter =>
    if !params.isEmpty then note "A 'get' accessor must not have any formal parameters."
  | .setter =>
    if params.any isRestTarget then note "A 'set' accessor cannot have rest parameter."
    else if params.length ≠ 1 then
      note "A 'set' accessor must have exactly one formal parameter."
  | .method | .constructor => pure ()

/-- The message about a static member with the name of what instances inherit from. -/
def staticPrototype : String := "Classes may not have a static property named prototype"

/-- Notes what is wrong with the name of a method. -/
def checkMethodName (isStatic : Bool) (kind : MethodKind) (key : Expr) (function : FunctionKind) :
    Parse Unit := do
  match statedName? key with
  | some "prototype" => if isStatic then note staticPrototype
  | some "constructor" =>
    if !isStatic then
      if kind == .getter || kind == .setter then note "Constructor can't have get/set modifier"
      if function.isAsync then note "Constructor can't be an async method"
      if function.isGenerator then note "Constructor can't be a generator"
  | _ => pure ()

/-- Notes what is wrong with the name of a field. -/
def checkFieldName (isStatic : Bool) (key : Expr) : Parse Unit := do
  match statedName? key with
  | some "prototype" => if isStatic then note staticPrototype
  | some "constructor" => note "Classes can't have a field named 'constructor'"
  | _ => pure ()

/-- A method behind its name. -/
def methodRest (r : Rules) (comments : List Comment) (decorators : List Expr)
    (modifiers : Modifiers) (kind : MethodKind) (key : Expr) (function : FunctionKind) :
    Parse Member := do
  let (params, body) ← functionRest r function (kind == .constructor) false
  checkAccessor kind params
  checkMethodName modifiers.isStatic kind key function
  match body with
  | some body => return .method comments decorators modifiers kind key function params body
  | none =>
    endStatement
    return .signature key params

/-- The name of a constructor, as a word or a string, if one follows before a parenthesis. -/
def constructorKey? : Parse (Option Expr) := do
  let key := match ← form with
    | .word "constructor" _ => some (.ident "constructor")
    | .string literal => if literal.value == "constructor" then some (.string literal) else none
    | _ => none
  let isConstructor ← lookahead do
    skip
    return (← atSymbol "(") || (← atSymbol "<")
  return if isConstructor then key else none

/-- A field behind its name. -/
def fieldRest (r : Rules) (comments : List Comment) (decorators : List Expr)
    (modifiers : Modifiers) (key : Expr) : Parse Member := do
  if ← hasTypes then
    let isOptional ← eat "?"
    if !(← afterBreak) && (← eat "!") then
      if isOptional then note "A property cannot be both optional and definite."
  typeAnnotation r
  let value ← if ← eat "=" then
      within (fun c => { c with allowsIn := true, allowsYield := false, allowsAwait := false })
        r.assign
    else pure .absent
  endStatement
  checkFieldName modifiers.isStatic key
  return .field comments decorators modifiers key value

/-- One member of a class; an index signature is none. -/
def classMember (r : Rules) : Parse (Option Member) := do
  let comments ← leadingComments
  let decorators ← decoratorsBefore r
  let words ← memberModifiers true
  checkMemberModifiers words
  let modifiers : Modifiers :=
    ⟨words.contains "static", words.contains "declare" || words.contains "abstract",
      words.contains "accessor"⟩
  if ← atStaticBlock then
    advance
    let body ← within
      (fun c => { c with allowsReturn := false, allowsAwait := true, allowsYield := false })
      (block r)
    return some (.staticBlock comments body)
  if let some kind ← accessorKind? then
    let key ← memberKey r
    let m ← methodRest r comments decorators modifiers kind key ⟨false, false⟩
    checkNotAsync words
    return some m
  if !modifiers.isStatic then
    if let some key ← constructorKey? then
      skip
      return some (← methodRest r comments decorators modifiers .constructor key
        ⟨words.contains "async", false⟩)
  if (← hasTypes) && (← startsIndexSignature) then
    indexSignature r
    checkIndexModifiers words
    endTypeMember
    return none
  let isGenerator ← eat "*"
  let key ← memberKey r
  let isOptional ← (do if ← hasTypes then return ← atSymbol "?" else return false)
  if isOptional then
    let isMethod ← lookahead do
      skip
      return (← atSymbol "(") || (← atSymbol "<")
    if isMethod then skip
  let function : FunctionKind := ⟨words.contains "async", isGenerator⟩
  if isGenerator || (← atSymbol "(") || ((← hasTypes) && (← atSymbol "<")) then
    return some (← methodRest r comments decorators modifiers .method key function)
  let m ← fieldRest r comments decorators modifiers key
  checkNotAsync words
  return some m

/-- The members of a class with their braces; semicolons between them are passed. -/
def classBody (r : Rules) : Parse (List Member) :=
  between "\x7b" "\x7d" do
    let members ← repeated do
      let _ ← repeated do
        if ← eat ";" then return some () else return none
      if (← atSymbol "\x7d") || (← atEnd) then return none
      return some (← classMember r)
    return members.filterMap id

/-! ## Classes -/

/-- A class without its decorators. -/
structure ClassParts where
  /-- Its name. -/
  name : Option String
  /-- What it extends. -/
  base : Expr
  /-- Its members. -/
  members : List Member

/-- What a class comes from. -/
structure Heritage where
  /-- The classes that it extends, of which there should be one. -/
  bases : List Expr := []
  /-- It says what it implements. -/
  isImplementing : Bool := false

/-- A class that another one extends. -/
def baseClass (r : Rules) : Parse Expr := do
  let base ← inside r.leftHand
  if ← hasTypes then optionalTypeArguments r
  match base with
  | .typed .arguments e => return e
  | e => return e

/-- One step through what a class comes from. -/
def heritageStep (r : Rules) (h : Heritage) : Parse (Option Heritage) := do
  if ← eatWord "extends" then
    if !h.bases.isEmpty then note "'extends' clause already seen."
    else if h.isImplementing then note "'extends' clause must precede 'implements' clause."
    let base ← baseClass r
    let more ← repeated do
      if ← eat "," then
        let other ← baseClass r
        note "Classes can only extend a single class."
        return some other
      return none
    return some { h with bases := h.bases ++ base :: more }
  if (← hasTypes) && (← atWord "implements") then
    if h.isImplementing then note "'implements' clause already seen."
    advance
    namedTypes r
    return some { h with isImplementing := true }
  return none

/-- The class that a class extends, if it does. -/
def heritage (r : Rules) : Parse Expr := do
  let h ← iterated (heritageStep r) {}
  return h.bases.head?.getD .absent

/-- A class behind its first word. -/
def classRest (r : Rules) : Parse ClassParts := do
  let isNamed ← (do
    if !(← atName) then return false
    return !((← hasTypes) && (← atWord "implements")))
  let name ← if isNamed then some <$> bindingName else pure none
  typeParameters r
  let base ← heritage r
  let members ← classBody r
  return ⟨name, base, members⟩

/-- A class that is an expression. -/
def classExpression (r : Rules) (decorators : List Expr) : Parse Expr := do
  expectWord "class"
  let c ← classRest r
  return .classExpr decorators c.name c.base c.members

/-- A class that is a declaration. -/
def classDeclaration (r : Rules) (decorators : List Expr) : Parse Stmt := do
  expectWord "class"
  let c ← classRest r
  return .classDecl decorators c.name c.base c.members

end ModuleLoader.Syntax.Parser
