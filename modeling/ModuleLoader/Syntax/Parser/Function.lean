import ModuleLoader.Syntax.Parser.Type

/-! # Functions

* **`decoratorsBefore`** reads the decorators before a class, member or parameter.
* **`parameters`** reads the parameters of a function, **`functionBody`** its body.
* **`functionRest`** reads what stands behind the name of a function. -/

namespace ModuleLoader.Syntax.Parser

/-! ## Decorators -/

/-- The decorators before something. -/
def decoratorsBefore (r : Rules) : Parse (List Expr) :=
  repeated do
    if ← atSymbol "@" then
      advance
      return some (← within (fun c => { c with isDecorator := true }) r.leftHand)
    return none

/-! ## Parameters -/

/-- The words that make a parameter a field. -/
def propertyWords : List String := accessWords ++ ["readonly", "override"]

/-- The words that may be taken for modifiers of a parameter. -/
def parameterWords : List String :=
  propertyWords ++ ["static", "abstract", "declare", "accessor", "async", "in", "out"]

/-- Notes what is wrong with the modifiers of a parameter. -/
def checkParameterModifiers (inConstructor : Bool) (words : List String) : Parse Unit := do
  if words.isEmpty then return
  if !(← hasTypes) then
    note "Parameter modifiers can only be used in TypeScript files."
  else
    for word in words do
      if !(inConstructor && propertyWords.contains word) then
        note ("'" ++ word ++ "' modifier cannot appear on a parameter.")

/-- One parameter. -/
def parameter (r : Rules) (inConstructor : Bool) : Parse Expr := do
  let decorators ← decoratorsBefore r
  let words ← modifiersBefore parameterWords
  checkParameterModifiers inConstructor words
  let decorated (e : Expr) : Expr := if decorators.isEmpty then e else .decorated decorators e
  if ← atSymbol "..." then
    return .spread (decorated (← restTarget r))
  let target ← r.target
  if ← hasTypes then
    let _ ← eat "?"
  typeAnnotation r
  let target ← withDefault r target
  let target := if words.any propertyWords.contains then .parameterProperty target else target
  return decorated target

/-- The parameters of a function with their parentheses. The type of `this` is none of them; some
functions cannot have it, with a message that says so. -/
def parameters (r : Rules) (inConstructor : Bool) (thisFault : Option String) :
    Parse (List Expr) :=
  between "(" ")" do
    if (← hasTypes) && (← atWord "this") then
      match thisFault with
      | some message => note message
      | none => pure ()
      advance
      typeAnnotation r
      if !(← atSymbol ")") then expect ","
    partsFrom ")" "A rest parameter must be last in a parameter list" isRestTarget
      (parameter r inConstructor) (← remaining) []

/-! ## Bodies -/

/-- A statement that is a string alone directs the evaluation of what follows. -/
def asDirective? : Stmt → Option Stmt
  | .expr (.string ⟨_, _, some (quote, written)⟩) => some (.directive quote written)
  | .commented comments (.expr (.string ⟨_, _, some (quote, written)⟩)) =>
    some (.commented comments (.directive quote written))
  | _ => none

/-- Takes the strings at the start of a body as directives. -/
def markDirectives : List Stmt → List Stmt
  | [] => []
  | s :: rest =>
    match asDirective? s with
    | some d => d :: markDirectives rest
    | none => s :: rest

/-- The statements up to a closing brace or the end of the text. -/
def statements (r : Rules) : Parse (List Stmt) :=
  repeated do
    if (← atSymbol "\x7d") || (← atEnd) then return none
    return some (← r.statement false)

/-- The statements between braces. -/
def block (r : Rules) : Parse (List Stmt) := between "\x7b" "\x7d" (statements r)

/-- The body of a function with its braces, and at its end the comments before the closing one.
Whether `in` is an operator there is decided around it. -/
def functionBody (r : Rules) : Parse (List Stmt) :=
  between "\x7b" "\x7d" do
    let body ← within (fun c => { c with allowsReturn := true, isDecorator := false })
      (statements r)
    let closing ← leadingComments
    return markDirectives body ++ (if closing.isEmpty then [] else [.remarks closing])

/-- The context of the body of a function. -/
def functionContext (kind : FunctionKind) (c : Context) : Context :=
  { c with allowsIn := true, allowsAwait := kind.isAsync, allowsYield := kind.isGenerator }

/-- The message about the type of `this` in a constructor. -/
def thisInConstructor : String := "A constructor cannot have a \x60this\x60 parameter."

/-- What stands behind the name of a function: parameters and body. Where types may be written, a
function may have no body, and where things are only declared it must not have one. -/
def functionRest (r : Rules) (kind : FunctionKind) (inConstructor needsBody : Bool) :
    Parse (List Expr × Option (List Stmt)) :=
  within (functionContext kind) do
    if inConstructor && (← hasTypes) && (← atSymbol "<") then
      note "Type parameters cannot appear on a constructor declaration"
    typeParameters r
    let params ← parameters r inConstructor (if inConstructor then some thisInConstructor else none)
    returnType r
    if ← atSymbol "\x7b" then
      if (← context).isAmbient then
        note "An implementation cannot be declared in ambient contexts."
      return (params, some (← functionBody r))
    if needsBody || !(← hasTypes) then expect "\x7b"
    return (params, none)

/-- The name of a function, if it has one. A declaration needs one. -/
def functionName (isExpression isRequired : Bool) (kind : FunctionKind) :
    Parse (Option String) := do
  match ← form with
  | .word text _ =>
    if isNameWord text then
      let c ← context
      checkName text (if isExpression then functionContext kind c else c)
      skip
      return some text
    if isRequired then
      if isReserved text then note (reservedMessage text)
    return none
  | f =>
    if isRequired && f.isSymbol "(" then note "Expected function name"
    return none

/-- An `async` before a function follows. -/
def atAsyncFunction : Parse Bool := do
  if ← atWord "async" then
    lookahead do
      skip
      return !(← afterBreak) && (← atWord "function")
  else pure false

/-- The words before a function, up to its name. -/
def functionHead : Parse FunctionKind := do
  let isAsync ← eatWord "async"
  expectWord "function"
  let isGenerator ← eat "*"
  return ⟨isAsync, isGenerator⟩

/-- A function that is an expression. -/
def functionExpression (r : Rules) : Parse Expr := do
  let kind ← functionHead
  let name ← functionName true false kind
  let (params, body) ← functionRest r kind false false
  match body with
  | some body => return .function kind name params body
  | none =>
    endStatement
    return .function kind name params []

/-- A function that is a declaration. -/
def functionDeclaration (r : Rules) (isRequired : Bool) : Parse Stmt := do
  let kind ← functionHead
  let name ← functionName false isRequired kind
  let (params, body) ← functionRest r kind false false
  match body with
  | some body => return .function kind name params body
  | none =>
    endStatement
    return .signature name params

end ModuleLoader.Syntax.Parser
