import ModuleLoader.Syntax.Parser.Expression
import ModuleLoader.Syntax.Parser.Declaration

/-! # Statements

* **`statementOf`** reads a statement with the comments before it. -/

namespace ModuleLoader.Syntax.Parser

/-- The condition of a statement in its parentheses. -/
def condition (r : Rules) : Parse Expr := between "(" ")" r.expression

/-- A statement that stands alone behind another. -/
def body (r : Rules) : Parse Stmt := r.statement true

/-! ## Branches and loops -/

/-- A choice behind its first word. -/
def ifStatement (r : Rules) : Parse Stmt := do
  let test ← condition r
  let whenTrue ← body r
  if ← eatWord "else" then return .ifElse test whenTrue (← body r)
  return .ifThen test whenTrue

/-- A loop that tests behind its body. -/
def doStatement (r : Rules) : Parse Stmt := do
  let s ← inside (body r)
  expectWord "while"
  let test ← condition r
  let _ ← eat ";"
  return .doWhile s test

/-- A loop with three parts behind the first one. -/
def forRest (r : Rules) (head : Stmt) (isAwait : Bool) : Parse Stmt := do
  expect ";"
  match head with
  | .variables kind ds => for d in ds do checkInitializer kind d
  | _ => pure ()
  let test ← if (← atSymbol ";") || (← atSymbol ")") then pure .absent else r.expressionIn
  expect ";"
  let step ← if ← atSymbol ")" then pure .absent else r.expressionIn
  expect ")"
  if isAwait then note "await can only be used in conjunction with \x60for...of\x60 statements"
  return .forLoop head test step (← body r)

/-- Notes that a loop over the keys of an object cannot start with what is given up at its end. -/
def checkForIn : Stmt → Parse Unit
  | .variables .using _ =>
    note "The left-hand side of a for...in statement cannot be an using declaration."
  | .variables .awaitUsing _ =>
    note "The left-hand side of a for...in statement cannot be an await using declaration."
  | _ => pure ()

/-- A loop behind what it starts with, which is a declaration or a target if the loop goes over an
object. -/
def forHeadRest (r : Rules) (head : Stmt) (isAwait : Bool) : Parse Stmt := do
  if ← eatWord "in" then
    checkForIn head
    let object ← r.expression
    expect ")"
    if isAwait then
      note "await can only be used in conjunction with \x60for...of\x60 statements"
    return .forIn head object (← body r)
  if ← eatWord "of" then
    let items ← r.assign
    expect ")"
    return .forOf isAwait head items (← body r)
  forRest r head isAwait

/-- The variables that a loop starts with, behind the word of their kind. -/
def forVariables (r : Rules) (kind : VariableKind) : Parse Stmt := do
  let ds ← within (fun c => { c with allowsIn := false }) (declarators r)
  return .variables kind ds

/-- A declaration with `let` follows in the head of a loop. -/
def atForLet : Parse Bool := do
  if ← atWord "let" then
    lookahead do
      skip
      match ← form with
      | .word word _ => return word != "in"
      | .symbol text => return text == "[" || text == "\x7b"
      | _ => return false
  else return false

/-- A `using` before the name of what it declares follows. -/
def atUsing : Parse Bool := do
  if ← atWord "using" then
    lookahead do
      skip
      return !(← afterBreak) && (← atName) && !(← atWord "of") && !(← atWord "in")
  else return false

/-- An `await using` before the name of what it declares follows. -/
def atAwaitUsing : Parse Bool := do
  if ← atWord "await" then
    lookahead do
      skip
      if (← afterBreak) || !(← atWord "using") then return false
      skip
      return !(← afterBreak) && (← atName)
  else return false

/-- A loop behind its first word. -/
def forStatement (r : Rules) : Parse Stmt := do
  let isAwait ← (do
    if ← atWord "await" then
      if !(← context).allowsAwait then
        note "\x60await\x60 is only allowed within async functions and at the top levels of modules"
      advance
      return true
    return false)
  expect "("
  if ← atSymbol ";" then return ← forRest r .empty isAwait
  let kind? ← (do
    if ← atWord "var" then return some VariableKind.var
    if ← atWord "const" then return some VariableKind.const
    if ← atForLet then return some VariableKind.letVar
    if ← atUsing then return some VariableKind.using
    if ← atAwaitUsing then
      advance
      return some VariableKind.awaitUsing
    return none)
  if let some kind := kind? then
    advance
    return ← forHeadRest r (← forVariables r kind) isAwait
  let isAsyncName ← atWord "async"
  let e ← within (fun c => { c with allowsIn := false }) r.expression
  if (← atWord "in") || (← atWord "of") then
    if isAsyncName && !isAwait && (← atWord "of") then
      match e with
      | .ident "async" =>
        note "The left-hand side of a \x60for...of\x60 statement may not be \x60async\x60"
      | _ => pure ()
    let target ← assignTarget e
    return ← forHeadRest r (.expr target) isAwait
  forRest r (.expr e) isAwait

/-! ## Jumps -/

/-- The label of a jump, if there is one, and its end. -/
def jumpLabel : Parse (Option String) := do
  let label ← if ← canEnd then pure none else some <$> identifier
  endStatement
  return label

/-- A `return` behind its word. -/
def returnStatement (r : Rules) : Parse Stmt := do
  let value ← (do
    if (← eat ";") || (← canEnd) then return Expr.absent
    let e ← r.expressionIn
    endStatement
    return e)
  if !(← context).allowsReturn then
    note "A 'return' statement can only be used within a function body."
  return .returnValue value

/-- A `throw` behind its word. -/
def throwStatement (r : Rules) : Parse Stmt := do
  if ← afterBreak then note "Illegal newline after throw"
  let e ← r.expression
  endStatement
  return .throwValue e

/-- What a `try` does on an exception: what it binds and its statements. -/
def handler (r : Rules) : Parse (Expr × List Stmt) := do
  let target ← (do
    if ← atSymbol "(" then
      return ← between "(" ")" do
        let target ← r.target
        typeAnnotation r
        return target
    return Expr.absent)
  return (target, ← block r)

/-- A `try` behind its word. -/
def tryStatement (r : Rules) : Parse Stmt := do
  let s ← block r
  let caught ← if ← eatWord "catch" then some <$> handler r else pure none
  let finalizer ← if ← eatWord "finally" then some <$> block r else pure none
  match caught, finalizer with
  | some (target, h), some f => return .tryCatchFinally s target h f
  | some (target, h), none => return .tryCatch s target h
  | none, some f => return .tryFinally s f
  | none, none =>
    note "Missing catch or finally clause"
    return .tryFinally s []

/-- One case of a `switch`. -/
def switchCase (r : Rules) : Parse Case := do
  let test ← (do
    if ← eatWord "default" then return Expr.absent
    if ← eatWord "case" then return ← inside r.expression
    unexpected)
  expect ":"
  let s ← repeated do
    if (← atAnyWord ["case", "default"]) || (← atSymbol "\x7d") || (← atEnd) then return none
    return some (← r.statement false)
  return .mk test s

/-- A `switch` behind its word. -/
def switchStatement (r : Rules) : Parse Stmt := do
  let value ← condition r
  let cases ← between "\x7b" "\x7d" (repeated do
    if (← atSymbol "\x7d") || (← atEnd) then return none
    return some (← switchCase r))
  return .switch value cases

/-! ## Statements that start with an expression -/

/-- An expression, or a label before a statement. -/
def expressionStatement (r : Rules) : Parse Stmt := do
  let e ← r.expression
  match e with
  | .ident name =>
    if ← eat ":" then return .labeled name (← body r)
  | _ => pure ()
  endStatement
  return .expr e

/-- The word `let` is a variable that an operator, property or call follows. -/
def letIsOperand : Parse Bool :=
  lookahead do
    skip
    match ← form with
    | .symbol text =>
      return (BinaryOp.ofText? text).isSome || (AssignOp.ofText? text).isSome || text == "." ||
        text == "("
    | .word word _ => return word == "in" || word == "instanceof"
    | _ => return false

/-- The word `let` is a variable and a statement by itself. -/
def letIsAlone (isAlone : Bool) : Parse Bool :=
  lookahead do
    skip
    return (← atSymbol ";") || isAlone && !(← atSymbol "[")

/-- Notes a declaration where a statement stands alone. -/
def checkAlone (isAlone : Bool) (message : String) : Parse Unit :=
  if isAlone then note message else pure ()

/-- The message about variables of a block where a statement stands alone. -/
def lexicalAlone : String := "Lexical declaration cannot appear in a single-statement context"

/-- Variables behind the word of their kind. -/
def lexicalDeclaration (r : Rules) (isAlone : Bool) (kind : VariableKind) : Parse Stmt := do
  let s ← variableDeclaration r kind
  checkAlone isAlone lexicalAlone
  return s

/-- A function where a statement may stand alone. -/
def functionStatement (r : Rules) (isAlone : Bool) : Parse Stmt := do
  let s ← functionDeclaration r true
  match s with
  | .function kind _ _ _ =>
    if kind.isAsync then
      checkAlone isAlone
        "Async functions can only be declared at the top level or inside a block"
    else if kind.isGenerator then
      checkAlone isAlone "Generators can only be declared at the top level or inside a block"
  | _ => pure ()
  return s

/-- A class with decorators, which may be exported. -/
def decoratedStatement (r : Rules) : Parse Stmt := do
  let decorators ← decoratorsBefore r
  if ← eatWord "export" then return ← exportDeclaration r decorators
  if (← hasTypes) && (← atWord "abstract") then advance
  if (← hasTypes) && (← atWord "declare") then return ← declaration r decorators
  if ← atWord "class" then classDeclaration r decorators else unexpected

/-- A declaration follows `import`, and no expression. -/
def atImportDeclaration : Parse Bool :=
  lookahead do
    skip
    return !((← atSymbol "(") || (← atSymbol "."))

/-! ## Any statement -/

/-- A statement that starts with a word. -/
def wordStatement (r : Rules) (isAlone : Bool) (word : String) : Parse Stmt := do
  if word == "if" then
    advance
    ifStatement r
  else if word == "do" then
    advance
    doStatement r
  else if word == "while" then
    advance
    let test ← condition r
    return .whileLoop test (← body r)
  else if word == "for" then
    advance
    forStatement r
  else if word == "continue" then
    advance
    return .continueTo (← jumpLabel)
  else if word == "break" then
    advance
    return .breakTo (← jumpLabel)
  else if word == "return" then
    advance
    returnStatement r
  else if word == "with" then
    advance
    let object ← condition r
    return .withObject object (← body r)
  else if word == "switch" then
    advance
    switchStatement r
  else if word == "throw" then
    advance
    throwStatement r
  else if word == "try" then
    advance
    tryStatement r
  else if word == "debugger" then
    advance
    endStatement
    return .debugger
  else if word == "class" then
    let s ← classDeclaration r []
    checkAlone isAlone "Invalid class declaration"
    return s
  else if word == "export" then
    advance
    exportDeclaration r []
  else if word == "var" then
    advance
    variableDeclaration r .var
  else if word == "function" then functionStatement r isAlone
  else if word == "let" then
    if ← letIsOperand then expressionStatement r
    else if ← letIsAlone isAlone then
      advance
      endStatement
      return .expr (.ident word)
    else
      advance
      lexicalDeclaration r isAlone .letVar
  else if word == "async" then
    if ← atAsyncFunction then functionStatement r isAlone else expressionStatement r
  else if word == "import" then
    if ← atImportDeclaration then
      advance
      importDeclaration
    else expressionStatement r
  else if word == "const" then
    if ← atConstEnum then declaration r []
    else
      advance
      lexicalDeclaration r isAlone .const
  else if ← atUsing then
    advance
    lexicalDeclaration r isAlone .using
  else if ← atAwaitUsing then
    advance
    advance
    lexicalDeclaration r isAlone .awaitUsing
  else if ← startsTypeDeclaration then declaration r []
  else expressionStatement r

/-- A statement. -/
def plainStatement (r : Rules) (isAlone : Bool) : Parse Stmt := do
  match ← form with
  | .symbol text =>
    if text == "\x7b" then return .block (← block r)
    else if text == ";" then
      advance
      return .empty
    else if text == "@" then decoratedStatement r
    else expressionStatement r
  | .word word isEscaped =>
    if isEscaped && word == "let" then expressionStatement r else wordStatement r isAlone word
  | _ => expressionStatement r

/-- A statement with the comments before it. -/
def statementOf (r : Rules) (isAlone : Bool) : Parse Stmt := do
  let comments ← leadingComments
  let isEffectFree := (← current).isEffectFree
  let s ← plainStatement r isAlone
  let s := if isEffectFree then s.markEffectFree else s
  return if comments.isEmpty then s else .commented comments s

end ModuleLoader.Syntax.Parser
