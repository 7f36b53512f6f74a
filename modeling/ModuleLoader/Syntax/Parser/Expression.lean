import ModuleLoader.Syntax.Parser.Class
import ModuleLoader.Syntax.Parser.Jsx

/-! # Expressions

From what stands alone up to what commas join. An arrow function is told from parentheses by
looking ahead, and where that does not decide, by trying.

* **`primary`** reads what no operator joins, **`memberRest`** and **`callRest`** what follows it.
* **`unaryOf`**, **`binaryOf`** read operands and operators.
* **`assignmentOf`** reads an expression without commas, **`expressionOf`** any. -/

namespace ModuleLoader.Syntax.Parser

/-! ## Marks on calls -/

/-- Marks the call that an expression starts with as one without effect. -/
def markPure : Expr → Expr
  | .call callee args closing opt _ => .call callee args closing opt true
  | .new callee args closing _ => .new callee args closing true
  | .binary op left right => .binary op (markPure left) right
  | .conditional test a b => .conditional (markPure test) a b
  | .chain (.call callee args closing opt _) => .chain (.call callee args closing opt true)
  | .paren e => .paren (markPure e)
  | e => e

/-- Marks the call if a comment says so. -/
def markIf (isPure : Bool) (e : Expr) : Expr := if isPure then markPure e else e

/-- Marks a function as one without effect if a comment says so. -/
def markFunctionIf (isEffectFree : Bool) (e : Expr) : Expr :=
  if isEffectFree then e.markEffectFree else e

/-! ## Literals with parts -/

/-- The text of a template with its line breaks made the same. -/
def unifyBreaks : List Char → List Char
  | '\r' :: '\n' :: rest => '\n' :: unifyBreaks rest
  | '\r' :: rest => '\n' :: unifyBreaks rest
  | c :: rest => c :: unifyBreaks rest
  | [] => []

/-- The texts and parts of a template, last ones first; the number bounds how many there are. -/
def templateFrom (r : Rules) (isTagged : Bool) :
    Nat → List String → List Expr → Parse (List String × List Expr)
  | 0, _, _ => unexpected
  | fuel + 1, texts, parts => do
    match ← form with
    | .template written isEnd isSound =>
      if !isSound && !isTagged then
        note "Bad escape sequence in untagged template literal"
      let texts := String.ofList (unifyBreaks written.toList) :: texts
      skip
      if isEnd then return (texts.reverse, parts.reverse)
      let part ← inside r.expressionIn
      continueTemplate
      templateFrom r isTagged fuel texts (part :: parts)
    | _ => failExpected "\x7d"

/-- A template. -/
def templateLiteral (r : Rules) (isTagged : Bool) : Parse (List String × List Expr) := do
  templateFrom r isTagged (← remaining) [] []

/-- A regular expression, at its first slash. -/
def regexLiteral : Parse Expr := do
  modify fun s =>
    let p := Lexer.readRegex (s.token.start.drop 1)
    { s with
      token := { s.token with form := p.form }
      rest := p.rest
      tokenFaults := p.faults.reverse ++ s.tokenFaults }
  if !(← get).tokenFaults.isEmpty then return ← unexpected
  match ← form with
  | .regex pattern flags =>
    skip
    return .regex pattern flags
  | _ => unexpected

/-- An element of an array, or a hole. -/
def arrayElement (r : Rules) : Parse Expr := do
  if ← atSymbol "," then return .absent
  if ← eat "..." then return .spread (← r.assign)
  r.assign

/-- The elements of an array, the last of which may spread what stands before a comma. -/
def markLastElement : List Expr → List Expr
  | [] => []
  | [.spread e] => [.spread (.beforeComma e)]
  | e :: rest => e :: markLastElement rest

/-- An array. -/
def arrayLiteral (r : Rules) : Parse Expr := do
  let (elements, hasComma) ← within (fun c => { c with allowsIn := true })
    (between "[" "]" (listAndComma "," "]" (arrayElement r)))
  return .array (if hasComma then markLastElement elements else elements)

/-- A method of an object behind its name. -/
def objectMethod (r : Rules) (kind : MethodKind) (key : Expr) (function : FunctionKind) :
    Parse Property := do
  let (params, body) ← functionRest r function false true
  checkAccessor kind params
  return .method kind key function params (body.getD [])

/-- One property of an object. -/
def objectProperty (r : Rules) : Parse Property := do
  if ← eat "..." then return .spread (← r.assign)
  let words ← memberModifiers false
  if let some kind ← accessorKind? then
    let key ← propertyKey r
    let accessor ← objectMethod r kind key ⟨false, false⟩
    checkMisplaced [] words
    return accessor
  let isGenerator ← eat "*"
  let c ← context
  let isReference := match ← form with
    | .word text _ =>
      !isReserved text && !(c.allowsYield && text == "yield") || text == "await" && !c.allowsAwait
    | _ => false
  let key ← propertyKey r
  if isGenerator || (← atSymbol "(") || (← atSymbol "<") then
    checkMisplaced ["async"] words
    return ← objectMethod r .method key ⟨words.contains "async", isGenerator⟩
  checkMisplaced [] words
  match key with
  | .ident name =>
    if isReference && !(← atSymbol ":") then
      if ← eat "=" then
        let value ← r.assignIn
        modify fun s => { s with covers := s.covers + 1 }
        return .value key (.assign .plain (.ident name) value) true
      return .value key (.ident name) true
  | _ => pure ()
  expect ":"
  return .value key (← r.assign) false

/-- The properties of an object, the last of which may spread what stands before a comma. -/
def markLastProperty : List Property → List Property
  | [] => []
  | [.spread e] => [.spread (.beforeComma e)]
  | p :: rest => p :: markLastProperty rest

/-- An object. -/
def objectLiteral (r : Rules) : Parse Expr := do
  let comments ← leadingComments
  let (properties, hasComma) ← within (fun c => { c with allowsIn := true })
    (between "\x7b" "\x7d" (listAndComma "," "\x7d" (objectProperty r)))
  return withRemarks comments
    (.object (if hasComma then markLastProperty properties else properties))

/-- What stands in parentheses. -/
def parenthesized (r : Rules) : Parse Expr := do
  expect "("
  let (parts, hasComma) ← inside
    (within (fun c => { c with allowsIn := true, isDecorator := false })
      (listAndComma "," ")" r.assign))
  if hasComma then note "Parenthesized expressions may not have a trailing comma."
  expect ")"
  match parts with
  | [] => fail "Empty parenthesized expression"
  | [e] => return .paren e
  | es => return .paren (.sequence es)

/-! ## What stands alone -/

/-- What no operator joins, and is neither `super` nor `import`. -/
def primary (r : Rules) : Parse Expr := do
  match ← form with
  | .number _ value =>
    skip
    return .number value
  | .bigint _ value =>
    skip
    return .bigint value
  | .string literal =>
    skip
    return .string literal
  | .template _ _ _ =>
    let (texts, parts) ← templateLiteral r false
    return .template texts parts
  | .symbol text =>
    if text == "(" then parenthesized r
    else if text == "[" then arrayLiteral r
    else if text == "\x7b" then objectLiteral r
    else if text == "/" || text == "/=" then regexLiteral
    else if text == "@" then
      let decorators ← decoratorsBefore r
      classExpression r decorators
    else unexpected
  | .word text _ =>
    if text == "this" then
      advance
      return .this
    else if text == "null" then
      advance
      return .null
    else if text == "true" || text == "false" then
      advance
      return .bool (text == "true")
    else if text == "function" then functionExpression r
    else if text == "class" then classExpression r []
    else if ← atAsyncFunction then functionExpression r
    else return .ident (← identifier)
  | _ => unexpected

/-- The property of a member expression behind its point. -/
def property (object : Expr) (isOptional : Bool) : Parse Expr := do
  match ← form with
  | .privateName name =>
    skip
    return .privateMember object name isOptional
  | _ => return .member object (← identifierName) isOptional

/-- The key of a member expression, in its brackets. -/
def indexKey (r : Rules) : Parse Expr := between "[" "]" r.expressionIn

/-- A template behind its tag. -/
def taggedTemplate (r : Rules) (tag : Expr) (inChain : Bool) : Parse Expr := do
  if inChain then note "Tagged template expressions are not permitted in an optional chain"
  let (texts, parts) ← templateLiteral r true
  let tag := match tag with
    | .typed .arguments e => e
    | e => e
  return .taggedTemplate tag texts parts

/-- The words that are operators between two operands. -/
def binaryWords : List String := ["in", "instanceof", "as", "satisfies"]

/-- Something that can stand behind the type arguments of an expression follows. -/
def endsTypeArguments : Parse Bool := do
  let f ← form
  if f.isSymbol "(" || Form.isTemplate f then return true
  if f.isSymbol "<" || f.isSymbol ">" || f.isSymbol "+" || f.isSymbol "-" then return false
  if ← afterBreak then return true
  match f with
  | .word text _ => return binaryWords.contains text
  | .symbol text =>
    let continuing := ["(", "[", "\x7b", "+", "-", "~", "!", "++", "--", "/", "/=", "@", "..."]
    return !continuing.contains text
  | .eof => return true
  | _ => return false

/-- Type arguments of an expression, if the text can be read so. -/
def typeArgumentsOfExpression (r : Rules) : Parse Bool := do
  if !(← hasTypes) then return false
  let f ← form
  if !(f.isSymbol "<" || f.isSymbol "<<") then return false
  let read ← attempt? do
    typeArguments r
    if ← endsTypeArguments then return some () else return none
  return read.isSome

/-- An operand with the flag that it is in an optional chain. -/
structure Chained where
  /-- The operand. -/
  expr : Expr
  /-- It is in an optional chain. -/
  inChain : Bool

/-- An optional access to a property follows. -/
def atOptionalProperty : Parse Bool := do
  if ← atSymbol "?." then
    lookahead do
      skip
      let f ← form
      return Form.isAnyWord f || Form.isPrivateName f || f.isSymbol "[" || Form.isTemplate f
  else pure false

/-- One step from an operand to a property of it. -/
def memberStep (r : Rules) (c : Chained) : Parse (Option Chained) := do
  if ← atOptionalProperty then
    advance
    if ← atSymbol "[" then return some ⟨.index c.expr (← indexKey r) true, true⟩
    if Form.isTemplate (← form) then return some ⟨← taggedTemplate r c.expr true, true⟩
    return some ⟨← property c.expr true, true⟩
  if ← eat "." then return some ⟨← property c.expr false, c.inChain⟩
  if !(← context).isDecorator && (← atSymbol "[") then
    return some ⟨.index c.expr (← indexKey r) false, c.inChain⟩
  if Form.isTemplate (← form) then
    return some ⟨← taggedTemplate r c.expr c.inChain, c.inChain⟩
  if ← hasTypes then
    if (← atSymbol "!") && !(← afterBreak) then
      advance
      return some ⟨.typed .nonNull c.expr, c.inChain⟩
    if ← typeArgumentsOfExpression r then
      return some ⟨.typed .arguments c.expr, c.inChain⟩
  return none

/-- The properties behind an operand. -/
def memberRest (r : Rules) (c : Chained) : Parse Chained := iterated (memberStep r) c

/-! ## Calls -/

/-- One argument of a call, with the comments before it. -/
def argument (r : Rules) : Parse Expr := do
  let comments ← leadingComments
  if ← eat "..." then return withComments comments (.spread (← r.assign))
  return (withComments comments (← r.assign)).asArgument

/-- The arguments of a call in their parentheses, with the comments before the closing one. -/
def arguments (r : Rules) : Parse (List Expr × List Comment) := do
  expect "("
  let args ← inside (within (fun c => { c with allowsIn := true, isDecorator := false })
    (listUntil "," ")" (argument r)))
  let closing ← leadingComments
  expect ")"
  return (args, closing)

/-- An expression without the type arguments behind it. -/
def withoutTypeArguments : Expr → Expr
  | .typed .arguments e => e
  | e => e

/-- A call of an operand, at the parenthesis. -/
def callOf (r : Rules) (callee : Expr) (isOptional : Bool) : Parse Expr := do
  let (args, closing) ← arguments r
  return .call (withoutTypeArguments callee) args closing isOptional false

/-- One call behind an operand, after the properties before it. -/
def callStep (r : Rules) (c : Chained) : Parse (Option Chained) := do
  if ← eat "?." then
    let hasArguments ← typeArgumentsOfExpression r
    if !hasArguments && Form.isTemplate (← form) then
      let e ← taggedTemplate r c.expr true
      return some (← memberRest r ⟨e, true⟩)
    if hasArguments || (← atSymbol "(") then
      let e ← callOf r c.expr true
      return some (← memberRest r ⟨e, true⟩)
    return ← unexpected
  if ← atSymbol "(" then
    let e ← callOf r c.expr false
    return some (← memberRest r ⟨e, c.inChain⟩)
  return none

/-- The calls and properties behind an operand. -/
def callRest (r : Rules) (c : Chained) : Parse Chained := do
  iterated (callStep r) (← memberRest r c)

/-- An import of a module that is named by an expression, at the parenthesis. Comments before its
options are not those of the call, although it takes several lines for them. -/
def importCall (r : Rules) (phase : Phase) : Parse Expr := do
  expect "("
  if ← eat ")" then fail "import() requires a specifier."
  let (source, options) ← inside (within (fun c => { c with allowsIn := true }) do
    let comments ← leadingComments
    let source := (withComments comments (← r.assign)).asArgument
    let options ← (do
      if ← eat "," then
        if !(← atSymbol ")") then
          let comments ← leadingComments
          return withComments comments (← r.assign)
      return Expr.absent)
    return (source, options))
  let _ ← eat ","
  let closing ← leadingComments
  if !(← eat ")") then
    fail ("Dynamic imports can only accept a module specifier and an optional set of attributes " ++
      "as arguments")
  return .importCall phase source options closing

/-- What starts with `import` and is no declaration. -/
def importExpression (r : Rules) : Parse Expr := do
  advance
  if ← atSymbol "(" then return ← importCall r .evaluation
  if ← eat "." then
    if ← eatWord "meta" then return .importMeta
    if ← eatWord "defer" then return ← importCall r .deferred
    if ← eatWord "source" then return ← importCall r .source
    skip
    fail "The only valid meta property for import is import.meta"
  unexpected

/-- What properties and calls can follow. -/
def memberBase (r : Rules) : Parse Expr := do
  if ← atWord "import" then importExpression r
  else if ← atWord "super" then
    advance
    if !((← atSymbol ".") || (← atSymbol "[") || (← atSymbol "(")) then
      note "'super' can only be used with function calls or in property accesses"
    return .super
  else primary r

/-- A new object, or the target of one. The callee may itself be a new object, for each of which
the parser comes here again; the number bounds how often. -/
def newFrom (r : Rules) : Nat → Parse Expr
  | 0 => unexpected
  | fuel + 1 => do
    expectWord "new"
    if ← eat "." then
      if ← eatWord "target" then return .newTarget
      skip
      fail "Unexpected new.target expression"
    let base ← if ← atWord "new" then newFrom r fuel else memberBase r
    let chained ← memberRest r ⟨base, false⟩
    let callee := withoutTypeArguments chained.expr
    let (args, closing) ← if ← atSymbol "(" then arguments r
      else (do return ([], ← commentsBeforeEnd))
    match callee with
    | .importCall _ _ _ _ => note "Cannot use new with dynamic import"
    | _ => pure ()
    if chained.inChain then note "Optional chaining cannot appear in the callee of new expressions"
    return .new callee args closing false

/-- What can be called or assigned to. -/
def leftHandOf (r : Rules) : Parse Expr := do
  let base ← if ← atWord "new" then (do newFrom r (← remaining)) else memberBase r
  let c ← callRest r ⟨base, false⟩
  if !c.inChain then return c.expr
  match c.expr with
  | .typed .arguments e => return .typed .arguments (.chain e)
  | e => return .chain e

/-! ## Operands -/

/-- A word, number or string follows on the line of the current word. -/
def beforeOperand : Parse Bool :=
  lookahead do
    skip
    if ← afterBreak then return false
    match ← form with
    | .word _ _ | .number _ _ | .bigint _ _ | .string _ => return true
    | _ => return false

/-- The prefix operator that the symbol or word is. -/
def unaryOp? : Form → Option UnaryOp
  | .symbol "+" => some .plus
  | .symbol "-" => some .minus
  | .symbol "!" => some .not
  | .symbol "~" => some .complement
  | .word "typeof" _ => some .typeOf
  | .word "void" _ => some .void
  | .word "delete" _ => some .delete
  | _ => none

/-- The step that the symbol is. -/
def updateOp? : Form → Option UpdateOp
  | .symbol "++" => some .increment
  | .symbol "--" => some .decrement
  | _ => none

/-- An operand with a step before or behind it. -/
def updateExpression (r : Rules) : Parse Expr := do
  if let some op := updateOp? (← form) then
    advance
    let operand ← r.unary
    return .update op true (← simpleTarget operand)
  if (← dialect).hasJsx && (← atSymbol "<") then
    let tail := (← current).start.length
    advance
    return ← r.element tail false
  let e ← leftHandOf r
  if let some op := updateOp? (← form) then
    if !(← afterBreak) then
      advance
      return .update op false (← simpleTarget e)
  return e

/-- An `await` is an operator here. -/
def atAwait : Parse Bool := do
  if ← atWord "await" then
    if (← context).allowsAwait then return true
    beforeOperand
  else return false

/-- An operand with the operators before it. -/
def unaryOf (r : Rules) : Parse Expr := do
  if let some op := unaryOp? (← form) then
    advance
    let isPure := (← current).isPure
    return .unary op (markIf isPure (← r.unary))
  if ← atSymbol "<" then
    let d ← dialect
    if !d.hasJsx then
      if !d.hasTypes then return ← unexpected
      advance
      inside r.type
      expect ">"
      return .typed .angle (← r.unary)
  if ← atAwait then
    if !(← context).allowsAwait then
      note "\x60await\x60 is only allowed within async functions and at the top levels of modules"
    advance
    return .await (← within (fun c => { c with allowsAwait := true }) r.unary)
  updateExpression r

/-! ## Operators -/

/-- Reads a symbol that starts with `>` to its full length. -/
def joinAngle : Parse Unit :=
  modify fun s =>
    if s.token.form.isSymbol ">" then
      let (text, rest) := Lexer.readAngle s.token.start
      { s with token := { s.token with form := .symbol text }, rest }
    else s

/-- The binary operator that the symbol or word is. -/
def binaryOp? : Form → Option BinaryOp
  | .symbol text => BinaryOp.ofText? text
  | .word text _ =>
    if text == "in" then some .isIn else if text == "instanceof" then some .instanceOf else none
  | _ => none

/-- The expression joins its operands by an operator that `??` must not meet. -/
def isMixedWithCoalesce : Expr → Bool
  | .binary .or _ _ | .binary .and _ _ => true
  | _ => false

/-- The expression is a logical one. -/
def isLogicalExpr : Expr → Bool
  | .binary op _ _ => op.isLogical
  | _ => false

/-- Notes what must not stand beside an operator without parentheses. -/
def checkOperands (op : BinaryOp) (leftInParens : Bool) (left right : Expr) : Parse Unit := do
  if op == .coalesce then
    let other := if isLogicalExpr right then right else left
    if isMixedWithCoalesce other then
      note "Logical expressions and coalesce expressions cannot be mixed"
  if op == .power && !leftInParens then
    match left with
    | .await _ | .unary _ _ => note "Unexpected exponentiation expression"
    | _ => pure ()

/-- The type behind `as` or `satisfies`; a type of constants is written `const`. -/
def typeBehind (r : Rules) (e : Expr) : Parse (Option Expr) := do
  if ← afterBreak then return none
  let isAs ← atWord "as"
  advance
  if isAs && (← atWord "const") then advance else r.type
  if !(← hasTypes) then
    note (if isAs then "Type assertion expressions can only be used in TypeScript files."
      else "Type satisfaction expressions can only be used in TypeScript files.")
  return some (.typed (if isAs then .asType else .satisfies) e)

/-- One step from an operand to one that an operator joins with the next; the operator binds more
than the level, or as much if it groups to the right. -/
def binaryStep (r : Rules) (level : Precedence) (left : Expr) (leftInParens : Bool) :
    Parse (Option Expr) := do
  joinAngle
  let f ← form
  if f.isWord "as" || f.isWord "satisfies" then
    if BinaryOp.less.precedence ≤ level then return none
    return ← typeBehind r left
  match binaryOp? f with
  | none => return none
  | some op =>
    let stops := if op.isRightAssociative then op.precedence < level else op.precedence ≤ level
    if stops then return none
    if op == .isIn && !(← context).allowsIn then return none
    advance
    let right ← r.binary op.precedence
    checkOperands op leftInParens left right
    return some (.binary op left right)

/-- Operands joined by operators that bind more than a level. -/
def binaryOf (r : Rules) (level : Precedence) : Parse Expr := do
  let isPure := (← current).isPure
  let inParens ← atSymbol "("
  let left ← (do
    match ← form with
    | .privateName name =>
      if (← context).allowsIn then
        skip
        expectWord "in"
        let right ← r.binary .compare
        match right with
        | .binary .isIn (.privateName _) _ =>
          fail "Unexpected right-hand side of private-in expression"
        | _ => return .binary .isIn (.privateName name) right
      unexpected
    | _ => return markIf isPure (← unaryOf r))
  let first ← binaryStep r level left inParens
  match first with
  | none => return left
  | some e => iterated (fun e => binaryStep r level e false) e

/-! ## Arrow functions -/

/-- Whether an arrow function follows. -/
inductive Guess
  | no | yes | maybe
deriving DecidableEq, Repr

/-- What a parser says about the text to come, of which nothing is passed. -/
def guess (p : Parse Guess) : Parse Guess := fun s =>
  match p s with
  | .ok g _ => .ok g s
  | .error _ _ => .ok .no s

/-- The words that can be modifiers of a parameter. -/
def modifierWords : List String :=
  ["abstract", "accessor", "async", "const", "declare", "default", "export", "in", "out", "public",
    "private", "protected", "readonly", "static", "override"]

/-- Whether an arrow function follows, behind an opening parenthesis. -/
def guessAfterParen : Parse Guess := do
  match ← form with
  | .symbol text =>
    if text == ")" then
      skip
      let f ← form
      if f.isSymbol ":" && (← hasTypes) then return .maybe
      return if f.isSymbol "=>" || f.isSymbol "\x7b" then .yes else .no
    if text == "[" || text == "\x7b" then return .maybe
    if text == "..." then
      skip
      match ← form with
      | .word word _ =>
        return if isKeyword word then
            (if word == "null" || word == "true" || word == "false" then .no else .maybe)
          else .yes
      | .number _ _ | .bigint _ _ | .string _ => return .no
      | _ => return .maybe
    return .no
  | .word second _ =>
    skip
    let third ← form
    let isThirdName := match third with
      | .word text _ => !isReserved text && text != "yield"
      | _ => false
    if modifierWords.contains second && second != "async" && isThirdName then
      return if third.isWord "as" then .no else .yes
    if !isNameWord second && second != "this" then return .no
    match third with
    | .symbol text =>
      if text == ":" then return .yes
      if text == "?" then
        skip
        let f ← form
        return if f.isSymbol ":" || f.isSymbol "," || f.isSymbol "=" || f.isSymbol ")" then .yes
          else .no
      return if text == "," || text == "=" || text == ")" then .maybe else .no
    | _ => return .no
  | _ => return .no

/-- Whether an arrow function follows, behind an opening angle bracket. -/
def guessAfterAngle : Parse Guess := do
  match ← form with
  | .word second _ =>
    if !isNameWord second && second != "const" then return .no
    if !(← dialect).hasJsx then return .maybe
    skip
    if second == "const" then skip
    match ← form with
    | .word "extends" _ =>
      skip
      let f ← form
      return if f.isSymbol "=" || f.isSymbol ">" || f.isSymbol "/" then .no else .yes
    | .symbol text => return if text == "," || text == "=" then .yes else .no
    | _ => return .no
  | _ => return .no

/-- Whether an arrow function with parentheses follows. -/
def guessArrow : Parse Guess := do
  let f ← form
  if !(f.isSymbol "(" || f.isSymbol "<" || f.isWord "async") then return .no
  guess do
    if ← atWord "async" then
      skip
      if ← afterBreak then return .no
    if ← eat "(" then guessAfterParen
    else if ← eat "<" then guessAfterAngle
    else return .no

/-- What stands before the body of an arrow function. -/
structure ArrowHead where
  /-- It returns a promise. -/
  isAsync : Bool
  /-- Its parameters. -/
  params : List Expr
  /-- The type of its result is written. -/
  hasReturnType : Bool

/-- Passes the arrow, which must not start a line. -/
def arrowSymbol : Parse Unit := do
  if ← afterBreak then note "Line terminator not permitted before arrow"
  expect "=>"

/-- What stands before the body of an arrow function with parentheses. -/
def arrowHead (r : Rules) : Parse ArrowHead := do
  let isAsync ← eatWord "async"
  within (fun c => if isAsync then { c with allowsAwait := true } else c) do
    typeParameters r
    let params ← parameters r false (some "An arrow function cannot have a \x60this\x60 parameter.")
    let hasReturnType ← (do return (← hasTypes) && (← atSymbol ":"))
    returnType r
    arrowSymbol
    return ⟨isAsync, params, hasReturnType⟩

/-- The body of an arrow function. -/
def arrowBody (r : Rules) (head : ArrowHead) (allowsReturnType : Bool) : Parse Expr :=
  within (fun c => { c with allowsAwait := head.isAsync, allowsYield := false }) do
    if ← atSymbol "\x7b" then return .arrow head.isAsync head.params (← functionBody r)
    return .arrowTo head.isAsync head.params (← r.assignment allowsReturnType)

/-- An arrow function, if the text can be read so. Where a colon may belong to a condition around
it, a written type of the result has to be followed by another colon. -/
def possibleArrow (r : Rules) (allowsReturnType : Bool) : Parse (Option Expr) := fun s =>
  match arrowHead r s with
  | .error _ _ => .ok none s
  | .ok head s' =>
    match arrowBody r head allowsReturnType s' with
    | .error e s'' => .error e s''
    | .ok e s'' =>
      if !allowsReturnType && head.hasReturnType && !s''.token.form.isSymbol ":" then .ok none s
      else .ok (some e) s''

/-- An arrow function with parentheses, if one follows. -/
def parenthesizedArrow (r : Rules) (allowsReturnType : Bool) : Parse (Option Expr) := do
  match ← guessArrow with
  | .no => return none
  | .yes =>
    let head ← arrowHead r
    return some (← arrowBody r head true)
  | .maybe => possibleArrow r allowsReturnType

/-- An `async` before the one parameter of an arrow function follows. -/
def atAsyncArrow : Parse Bool := do
  if ← atWord "async" then
    lookahead do
      skip
      if ← afterBreak then return false
      if !Form.isName (← form) then return false
      skip
      return !(← afterBreak) && (← atSymbol "=>")
  else return false

/-- An arrow function behind its one parameter. -/
def simpleArrow (r : Rules) (isAsync : Bool) (name : String) (allowsReturnType : Bool) :
    Parse Expr := do
  arrowSymbol
  arrowBody r ⟨isAsync, [.ident name], false⟩ allowsReturnType

/-! ## Assignments -/

/-- A `yield` is an operator here. -/
def atYield : Parse Bool := do
  if ← atWord "yield" then
    if (← context).allowsYield then return true
    beforeOperand
  else return false

/-- An expression behind `yield`. -/
def yieldExpression (r : Rules) : Parse Expr := do
  if !(← context).allowsYield then
    note "A 'yield' expression is only allowed in a generator body."
  advance
  within (fun c => { c with allowsYield := true }) do
    if ← afterBreak then return .yield false .absent
    let isDelegate ← eat "*"
    let hasNoValue ← (do
      match ← form with
      | .eof => return true
      | .symbol text => return [")", "]", "\x7d", ";", ":", ","].contains text
      | f => return f.isWord "in")
    if hasNoValue && !isDelegate then return .yield false .absent
    return .yield isDelegate (← r.assign)

/-- The assignment that the symbol is. -/
def assignOp? : Form → Option AssignOp
  | .symbol text => AssignOp.ofText? text
  | _ => none

/-- The two branches behind a condition, if a question mark follows. -/
def conditionalRest (r : Rules) (test : Expr) (allowsReturnType : Bool) : Parse Expr := do
  if !(← eat "?") then return test
  let whenTrue ← inside (within (fun c => { c with allowsIn := true }) (r.assignment false))
  expect ":"
  return .conditional test whenTrue (← r.assignment allowsReturnType)

/-- An expression without commas. -/
def assignmentOf (r : Rules) (allowsReturnType : Bool) : Parse Expr := do
  if ← atYield then return ← yieldExpression r
  let isEffectFree := (← current).isEffectFree
  if let some e ← parenthesizedArrow r allowsReturnType then
    return markFunctionIf isEffectFree e
  if ← atAsyncArrow then
    advance
    let name ← identifierName
    return markFunctionIf isEffectFree (← simpleArrow r true name allowsReturnType)
  let isPure := (← current).isPure
  let left ← binaryOf r .comma
  match left with
  | .ident name =>
    if ← atSymbol "=>" then
      return markFunctionIf isEffectFree (← simpleArrow r false name allowsReturnType)
  | _ => pure ()
  if let some op := assignOp? (← form) then
    let target ← if op == .plain then assignTarget left else simpleTarget left
    advance
    return .assign op target (← r.assignment allowsReturnType)
  return markFunctionIf isEffectFree (markIf isPure (← conditionalRest r left allowsReturnType))

/-- An expression with commas. -/
def expressionOf (r : Rules) : Parse Expr :=
  within (fun c => { c with isDecorator := false }) do
    let first ← r.assign
    if !(← atSymbol ",") then return first
    let more ← repeated do
      if ← eat "," then return some (← r.assign) else return none
    return .sequence (first :: more)

end ModuleLoader.Syntax.Parser
