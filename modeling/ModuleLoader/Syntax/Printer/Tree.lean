import ModuleLoader.Number.Text
import ModuleLoader.Syntax.Printer.Comment
import ModuleLoader.Syntax.Remarks

/-! # Trees in print

How expressions and statements are written in compiled code: a statement on each line, tabs for
indentation, and parentheses only where they are needed. Types and elements have no place in
compiled code and are left out.

* **`Place`** is what an expression has to know about its surroundings.
* **`Expr.print`**, **`Stmt.print`** write expressions and statements.
* **`printScript`** writes the body of a function or module. -/

namespace ModuleLoader.Syntax

namespace Printer

/-! ## Places -/

/-- What an expression is the start of. -/
inductive Start
  | nothing | statement | arrowBody | defaultExport
deriving DecidableEq, Repr, Inhabited

/-- What an expression is there for. -/
inductive Role
  /-- It has a value. -/
  | value
  /-- It names new variables. -/
  | binding
  /-- It is assigned to. -/
  | target
deriving DecidableEq, Repr, Inhabited

/-- What must not stand in a tree without parentheses of its own. -/
structure Limits where
  /-- The operator `in` would end the head of a loop. -/
  noIn : Bool := false
  /-- A call would take the arguments of `new`. -/
  noCall : Bool := false
deriving DecidableEq, Repr, Inhabited

namespace Limits

/-- Everything may stand there. -/
def none : Limits := {}

/-- The limits on `in` alone. -/
def onIn (l : Limits) : Limits := { noIn := l.noIn }

/-- The limits on calls alone. -/
def onCall (l : Limits) : Limits := { noCall := l.noCall }

end Limits

/-- The surroundings of an expression. -/
structure Place where
  /-- An expression that binds no more than this needs parentheses. -/
  level : Precedence
  /-- What the expression starts. -/
  start : Start := .nothing
  /-- What the expression is there for. -/
  role : Role := .value
  /-- What must not stand there. -/
  limits : Limits := .none
deriving DecidableEq, Repr, Inhabited

/-- The place of an expression with commas. -/
def free : Place := { level := .lowest }

/-- The place of an expression without commas. -/
def part : Place := { level := .comma }

/-- The place of a key. -/
def keyPlace : Place := { level := .comma }

/-- The place of a target of new variables. -/
def bindingPlace : Place := { level := .comma, role := .binding }

/-- The place of an operand under the same limits, at a level. -/
def Place.operand (p : Place) (level : Precedence) : Place := { level, limits := p.limits }

/-- The place of an operand that takes the start of its place, under the same limits. -/
def Place.leftmost (p : Place) (level : Precedence) : Place :=
  { level, start := p.start, limits := p.limits }

/-- The place inside parentheses if they are needed, and the same place otherwise. Parentheses do
not lift the limits. -/
def Place.inParens (p : Place) (isNeeded : Bool) : Place :=
  if isNeeded then { p with start := .nothing } else p

/-- The place inside the parentheses around a binary operator, which `in` cannot leave. -/
def Place.inBinaryParens (p : Place) (isNeeded : Bool) : Place :=
  if isNeeded then { p with start := .nothing, limits := { p.limits with noIn := false } } else p

/-- The place with the limits on `in` alone. -/
def Place.limitedOnIn (p : Place) : Place := { p with limits := p.limits.onIn }

/-- The place of the operand that properties are taken of. -/
def Place.object (p : Place) : Place :=
  { level := .postfixOp, start := p.start, limits := p.limits.onCall }

/-- The place of the operand that a template is applied to. -/
def Place.tag (p : Place) : Place := { level := .postfixOp, start := p.start }

/-- The place of the operand of a call, behind parentheses or a mark. What starts a statement or
a default export does so there as well. -/
def Place.callee (p : Place) (isBehind : Bool) : Place :=
  { level := .postfixOp
    start := if isBehind && p.start == .arrowBody then .nothing else p.start }

/-! ## Parts of expressions -/

/-- An expression without the parentheses around it. -/
def withoutParens : Expr → Expr
  | .paren e => withoutParens e
  | e => e

/-- The comments before an argument. -/
def commentsBefore : Expr → List Comment
  | .commented comments _ => comments
  | _ => []

/-- The expression is missing. -/
def isAbsent : Expr → Bool
  | .absent => true
  | _ => false

/-- A text that depends on an expression, if that is there. -/
def ifPresent (e : Expr) (text : String) : String := if isAbsent e then "" else text

/-- The expression is an object. -/
def isObject : Expr → Bool
  | .object _ => true
  | _ => false

/-- The expression is a number that a point would go on with. -/
def needsBlankBeforePoint (e : Expr) : Bool :=
  match withoutParens e with
  | .number x => (Binary64.compact x).toList.all Text.isDigit
  | _ => false

/-- A blank must stand between an operator and its operand, which starts or ends with the same
sign. -/
def needsBlankBehind (op : UnaryOp) (operand : Expr) : Bool :=
  op.isWord ||
  match op, withoutParens operand with
  | .plus, .unary .plus _ => true
  | .plus, .update .increment _ _ => true
  | .minus, .unary .minus _ => true
  | .minus, .update .decrement _ _ => true
  | _, _ => false

/-- The expression is the variable of the given name. -/
def isVariable (name : String) (e : Expr) : Bool :=
  match withoutParens e with
  | .ident x => x == name
  | _ => false

/-- The expression is a number beyond all numbers. -/
def isInfinite : Expr → Bool
  | .number .infinite => true
  | _ => false

/-- An operand of an operator, where one that is infinite must not be taken for a variable. -/
def operandText (op : UnaryOp) (operand : Expr) (text : String) : String :=
  if op == .delete && isInfinite operand then "(0, " ++ text ++ ")" else text

/-- A key; one that is an infinite number is worked out. -/
def keyText (key : Expr) (text : String) : String :=
  match key with
  | .number .infinite => "[" ++ text ++ "]"
  | _ => text

/-- The name of a key or variable. -/
def plainName? : Expr → Option String
  | .ident name => some name
  | _ => none

/-- A function or class needs parentheses where it would be a declaration. -/
def functionNeedsParens (p : Place) : Bool := p.start == .statement || p.start == .defaultExport

/-- The expression is an arrow function. -/
def isArrow : Expr → Bool
  | .arrow _ _ _ | .arrowTo _ _ _ => true
  | _ => false

/-- The expression is a function. In parentheses it stays in them: it may be called at once. -/
def isFunction : Expr → Bool
  | .function _ _ _ _ => true
  | .effectFree _ => true
  | e => isArrow e

/-- The variable that a part of a pattern names, with or without a default. -/
def patternName? : Expr → Option String
  | .ident name => some name
  | .assign .plain (.ident name) _ => some name
  | _ => none

/-- A property may be written by its name alone. -/
def isShort (role : Role) (key value : Expr) (isShorthand : Bool) : Bool :=
  match plainName? key with
  | none => false
  | some name =>
    match role with
    | .value =>
      if name == "__proto__" then isShorthand
      else plainName? (withoutParens value) == some name
    | .binding => patternName? value == some name
    | .target => isShorthand

/-- A decorator that is no name, property or call of one needs parentheses. -/
def decoratorNeedsParens : Expr → Bool
  | .ident _ => false
  | .member _ _ _ => false
  | .privateMember _ _ _ => false
  | .call callee _ _ _ _ => decoratorNeedsParens callee
  | _ => true

/-- The left operand of a binary operator is written at this level. -/
def leftLevel (op : BinaryOp) (left : Expr) : Precedence :=
  match op, withoutParens left with
  | .coalesce, .binary .or _ _ => .unary
  | .coalesce, .binary .and _ _ => .unary
  | .power, .unary _ _ => .call
  | .power, .await _ => .call
  | _, _ => if op.isRightAssociative then op.precedence else op.precedence.looser

/-- The right operand of a binary operator is written at this level. -/
def rightLevel (op : BinaryOp) (right : Expr) : Precedence :=
  match op, withoutParens right with
  | .coalesce, .binary .or _ _ => .unary
  | .coalesce, .binary .and _ _ => .unary
  | _, _ => if op.isRightAssociative || op.isLogical then op.precedence.looser else op.precedence

/-! ## Lists -/

/-- Parts joined by commas. -/
def commaList (parts : List String) : String := String.intercalate ", " parts

/-- The parts of an array or object, each on a line of its own, or all on one line. -/
def linedList (n : Nat) (opening closing : String) (parts : List String) : String :=
  opening ++ String.intercalate "," (parts.map fun text => "\n" ++ tabs (n + 1) ++ text) ++
    "\n" ++ tabs n ++ closing

/-- An array is written on several lines when it has more parts than this. -/
def arrayBreak : Nat := 2

/-- A comma behind the last part of an array or pattern, which would not count otherwise. -/
def lastComma (elements : List Expr) : String :=
  match elements.getLast? with
  | some .absent => ","
  | _ => ""

/-- An array with parts that are written. -/
def arrayText (n : Nat) (elements : List Expr) (parts : List String) : String :=
  if elements.length > arrayBreak then
    linedList n "[" "]" (parts.dropLast ++ (parts.getLast?.map (· ++ lastComma elements)).toList)
  else "[" ++ commaList parts ++ lastComma elements ++ "]"

/-- A pattern of new variables starts with its rest. -/
def startsWithRest : List Expr → Bool
  | [.spread _] => true
  | _ => false

/-- A pattern in brackets with parts that are written. A blank stands before the rest of one for
new variables even at its start. -/
def arrayPatternText (role : Role) (elements : List Expr) (parts : List String) : String :=
  "[" ++ (if role == .binding && startsWithRest elements then " " else "") ++ commaList parts ++
    lastComma elements ++ "]"

/-- An object with properties that are written. -/
def objectText (n : Nat) (parts : List String) : String :=
  match parts with
  | [] => "\x7b\x7d"
  | [p] => "\x7b " ++ p ++ " \x7d"
  | ps => linedList n "\x7b" "\x7d" ps

/-- A pattern in braces with properties that are written. -/
def objectPatternText (parts : List String) : String :=
  if parts.isEmpty then "\x7b\x7d" else "\x7b " ++ commaList parts ++ " \x7d"

/-- A target in braces with properties that are written. -/
def objectTargetText (parts : List String) : String := "\x7b" ++ commaList parts ++ "\x7d"

/-- How many levels the properties of an object are indented. -/
def objectIndent (n : Nat) (properties : List Property) : Nat :=
  if properties.length > 1 then n + 1 else n

/-- How many levels the parts of an array are indented. -/
def arrayIndent (n : Nat) (elements : List Expr) : Nat :=
  if elements.length > arrayBreak then n + 1 else n

/-- The texts of a template with its parts between them. -/
def interleave : List String → List String → String
  | text :: texts, p :: parts =>
    escapeScriptEnds text ++ "$\x7b" ++ p ++ "\x7d" ++ interleave texts parts
  | text :: texts, [] => escapeScriptEnds text ++ interleave texts []
  | [], _ => ""

/-- Comments stand before an argument or behind the last one. -/
def hasComments (args : List Expr) (closing : List Comment) : Bool :=
  !closing.isEmpty || args.any fun e => !(commentsBefore e).isEmpty

/-- How many levels arguments are indented. -/
def argumentIndent (n : Nat) (args : List Expr) (closing : List Comment) : Nat :=
  if hasComments args closing then n + 1 else n

/-- Arguments that are written, each with its comments on lines of its own. -/
def commentedArguments (n : Nat) : List Expr → List String → List String
  | e :: es, text :: texts =>
    (argumentComments n (commentsBefore e) ++ tabs n ++ text) :: commentedArguments n es texts
  | _, _ => []

/-- Only the source of an import keeps the comments before it. -/
def importArgumentComments : List Expr → List Expr
  | source :: options => source :: options.map Expr.withoutComments
  | [] => []

/-- The arguments of a call with its parentheses. -/
def argumentsText (n : Nat) (args : List Expr) (closing : List Comment) (texts : List String) :
    String :=
  if hasComments args closing then
    "(" ++ String.intercalate "," (commentedArguments (n + 1) args texts) ++
      argumentComments (n + 1) closing ++ tabs n ++ ")"
  else "(" ++ commaList texts ++ ")"

/-- The arguments of an import with its parentheses. -/
def importArgumentsText (n : Nat) (args : List Expr) (closing : List Comment)
    (texts : List String) : String :=
  if hasComments args closing then
    "(" ++
      String.intercalate "," (commentedArguments (n + 1) (importArgumentComments args) texts) ++
      argumentComments (n + 1) closing ++ tabs n ++ ")"
  else "(" ++ commaList texts ++ ")"

/-- The comment that a call has no effect. -/
def pureText (isPure : Bool) : String := if isPure then "/* @__PURE__ */ " else ""

/-- The mark of an optional access. -/
def optionalText (isOptional : Bool) : String := if isOptional then "?." else ""

/-! ## Statements in braces -/

/-- Lines in braces on a place of the given indentation. -/
def bracedLines (n : Nat) (isEmpty : Bool) (lines : String) : String :=
  if isEmpty then "\x7b\x7d" else "\x7b\n" ++ lines ++ tabs n ++ "\x7d"

/-- The comments in a body that holds nothing else, and none of them at an end of a line. -/
def inlineRemarks? : List Stmt → Option (List Comment)
  | [] => some []
  | [.remarks comments] =>
    if comments.all fun c => !c.afterBreak && !c.beforeBreak then some comments else none
  | _ => none

/-- The body of a function in braces, whose lines are written. -/
def functionBodyText (n : Nat) (body : List Stmt) (lines : String) : String :=
  match inlineRemarks? body with
  | some comments => "\x7b" ++ (leadingText n .line comments).1 ++ "\x7d"
  | none => bracedLines n false lines

/-- A statement would take the `else` of the choice that it is in. -/
def takesElse : Stmt → Bool
  | .commented _ s => takesElse s
  | .ifThen _ _ => true
  | .ifElse _ _ whenFalse => takesElse whenFalse
  | .forLoop _ _ _ body => takesElse body
  | .forIn _ _ body => takesElse body
  | .forOf _ _ _ body => takesElse body
  | .whileLoop _ body => takesElse body
  | .labeled _ body => takesElse body
  | .withObject _ body => takesElse body
  | _ => false

/-- A statement without the comments before it. -/
def bareOf : Stmt → Stmt
  | .commented _ s => bareOf s
  | s => s

/-- The comments before a statement. -/
def commentsBeforeStmt : Stmt → List Comment
  | .commented comments s => comments ++ commentsBeforeStmt s
  | _ => []

/-- The statement is a block. -/
def isBlock (s : Stmt) : Bool :=
  match bareOf s with
  | .block _ => true
  | _ => false

/-- The statement does nothing. -/
def isEmpty (s : Stmt) : Bool :=
  match bareOf s with
  | .empty => true
  | _ => false

/-- A statement goes on in the line that leads to it, so that comments before it have no place. -/
def joinsLine (lead : Lead) (s : Stmt) : Bool :=
  match bareOf s with
  | .block _ | .empty => lead == .body || lead == .branch
  | .ifThen _ _ | .ifElse _ _ _ => lead == .branch
  | _ => false

/-- A text without the last line break. -/
def withoutLastBreak (text : String) : String := String.ofList text.toList.dropLast

/-- The first statement of a body would be taken for a directive. -/
def looksLikeDirective (s : Stmt) : Bool :=
  match bareOf s with
  | .expr e =>
    match withoutParens e with
    | .string _ => true
    | _ => false
  | _ => false

/-- The string of a statement that would be taken for a directive. -/
def directiveLookalike (s : Stmt) : String :=
  match bareOf s with
  | .expr e =>
    match withoutParens e with
    | .string literal => "(" ++ quoted literal ++ ");\n"
    | _ => ""
  | _ => ""

/-- What the expression at the start of a loop is there for, when it is a pattern. -/
def headRole : Expr → Role
  | .object _ | .array _ => .target
  | _ => .value

/-! ## Words -/

/-- The words of a kind of variables. -/
def kindText : VariableKind → String
  | .var => "var"
  | .letVar => "let"
  | .const => "const"
  | .using => "using"
  | .awaitUsing => "await using"

/-- The words before the name of a method. -/
def methodWords (kind : MethodKind) (function : FunctionKind) : String :=
  (match kind with
    | .getter => "get "
    | .setter => "set "
    | .method | .constructor => "") ++
  (if function.isAsync then "async " else "") ++ (if function.isGenerator then "*" else "")

/-- The words of a function up to its parameters. -/
def functionWords (kind : FunctionKind) (name : Option String) : String :=
  (if kind.isAsync then "async " else "") ++ "function" ++
  (if kind.isGenerator then "* " else if name.isSome then " " else "") ++ name.getD ""

/-- The words of a class up to what it extends. -/
def classWords (name : Option String) : String :=
  match name with
  | some name => "class " ++ name
  | none => "class"

/-- The words before a member of a class. -/
def modifierWords (modifiers : Modifiers) : String :=
  (if modifiers.isStatic then "static " else "") ++
  (if modifiers.isAccessor then "accessor " else "")

/-- The word behind `import` that says when a module is evaluated. -/
def phaseWord? : Phase → Option String
  | .evaluation => none
  | .deferred => some "defer"
  | .source => some "source"

/-! ## Imports and exports -/

/-- The name of an import or export. -/
def moduleNameText : ModuleName → String
  | .ident name => name
  | .string literal => quoted literal

/-- Attributes with the blank before them. -/
def attributesText : Option Attributes → String
  | none => ""
  | some a =>
    let entries := a.entries.map fun (key, value) => moduleNameText key ++ ": " ++ quoted value
    " " ++ a.word ++ " " ++ objectPatternText entries

/-- One name in the braces of an import. -/
def importSpecifierText (s : ImportSpecifier) : String :=
  moduleNameText s.imported ++ (if s.imported.text == s.bound then "" else " as " ++ s.bound)

/-- One name in the braces of an export. -/
def exportSpecifierText (s : ExportSpecifier) : String :=
  moduleNameText s.bound ++
    (if s.bound.text == s.exported.text then "" else " as " ++ moduleNameText s.exported)

/-- What an import binds, up to the specifier. -/
def importClauseText (c : ImportClause) : String :=
  let whole := c.whole?.map ("* as " ++ ·)
  let named := c.named?.bind fun names =>
    if names.isEmpty && c.default?.isSome then none
    else some (objectPatternText (names.map importSpecifierText))
  commaList (c.default?.toList ++ whole.toList ++ named.toList) ++ " from "

end Printer

open Printer

/-! ## Trees -/

mutual

/-- An expression on a place of the given indentation. -/
def Expr.print (n : Nat) (p : Place) : Expr → String
  | .absent => ""
  | .ident name => name
  | .privateName name => "#" ++ name
  | .this => "this"
  | .super => "super"
  | .null => "null"
  | .bool value => if value then "true" else "false"
  | .number value => Binary64.compact value
  | .bigint value => toString value ++ "n"
  | .string literal => quoted literal
  | .regex pattern flags => "/" ++ pattern ++ "/" ++ flags
  | .template texts parts => "\x60" ++ interleave texts (printAll n free parts) ++ "\x60"
  | .taggedTemplate tag texts parts =>
    tag.print n p.tag ++ "\x60" ++ interleave texts (printAll n free parts) ++ "\x60"
  | .array elements =>
    match p.role with
    | .value => arrayText n elements (printAll (arrayIndent n elements) part elements)
    | role =>
      arrayPatternText role elements
        (printAll n { level := .comma, role, limits := p.limits } elements)
  | .object properties =>
    match p.role with
    | .value =>
      parenthesizedIf (p.start == .statement || p.start == .arrowBody)
        (objectText n (printProperties (objectIndent n properties) .value p.limits properties))
    | .binding => objectPatternText (printProperties n .binding p.limits properties)
    | .target => objectTargetText (printProperties n .target p.limits properties)
  | .function kind name params body =>
    parenthesizedIf (functionNeedsParens p)
      (functionWords kind name ++ "(" ++ commaList (printAll n bindingPlace params) ++ ") " ++
        functionBodyText n body (printScript (n + 1) p.limits.onIn body))
  | .arrow isAsync params body =>
    parenthesizedIf (.assign ≤ p.level)
      ((if isAsync then "async (" else "(") ++
        commaList (printAll n bindingPlace params) ++ ") => " ++
        functionBodyText n body (printScript (n + 1) p.limits body))
  | .arrowTo isAsync params body =>
    parenthesizedIf (.assign ≤ p.level)
      ((if isAsync then "async (" else "(") ++
        commaList (printAll n bindingPlace params) ++ ") => " ++
        body.print n { level := .comma, start := .arrowBody, limits := p.limits })
  | .classExpr decorators name base members =>
    parenthesizedIf (functionNeedsParens p)
      (printDecorators n decorators ++ classWords name ++
        ifPresent base (" extends " ++ base.print n { level := .postfixOp }) ++
        " " ++ bracedLines n members.isEmpty (printMembers (n + 1) p.limits.onIn members))
  | .unary op operand =>
    let text := operandText op operand (operand.print n (p.operand .exponentiation))
    parenthesizedIf (.unary ≤ p.level)
      (op.text ++ (if needsBlankBehind op operand then " " else "") ++ text)
  | .update op isBefore target =>
    if isBefore then
      parenthesizedIf (.unary ≤ p.level) (op.text ++ target.print n (p.operand .unary))
    else
      let isNeeded := .postfixOp ≤ p.level
      parenthesizedIf isNeeded
        (target.print n ((p.inParens isNeeded).leftmost .postfixOp) ++ op.text)
  | .binary .isIn (.privateName name) right =>
    parenthesizedIf (.compare ≤ p.level)
      ("#" ++ name ++ " in " ++ right.print n { level := .equals, limits := { noIn := true } })
  | .binary op left right =>
    let isNeeded := op.precedence ≤ p.level || op == .isIn && p.limits.noIn
    let inner := p.inBinaryParens isNeeded
    parenthesizedIf isNeeded
      (left.print n (inner.leftmost (leftLevel op left)) ++ " " ++ op.text ++ " " ++
        right.print n (inner.operand (rightLevel op right)).limitedOnIn)
  | .assign op target value =>
    if p.role ≠ .value then
      target.print n { p with level := .comma } ++ " = " ++ value.print n part
    else
      let isNeeded := .assign ≤ p.level ||
        (p.start == .statement || p.start == .arrowBody) && isObject target
      let inner := p.inParens isNeeded
      parenthesizedIf isNeeded
        (target.print n { inner.leftmost .comma with role := .target } ++ " " ++ op.text ++ " " ++
          value.print n (inner.operand .comma))
  | .conditional test whenTrue whenFalse =>
    let isNeeded := .conditional ≤ p.level
    let inner := (p.inParens isNeeded).limitedOnIn
    parenthesizedIf isNeeded
      (test.print n (inner.leftmost .conditional) ++ " ? " ++
        whenTrue.print n { level := .yield } ++ " : " ++ whenFalse.print n (inner.operand .yield))
  | .sequence parts =>
    let isNeeded := .comma ≤ p.level
    let inner := (p.inParens isNeeded).limitedOnIn
    parenthesizedIf isNeeded (commaList (printSequence n (inner.leftmost .lowest) parts))
  | .member object name isOptional =>
    object.print n p.object ++
      (if isOptional then "?." else if needsBlankBeforePoint object then " ." else ".") ++ name
  | .privateMember object name isOptional =>
    object.print n p.object ++ (if isOptional then "?.#" else ".#") ++ name
  | .index object key isOptional =>
    parenthesizedIf (isVariable "let" object) (object.print n p.object) ++
      optionalText isOptional ++ "[" ++ key.print n free ++ "]"
  | .call callee args closing isOptional isPure =>
    let isNeeded := .new ≤ p.level || p.limits.noCall || .postfixOp ≤ p.level && isPure
    parenthesizedIf isNeeded
      (pureText isPure ++ callee.print n (p.callee (isNeeded || isPure)) ++
        optionalText isOptional ++
        argumentsText n args closing (printAll (argumentIndent n args closing) part args))
  | .new callee args closing isPure =>
    let isNeeded := .call ≤ p.level || .postfixOp ≤ p.level && isPure
    parenthesizedIf isNeeded
      (pureText isPure ++ "new " ++
        callee.print n { level := .new, limits := { noCall := true } } ++
        argumentsText n args closing (printAll (argumentIndent n args closing) part args))
  | .chain e =>
    let isNeeded := .postfixOp ≤ p.level
    parenthesizedIf isNeeded (e.print n (p.inParens isNeeded))
  | .newTarget => "new.target"
  | .importMeta => "import.meta"
  | .importCall phase source options closing =>
    let args := if isAbsent options then [source] else [source, options]
    let m := argumentIndent n args closing
    let text := source.print m part
    let texts := if isAbsent options then [text] else [text, options.print m part]
    parenthesizedIf (.new ≤ p.level || p.limits.noCall)
      ("import" ++ (match phaseWord? phase with
          | some word => "." ++ word
          | none => "") ++
        importArgumentsText n args closing texts)
  | .yield isDelegate value =>
    parenthesizedIf (.assign ≤ p.level)
      ((if isDelegate then "yield*" else "yield") ++
        ifPresent value (" " ++ value.print n { level := .yield }))
  | .await value =>
    parenthesizedIf (.unary ≤ p.level) ("await " ++ value.print n (p.operand .exponentiation))
  | .spread e => "..." ++ e.print n { level := .comma, role := p.role }
  | .beforeComma e => e.print n p
  | .paren e =>
    if isFunction e then "(" ++ e.print n { p with level := .lowest, start := .nothing } ++ ")"
    else e.print n p
  | .computed e => "[" ++ e.print n part ++ "]"
  | .typed _ e => e.print n p
  | .decorated decorators e => printDecorators n decorators ++ e.print n p
  | .parameterProperty target => target.print n p
  | .commented _ e => e.print n p
  | .remarked comments e =>
    if p.role ≠ .value then e.print n p
    else "(" ++ remarksText n comments ++ e.print n { p with start := .nothing } ++ ")"
  | .effectFree e =>
    parenthesizedIf (if isArrow e then .assign ≤ p.level else functionNeedsParens p)
      (effectFreeMark ++ " " ++ e.print n { p with level := .lowest, start := .nothing })
  | .element _ _ _ _ _ _ => ""
  | .fragment _ _ => ""
  | .jsxText _ => ""
  | .container _ => ""

/-- Each of several expressions on places of one kind. -/
def printAll (n : Nat) (p : Place) : List Expr → List String
  | [] => []
  | e :: rest => e.print n p :: printAll n p rest

/-- The parts of a sequence, of which the first takes the start of the place. -/
def printSequence (n : Nat) (p : Place) : List Expr → List String
  | [] => []
  | e :: rest => e.print n p :: printSequence n { p with start := .nothing } rest

/-- The decorators before something. -/
def printDecorators (n : Nat) : List Expr → String
  | [] => ""
  | e :: rest =>
    "@" ++ parenthesizedIf (decoratorNeedsParens e) (e.print n free) ++ " " ++
      printDecorators n rest

/-- A property in braces of the given role, under limits for what is no value. -/
def Property.print (n : Nat) (role : Role) (l : Limits) : Property → String
  | .value key value isShorthand =>
    let limits := if role == .value then .none else l
    let text := value.print n { level := .comma, role, limits }
    if isShort role key value isShorthand then text
    else (if role == .value then keyText key else id) (key.print n keyPlace) ++ ": " ++ text
  | .method kind key function params body =>
    methodWords kind function ++ key.print n keyPlace ++ "(" ++
      commaList (printAll n bindingPlace params) ++ ") " ++
      functionBodyText n body (printScript (n + 1) l body)
  | .spread e => "..." ++ e.print n { level := .comma, role }
  | .jsxAttribute _ _ _ => ""

/-- Each of several properties. -/
def printProperties (n : Nat) (role : Role) (l : Limits) : List Property → List String
  | [] => []
  | p :: rest => p.print n role l :: printProperties n role l rest

/-- Variables with their values. -/
def printDeclarators (n : Nat) (l : Limits) : List Expr → List String
  | [] => []
  | .assign _ target value :: rest =>
    (target.print n bindingPlace ++ " = " ++ value.print n { level := .comma, limits := l }) ::
      printDeclarators n l rest
  | e :: rest => e.print n bindingPlace :: printDeclarators n l rest

/-- A member of a class on a line of its own. -/
def Member.print (n : Nat) (l : Limits) : Member → String
  | .method comments decorators modifiers kind key function params body =>
    let (text, lead) := leadingText n .line comments
    text ++ lead.text n ++ printDecorators n decorators ++ modifierWords modifiers ++
      methodWords kind function ++ key.print n keyPlace ++ "(" ++
      commaList (printAll n bindingPlace params) ++ ") " ++
      functionBodyText n body (printScript (n + 1) l body) ++ "\n"
  | .field comments decorators modifiers key value =>
    let (text, lead) := leadingText n .line comments
    text ++ lead.text n ++ printDecorators n decorators ++ modifierWords modifiers ++
      key.print n keyPlace ++ ifPresent value (" = " ++ value.print n part) ++ ";\n"
  | .staticBlock comments body =>
    let (text, lead) := leadingText n .line comments
    text ++ lead.text n ++ "static " ++ bracedLines n body.isEmpty (printBody (n + 1) l body) ++
      "\n"
  | .signature _ _ => ""

/-- The members of a class. -/
def printMembers (n : Nat) (l : Limits) : List Member → String
  | [] => ""
  | m :: rest => m.print n l ++ printMembers n l rest

/-- A statement with the end of its last line, led in in the given way. -/
def Stmt.print (n : Nat) (l : Limits) (lead : Lead) : Stmt → String
  | .commented comments s =>
    let (text, lead) := if joinsLine lead s then ("", lead) else leadingText n lead comments
    text ++ s.print n l lead
  | .remarks comments => (leadingText n .line comments).1
  | .expr e => lead.text n ++ e.print n { level := .lowest, start := .statement } ++ ";\n"
  | .directive _ written => lead.text n ++ directiveText written ++ ";\n"
  | .block body => lead.text n ++ bracedLines n body.isEmpty (printBody (n + 1) l body) ++ "\n"
  | .empty => (if lead == .body || lead == .branch then "" else lead.text n) ++ ";\n"
  | .variables kind declarators =>
    lead.text n ++ kindText kind ++ " " ++
      commaList (printDeclarators n l declarators) ++ ";\n"
  | .function kind name params body =>
    lead.text n ++ functionWords kind name ++ "(" ++
      commaList (printAll n bindingPlace params) ++ ") " ++
      functionBodyText n body (printScript (n + 1) l.onIn body) ++ "\n"
  | .signature _ _ => ""
  | .classDecl decorators name base members =>
    lead.text n ++ printDecorators n decorators ++ classWords name ++
      ifPresent base (" extends " ++ base.print n { level := .postfixOp }) ++ " " ++
      bracedLines n members.isEmpty (printMembers (n + 1) l.onIn members) ++ "\n"
  | .ifThen test body =>
    lead.text n ++ "if (" ++ test.print n free ++ ")" ++
      (if takesElse body then " \x7b\n" ++ body.print (n + 1) l .line ++ tabs n ++ "\x7d\n"
        else body.print n l .body)
  | .ifElse test whenTrue whenFalse =>
    lead.text n ++ "if (" ++ test.print n free ++ ")" ++
      (if takesElse whenTrue then
          " \x7b\n" ++ whenTrue.print (n + 1) l .line ++ tabs n ++ "\x7d else"
        else if isBlock whenTrue then withoutLastBreak (whenTrue.print n l .body) ++ " else"
        else whenTrue.print n l .body ++ tabs n ++ "else") ++
      whenFalse.print n l .branch
  | .forLoop head test step body =>
    lead.text n ++ "for (" ++ head.printHead n { noIn := true } false ++ ";" ++
      ifPresent test (" " ++ test.print n free) ++ ";" ++
      ifPresent step (" " ++ step.print n free) ++ ")" ++ body.print n l .body
  | .forIn head object body =>
    lead.text n ++ "for (" ++ head.printHead n { noIn := true } true ++ " in " ++
      object.print n free ++ ")" ++ body.print n l .body
  | .forOf isAwait head items body =>
    lead.text n ++ (if isAwait then "for await (" else "for (") ++ head.printHead n l true ++
      " of " ++ items.print n part ++ ")" ++ body.print n l .body
  | .whileLoop test body =>
    lead.text n ++ "while (" ++ test.print n free ++ ")" ++ body.print n l .body
  | .doWhile body test =>
    lead.text n ++ "do" ++
      (if isBlock body then withoutLastBreak (body.print n l .body) ++ " "
        else if isEmpty body then remarksText n (commentsBeforeStmt body) ++ ";\n"
        else "\n" ++ body.print (n + 1) l .line ++ tabs n) ++
      "while (" ++ test.print n free ++ ");\n"
  | .continueTo label => lead.text n ++ "continue" ++ (label.map (" " ++ ·)).getD "" ++ ";\n"
  | .breakTo label => lead.text n ++ "break" ++ (label.map (" " ++ ·)).getD "" ++ ";\n"
  | .returnValue value =>
    lead.text n ++ "return" ++ ifPresent value (" " ++ value.print n free) ++ ";\n"
  | .throwValue value => lead.text n ++ "throw " ++ value.print n free ++ ";\n"
  | .tryCatch body target handler =>
    lead.text n ++ "try " ++ bracedLines n body.isEmpty (printBody (n + 1) l body) ++ " catch " ++
      ifPresent target ("(" ++ target.print n bindingPlace ++ ") ") ++
      bracedLines n handler.isEmpty (printBody (n + 1) l handler) ++ "\n"
  | .tryFinally body finalizer =>
    lead.text n ++ "try " ++ bracedLines n body.isEmpty (printBody (n + 1) l body) ++ " finally " ++
      bracedLines n finalizer.isEmpty (printBody (n + 1) l finalizer) ++ "\n"
  | .tryCatchFinally body target handler finalizer =>
    lead.text n ++ "try " ++ bracedLines n body.isEmpty (printBody (n + 1) l body) ++ " catch " ++
      ifPresent target ("(" ++ target.print n bindingPlace ++ ") ") ++
      bracedLines n handler.isEmpty (printBody (n + 1) l handler) ++ " finally " ++
      bracedLines n finalizer.isEmpty (printBody (n + 1) l finalizer) ++ "\n"
  | .switch value cases =>
    lead.text n ++ "switch (" ++ value.print n free ++ ") " ++
      bracedLines n cases.isEmpty (printCases (n + 1) l cases) ++ "\n"
  | .labeled label body => lead.text n ++ label ++ ":" ++ body.print n l .body
  | .withObject object body =>
    lead.text n ++ "with(" ++ object.print n free ++ ")" ++ body.print n l .body
  | .debugger => lead.text n ++ "debugger;\n"
  | .importDecl phase _ clause source attributes =>
    lead.text n ++ "import " ++ (match phaseWord? phase with
        | some word => word ++ " "
        | none => "") ++
      (match clause with
        | some clause => importClauseText clause
        | none => "") ++ quoted source ++ attributesText attributes ++ ";\n"
  | .exportNamed _ specifiers source _ =>
    lead.text n ++ "export " ++ objectPatternText (specifiers.map exportSpecifierText) ++
      (match source with
        | some source => " from " ++ quoted source
        | none => "") ++ ";\n"
  | .exportAll _ exported source attributes =>
    lead.text n ++ "export *" ++ (match exported with
        | some name => " as " ++ moduleNameText name
        | none => "") ++ " from " ++ quoted source ++ attributesText attributes ++ ";\n"
  | .exportDecl declaration => lead.text n ++ "export " ++ declaration.print n l .direct
  | .exportDefault e =>
    lead.text n ++ "export default " ++ e.print n { level := .comma, start := .defaultExport } ++
      ";\n"
  | .exportDefaultDecl declaration =>
    lead.text n ++ "export default " ++ declaration.print n l .direct
  | .typeDecl _ => ""
  | .declared _ => ""
  | .enumDecl _ _ _ _ => ""
  | .namespaceDecl _ _ => ""
  | .ambientModule _ => ""
  | .importEquals _ _ _ => ""
  | .importRequire _ _ _ => ""
  | .exportAssign _ => ""
  | .exportAsNamespace _ => ""

/-- What a loop starts with, which is a target or declaration if the loop goes over an object. -/
def Stmt.printHead (n : Nat) (l : Limits) (isOver : Bool) : Stmt → String
  | .commented _ s => s.printHead n l isOver
  | .variables kind declarators =>
    kindText kind ++ " " ++ commaList (printDeclarators n l declarators)
  | .expr e =>
    if isOver then
      parenthesizedIf (isVariable "async" e)
        (e.print n { level := .lowest, role := headRole e, limits := l })
    else e.print n { level := .lowest, limits := l }
  | _ => ""

/-- The statements of a block. -/
def printBody (n : Nat) (l : Limits) : List Stmt → String
  | [] => ""
  | s :: rest => s.print n l .line ++ printBody n l rest

/-- The statements of a function or module. A string at its start that is no directive gets
parentheses. -/
def printScript (n : Nat) (l : Limits) : List Stmt → String
  | [] => ""
  | s :: rest =>
    (if looksLikeDirective s then directiveLookalike s else s.print n l .line) ++ printBody n l rest

/-- A case of a `switch`. -/
def Case.print (n : Nat) (l : Limits) : Case → String
  | .mk test body =>
    tabs n ++ (if isAbsent test then "default:" else "case " ++ test.print n free ++ ":") ++
      printCaseBody n l body

/-- The statements of a case: a single one goes on in its line. -/
def printCaseBody (n : Nat) (l : Limits) : List Stmt → String
  | [] => "\n"
  | [s] => s.print n l .body
  | s :: t :: rest =>
    "\n" ++ s.print (n + 1) l .line ++ t.print (n + 1) l .line ++ printBody (n + 1) l rest

/-- The cases of a `switch`. -/
def printCases (n : Nat) (l : Limits) : List Case → String
  | [] => ""
  | c :: rest => c.print n l ++ printCases n l rest

end

end ModuleLoader.Syntax
