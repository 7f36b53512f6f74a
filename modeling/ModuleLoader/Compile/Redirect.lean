import ModuleLoader.Syntax.Tree

/-! # Replacing specifiers

Compiled modules import by other specifiers than their sources. Wherever a program imports by a
specifier that is written down, the specifier is asked for, and replaced if there is an answer.

* **`Asked`** is what has been asked for so far.
* **`StringLiteral.redirect`** asks for one specifier.
* **`Stmt.redirect`** replaces the specifiers of a statement, in the order of the text. -/

namespace ModuleLoader.Syntax

/-- What has been asked for while specifiers are replaced. -/
structure Asked where
  /-- The specifiers, in order. -/
  specifiers : List String
  /-- How many of them were replaced. -/
  replaced : Nat
deriving DecidableEq, Repr, Inhabited

/-- Replaces specifiers and remembers them. -/
abbrev Redirecting := StateM Asked

/-- A literal with another value, which is no longer the one that was written. -/
def StringLiteral.withValue (s : StringLiteral) (value : String) : StringLiteral :=
  { s with value, written := none }

/-- Asks for a specifier, and gives it the value that is answered. -/
def StringLiteral.redirect (f : String → Option String) (s : StringLiteral) :
    Redirecting StringLiteral := fun asked =>
  match f s.value with
  | some t => (s.withValue t, ⟨asked.specifiers ++ [s.value], asked.replaced + 1⟩)
  | none => (s, ⟨asked.specifiers ++ [s.value], asked.replaced⟩)

/-- The specifier of an `import()` with its replacement, if it is written as a string. -/
def redirectSpecifier? (f : String → Option String) : Expr → Option (Redirecting Expr)
  | .string literal => some (.string <$> literal.redirect f)
  | .commented comments e => (redirectSpecifier? f e).map (.commented comments <$> ·)
  | _ => none

mutual

/-- Replaces the specifiers in an expression. -/
def Expr.redirect (f : String → Option String) : Expr → Redirecting Expr
  | .template texts parts => return .template texts (← redirectAll f parts)
  | .taggedTemplate tag texts parts =>
    return .taggedTemplate (← tag.redirect f) texts (← redirectAll f parts)
  | .array elements => return .array (← redirectAll f elements)
  | .object properties => return .object (← redirectProperties f properties)
  | .function kind name params body =>
    return .function kind name (← redirectAll f params) (← redirectBody f body)
  | .arrow isAsync params body =>
    return .arrow isAsync (← redirectAll f params) (← redirectBody f body)
  | .arrowTo isAsync params body =>
    return .arrowTo isAsync (← redirectAll f params) (← body.redirect f)
  | .classExpr decorators name base members =>
    return .classExpr (← redirectAll f decorators) name (← base.redirect f)
      (← redirectMembers f members)
  | .unary op operand => return .unary op (← operand.redirect f)
  | .update op isBefore target => return .update op isBefore (← target.redirect f)
  | .binary op left right => return .binary op (← left.redirect f) (← right.redirect f)
  | .assign op target value => return .assign op (← target.redirect f) (← value.redirect f)
  | .conditional test whenTrue whenFalse =>
    return .conditional (← test.redirect f) (← whenTrue.redirect f) (← whenFalse.redirect f)
  | .sequence parts => return .sequence (← redirectAll f parts)
  | .member object name isOptional => return .member (← object.redirect f) name isOptional
  | .privateMember object name isOptional =>
    return .privateMember (← object.redirect f) name isOptional
  | .index object key isOptional =>
    return .index (← object.redirect f) (← key.redirect f) isOptional
  | .call callee args closing isOptional isPure =>
    return .call (← callee.redirect f) (← redirectAll f args) closing isOptional isPure
  | .new callee args closing isPure =>
    return .new (← callee.redirect f) (← redirectAll f args) closing isPure
  | .chain e => return .chain (← e.redirect f)
  | .importCall phase source options closing =>
    match redirectSpecifier? f source with
    | some specifier => return .importCall phase (← specifier) (← options.redirect f) closing
    | none => return .importCall phase (← source.redirect f) (← options.redirect f) closing
  | .yield isDelegate value => return .yield isDelegate (← value.redirect f)
  | .await value => return .await (← value.redirect f)
  | .spread e => return .spread (← e.redirect f)
  | .paren e => return .paren (← e.redirect f)
  | .computed e => return .computed (← e.redirect f)
  | .typed form e => return .typed form (← e.redirect f)
  | .decorated decorators e => return .decorated (← redirectAll f decorators) (← e.redirect f)
  | .parameterProperty target => return .parameterProperty (← target.redirect f)
  | .commented comments e => return .commented comments (← e.redirect f)
  | .remarked comments e => return .remarked comments (← e.redirect f)
  | .effectFree e => return .effectFree (← e.redirect f)
  | .beforeComma e => return .beforeComma (← e.redirect f)
  | .element tail opening closing name attributes children =>
    return .element tail opening closing name (← redirectProperties f attributes)
      (← redirectAll f children)
  | .fragment closing children => return .fragment closing (← redirectAll f children)
  | .container e => return .container (← e.redirect f)
  | e => return e

/-- Replaces the specifiers in several expressions. -/
def redirectAll (f : String → Option String) : List Expr → Redirecting (List Expr)
  | [] => return []
  | e :: rest => return (← e.redirect f) :: (← redirectAll f rest)

/-- Replaces the specifiers in a property. -/
def Property.redirect (f : String → Option String) : Property → Redirecting Property
  | .value key value isShorthand =>
    return .value (← key.redirect f) (← value.redirect f) isShorthand
  | .method kind key function params body =>
    return .method kind (← key.redirect f) function (← redirectAll f params) (← redirectBody f body)
  | .spread e => return .spread (← e.redirect f)
  | .jsxAttribute space name value => return .jsxAttribute space name (← value.redirect f)

/-- Replaces the specifiers in several properties. -/
def redirectProperties (f : String → Option String) : List Property → Redirecting (List Property)
  | [] => return []
  | p :: rest => return (← p.redirect f) :: (← redirectProperties f rest)

/-- Replaces the specifiers in a member of a class. -/
def Member.redirect (f : String → Option String) : Member → Redirecting Member
  | .method comments decorators modifiers kind key function params body =>
    return .method comments (← redirectAll f decorators) modifiers kind (← key.redirect f) function
      (← redirectAll f params) (← redirectBody f body)
  | .field comments decorators modifiers key value =>
    return .field comments (← redirectAll f decorators) modifiers (← key.redirect f)
      (← value.redirect f)
  | .staticBlock comments body => return .staticBlock comments (← redirectBody f body)
  | .signature key params => return .signature (← key.redirect f) (← redirectAll f params)

/-- Replaces the specifiers in several members of a class. -/
def redirectMembers (f : String → Option String) : List Member → Redirecting (List Member)
  | [] => return []
  | m :: rest => return (← m.redirect f) :: (← redirectMembers f rest)

/-- Replaces the specifiers in a statement. -/
def Stmt.redirect (f : String → Option String) : Stmt → Redirecting Stmt
  | .commented comments s => return .commented comments (← s.redirect f)
  | .expr e => return .expr (← e.redirect f)
  | .block body => return .block (← redirectBody f body)
  | .variables kind declarators => return .variables kind (← redirectAll f declarators)
  | .function kind name params body =>
    return .function kind name (← redirectAll f params) (← redirectBody f body)
  | .signature name params => return .signature name (← redirectAll f params)
  | .classDecl decorators name base members =>
    return .classDecl (← redirectAll f decorators) name (← base.redirect f)
      (← redirectMembers f members)
  | .ifThen test body => return .ifThen (← test.redirect f) (← body.redirect f)
  | .ifElse test whenTrue whenFalse =>
    return .ifElse (← test.redirect f) (← whenTrue.redirect f) (← whenFalse.redirect f)
  | .forLoop head test step body =>
    return .forLoop (← head.redirect f) (← test.redirect f) (← step.redirect f) (← body.redirect f)
  | .forIn head object body =>
    return .forIn (← head.redirect f) (← object.redirect f) (← body.redirect f)
  | .forOf isAwait head items body =>
    return .forOf isAwait (← head.redirect f) (← items.redirect f) (← body.redirect f)
  | .whileLoop test body => return .whileLoop (← test.redirect f) (← body.redirect f)
  | .doWhile body test => return .doWhile (← body.redirect f) (← test.redirect f)
  | .returnValue value => return .returnValue (← value.redirect f)
  | .throwValue value => return .throwValue (← value.redirect f)
  | .tryCatch body target handler =>
    return .tryCatch (← redirectBody f body) (← target.redirect f) (← redirectBody f handler)
  | .tryFinally body finalizer =>
    return .tryFinally (← redirectBody f body) (← redirectBody f finalizer)
  | .tryCatchFinally body target handler finalizer =>
    return .tryCatchFinally (← redirectBody f body) (← target.redirect f) (← redirectBody f handler)
      (← redirectBody f finalizer)
  | .switch value cases => return .switch (← value.redirect f) (← redirectCases f cases)
  | .labeled label body => return .labeled label (← body.redirect f)
  | .withObject object body => return .withObject (← object.redirect f) (← body.redirect f)
  | .importDecl phase isType clause source attributes =>
    return .importDecl phase isType clause (← source.redirect f) attributes
  | .exportNamed isType specifiers (some source) attributes =>
    return .exportNamed isType specifiers (some (← source.redirect f)) attributes
  | .exportAll isType exported source attributes =>
    return .exportAll isType exported (← source.redirect f) attributes
  | .exportDecl declaration => return .exportDecl (← declaration.redirect f)
  | .exportDefault e => return .exportDefault (← e.redirect f)
  | .exportDefaultDecl declaration => return .exportDefaultDecl (← declaration.redirect f)
  | .declared s => return .declared (← s.redirect f)
  | .enumDecl isConst name members closing =>
    return .enumDecl isConst name (← redirectProperties f members) closing
  | .namespaceDecl names body => return .namespaceDecl names (← redirectBody f body)
  | .ambientModule body => return .ambientModule (← redirectBody f body)
  | .exportAssign e => return .exportAssign (← e.redirect f)
  | s => return s

/-- Replaces the specifiers in several statements. -/
def redirectBody (f : String → Option String) : List Stmt → Redirecting (List Stmt)
  | [] => return []
  | s :: rest => return (← s.redirect f) :: (← redirectBody f rest)

/-- Replaces the specifiers in a case. -/
def Case.redirect (f : String → Option String) : Case → Redirecting Case
  | .mk test body => return .mk (← test.redirect f) (← redirectBody f body)

/-- Replaces the specifiers in several cases. -/
def redirectCases (f : String → Option String) : List Case → Redirecting (List Case)
  | [] => return []
  | c :: rest => return (← c.redirect f) :: (← redirectCases f rest)

end

end ModuleLoader.Syntax
