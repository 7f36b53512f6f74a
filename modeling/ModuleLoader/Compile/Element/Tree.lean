import ModuleLoader.Compile.Element.Call

/-! # Programs without elements

Every element of a program is compiled to a call. What stands in the braces of an element is
compiled before the element is, and an element before the one around it only where it stands in
braces of its own: nested elements are otherwise compiled with the outermost one.

* **`Stmt.compileElements`** compiles the elements of a statement.
* **`compileBody`** compiles those of a body. -/

namespace ModuleLoader.Syntax

namespace ThisScope

/-- The scope of the statements of a module. -/
def ofModule : ThisScope := ⟨false, false⟩

/-- The scope inside a function that has a `this` of its own. -/
def inFunction (s : ThisScope) : ThisScope := { s with isConstructor := false }

/-- The scope inside a constructor. -/
def inConstructor (s : ThisScope) : ThisScope := { s with isConstructor := true }

/-- The scope inside a method. -/
def inMethod (s : ThisScope) : MethodKind → ThisScope
  | .constructor => s.inConstructor
  | _ => s.inFunction

/-- The scope inside a class with the given base. -/
def inClass (s : ThisScope) : Expr → ThisScope
  | .absent => { s with isDerived := false }
  | _ => { s with isDerived := true }

end ThisScope

mutual

/-- Compiles the elements in an expression. -/
def Expr.compileElements (o : ElementOptions) (s : ThisScope) : Expr → Compile Expr
  | .template texts parts => return .template texts (← compileAll o s parts)
  | .taggedTemplate tag texts parts =>
    return .taggedTemplate (← tag.compileElements o s) texts (← compileAll o s parts)
  | .array elements => return .array (← compileAll o s elements)
  | .object properties => return .object (← compileProperties o s properties)
  | .function kind name params body =>
    return .function kind name (← compileAll o s.inFunction params)
      (← compileBody o s.inFunction body)
  | .arrow isAsync params body =>
    return .arrow isAsync (← compileAll o s params) (← compileBody o s body)
  | .arrowTo isAsync params body =>
    return .arrowTo isAsync (← compileAll o s params) (← body.compileElements o s)
  | .classExpr decorators name base members =>
    return .classExpr (← compileAll o s decorators) name (← base.compileElements o s)
      (← compileMembers o (s.inClass base) members)
  | .unary op operand => return .unary op (← operand.compileElements o s)
  | .update op isBefore target => return .update op isBefore (← target.compileElements o s)
  | .binary op left right =>
    return .binary op (← left.compileElements o s) (← right.compileElements o s)
  | .assign op target value =>
    return .assign op (← target.compileElements o s) (← value.compileElements o s)
  | .conditional test whenTrue whenFalse =>
    return .conditional (← test.compileElements o s) (← whenTrue.compileElements o s)
      (← whenFalse.compileElements o s)
  | .sequence parts => return .sequence (← compileAll o s parts)
  | .member object name isOptional =>
    return .member (← object.compileElements o s) name isOptional
  | .privateMember object name isOptional =>
    return .privateMember (← object.compileElements o s) name isOptional
  | .index object key isOptional =>
    return .index (← object.compileElements o s) (← key.compileElements o s) isOptional
  | .call callee args closing isOptional isPure =>
    return .call (← callee.compileElements o s) (← compileAll o s args) closing isOptional isPure
  | .new callee args closing isPure =>
    return .new (← callee.compileElements o s) (← compileAll o s args) closing isPure
  | .chain e => return .chain (← e.compileElements o s)
  | .importCall phase source options closing =>
    return .importCall phase (← source.compileElements o s) (← options.compileElements o s) closing
  | .yield isDelegate value => return .yield isDelegate (← value.compileElements o s)
  | .await value => return .await (← value.compileElements o s)
  | .spread e => return .spread (← e.compileElements o s)
  | .paren e => return .paren (← e.compileElements o s)
  | .computed e => return .computed (← e.compileElements o s)
  | .typed form e => return .typed form (← e.compileElements o s)
  | .decorated decorators e =>
    return .decorated (← compileAll o s decorators) (← e.compileElements o s)
  | .parameterProperty target => return .parameterProperty (← target.compileElements o s)
  | .commented comments e => return .commented comments (← e.compileElements o s)
  | .remarked comments e => return .remarked comments (← e.compileElements o s)
  | .effectFree e => return .effectFree (← e.compileElements o s)
  | .beforeComma e => return .beforeComma (← e.compileElements o s)
  | .element tail opening closing name attributes children => do
    let attributes ← compileProperties o s attributes
    let children ← compileChildren o s children
    Expr.buildElement o s (.element tail opening closing name attributes children)
  | .fragment closing children => do
    let children ← compileChildren o s children
    Expr.buildElement o s (.fragment closing children)
  | e => return e

/-- Compiles the elements in several expressions. -/
def compileAll (o : ElementOptions) (s : ThisScope) : List Expr → Compile (List Expr)
  | [] => return []
  | e :: rest => return (← e.compileElements o s) :: (← compileAll o s rest)

/-- Compiles what stands in braces in the children of an element. -/
def compileChildren (o : ElementOptions) (s : ThisScope) : List Expr → Compile (List Expr)
  | [] => return []
  | e :: rest => return (← e.compileParts o s) :: (← compileChildren o s rest)

/-- Compiles what stands in braces in a child or the value of an attribute. -/
def Expr.compileParts (o : ElementOptions) (s : ThisScope) : Expr → Compile Expr
  | .element tail opening closing name attributes children =>
    return .element tail opening closing name (← compileProperties o s attributes)
      (← compileChildren o s children)
  | .fragment closing children => return .fragment closing (← compileChildren o s children)
  | .commented comments e => return .commented comments (← e.compileParts o s)
  | .container e => return .container (← e.compileElements o s)
  | .spread e => return .spread (← e.compileElements o s)
  | e => return e

/-- Compiles the elements in a property; those of an attribute stay for its element. -/
def Property.compileElements (o : ElementOptions) (s : ThisScope) : Property → Compile Property
  | .value key value isShorthand =>
    return .value (← key.compileElements o s) (← value.compileElements o s) isShorthand
  | .method kind key function params body =>
    return .method kind (← key.compileElements o s) function (← compileAll o s.inFunction params)
      (← compileBody o s.inFunction body)
  | .spread e => return .spread (← e.compileElements o s)
  | .jsxAttribute space name value => return .jsxAttribute space name (← value.compileParts o s)

/-- Compiles the elements in several properties. -/
def compileProperties (o : ElementOptions) (s : ThisScope) :
    List Property → Compile (List Property)
  | [] => return []
  | p :: rest => return (← p.compileElements o s) :: (← compileProperties o s rest)

/-- Compiles the elements in a member of a class. -/
def Member.compileElements (o : ElementOptions) (s : ThisScope) : Member → Compile Member
  | .method comments decorators modifiers kind key function params body =>
    return .method comments (← compileAll o s decorators) modifiers kind
      (← key.compileElements o s) function (← compileAll o (s.inMethod kind) params)
      (← compileBody o (s.inMethod kind) body)
  | .field comments decorators modifiers key value =>
    return .field comments (← compileAll o s decorators) modifiers (← key.compileElements o s)
      (← value.compileElements o s)
  | .staticBlock comments body =>
    return .staticBlock comments (← compileBody o s.inFunction body)
  | .signature key params =>
    return .signature (← key.compileElements o s) (← compileAll o s.inFunction params)

/-- Compiles the elements in several members of a class. -/
def compileMembers (o : ElementOptions) (s : ThisScope) : List Member → Compile (List Member)
  | [] => return []
  | m :: rest => return (← m.compileElements o s) :: (← compileMembers o s rest)

/-- Compiles the elements in a statement. -/
def Stmt.compileElements (o : ElementOptions) (s : ThisScope) : Stmt → Compile Stmt
  | .commented comments t => return .commented comments (← t.compileElements o s)
  | .expr e => return .expr (← e.compileElements o s)
  | .block body => return .block (← compileBody o s body)
  | .variables kind declarators => return .variables kind (← compileAll o s declarators)
  | .function kind name params body =>
    return .function kind name (← compileAll o s.inFunction params)
      (← compileBody o s.inFunction body)
  | .signature name params => return .signature name (← compileAll o s.inFunction params)
  | .classDecl decorators name base members =>
    return .classDecl (← compileAll o s decorators) name (← base.compileElements o s)
      (← compileMembers o (s.inClass base) members)
  | .ifThen test body => return .ifThen (← test.compileElements o s) (← body.compileElements o s)
  | .ifElse test whenTrue whenFalse =>
    return .ifElse (← test.compileElements o s) (← whenTrue.compileElements o s)
      (← whenFalse.compileElements o s)
  | .forLoop head test step body =>
    return .forLoop (← head.compileElements o s) (← test.compileElements o s)
      (← step.compileElements o s) (← body.compileElements o s)
  | .forIn head object body =>
    return .forIn (← head.compileElements o s) (← object.compileElements o s)
      (← body.compileElements o s)
  | .forOf isAwait head items body =>
    return .forOf isAwait (← head.compileElements o s) (← items.compileElements o s)
      (← body.compileElements o s)
  | .whileLoop test body =>
    return .whileLoop (← test.compileElements o s) (← body.compileElements o s)
  | .doWhile body test =>
    return .doWhile (← body.compileElements o s) (← test.compileElements o s)
  | .returnValue value => return .returnValue (← value.compileElements o s)
  | .throwValue value => return .throwValue (← value.compileElements o s)
  | .tryCatch body target handler =>
    return .tryCatch (← compileBody o s body) (← target.compileElements o s)
      (← compileBody o s handler)
  | .tryFinally body finalizer =>
    return .tryFinally (← compileBody o s body) (← compileBody o s finalizer)
  | .tryCatchFinally body target handler finalizer =>
    return .tryCatchFinally (← compileBody o s body) (← target.compileElements o s)
      (← compileBody o s handler) (← compileBody o s finalizer)
  | .switch value cases =>
    return .switch (← value.compileElements o s) (← compileCases o s cases)
  | .labeled label body => return .labeled label (← body.compileElements o s)
  | .withObject object body =>
    return .withObject (← object.compileElements o s) (← body.compileElements o s)
  | .exportDecl declaration => return .exportDecl (← declaration.compileElements o s)
  | .exportDefault e => return .exportDefault (← e.compileElements o s)
  | .exportDefaultDecl declaration => return .exportDefaultDecl (← declaration.compileElements o s)
  | t => return t

/-- Compiles the elements in several statements. -/
def compileBody (o : ElementOptions) (s : ThisScope) : List Stmt → Compile (List Stmt)
  | [] => return []
  | t :: rest => return (← t.compileElements o s) :: (← compileBody o s rest)

/-- Compiles the elements in a case. -/
def Case.compileElements (o : ElementOptions) (s : ThisScope) : Case → Compile Case
  | .mk test body => return .mk (← test.compileElements o s) (← compileBody o s body)

/-- Compiles the elements in several cases. -/
def compileCases (o : ElementOptions) (s : ThisScope) : List Case → Compile (List Case)
  | [] => return []
  | c :: rest => return (← c.compileElements o s) :: (← compileCases o s rest)

end

/-! ## Imports for compiled code -/

/-- The imports among some, one for each package, in the order of their first uses. -/
def importsBySource (imports : List AddedImport) : List (String × List AddedImport) :=
  imports.foldl (fun groups i =>
    if groups.any (·.1 == i.source) then
      groups.map fun g => if g.1 == i.source then (g.1, g.2 ++ [i]) else g
    else groups ++ [(i.source, [i])]) []

/-- The declaration that imports names from a package. -/
def importStmt (source : String) (names : List AddedImport) : Stmt :=
  .importDecl .evaluation false
    (some ⟨none, none, some (names.map fun i => ⟨.ident i.imported, i.bound, false⟩)⟩)
    (.made source) none

/-- The declarations that compiled code needs. -/
def Compilation.declarations (c : Compilation) (path : String) : List Stmt :=
  (c.fileName.map fun name =>
      Stmt.variables .var [.assign .plain (.ident name) (.string (.made path))]).toList ++
    (importsBySource c.imports).map fun (source, names) => importStmt source names

/-- The statement imports something. -/
def Stmt.isImport (s : Stmt) : Bool :=
  match s.bare with
  | .importDecl .. => true
  | _ => false

/-- The statement is a directive. -/
def Stmt.isDirective (s : Stmt) : Bool :=
  match s.bare with
  | .directive .. => true
  | _ => false

/-- Puts declarations behind the directives and imports that a module starts with. -/
def insertDeclarations (declarations : List Stmt) (body : List Stmt) : List Stmt :=
  let directives := body.takeWhile Stmt.isDirective
  let body := body.dropWhile Stmt.isDirective
  directives ++ body.takeWhile Stmt.isImport ++ declarations ++ body.dropWhile Stmt.isImport

end ModuleLoader.Syntax
