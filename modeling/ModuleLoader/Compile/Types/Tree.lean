import ModuleLoader.Compile.Types.Enum
import ModuleLoader.Compile.Types.Scope

/-! # Programs without types

What only says something about types is left out of a program, and what stands for values is
compiled: enumerations, namespaces, parameters that are fields.

* **`Stmt.erase`** compiles a statement to those that are left of it.
* **`eraseBody`** compiles the statements of a body.

Declarations that are imported or exported without values stay among the statements of a module,
because what they are in the module as a whole is decided last. -/

namespace ModuleLoader.Syntax

/-! ## What is left of a declaration -/

/-- The names of a body that one more declaration of the name adds to. -/
def Stmt.mergedNames : Stmt → List String
  | .commented _ s => s.mergedNames
  | .exportDecl s => s.mergedNames
  | .exportDefaultDecl s => s.mergedNames
  | .declared s => s.mergedNames
  | .enumDecl _ name _ _ => [name]
  | .namespaceDecl (name :: _) body => if bodyIsAboutValues body then [name] else []
  | .function _ (some name) _ _ => [name]
  | .classDecl _ (some name) _ _ => [name]
  | _ => []

/-- The statement exports a namespace, which does not keep the comments before it. -/
def Stmt.exportsNamespace : Stmt → Bool
  | .exportDecl (.namespaceDecl _ _) => true
  | _ => false

/-- Puts comments before the last of some statements. -/
def commentLast (comments : List Comment) : List Stmt → List Stmt
  | [] => []
  | [s] => [.commented comments s]
  | s :: rest => s :: commentLast comments rest

/-- Some statements in the place of one. -/
def oneStmt : List Stmt → Stmt
  | [s] => s
  | body => .block body

/-- A declaration without a value, which only a module has to know of. -/
def Enclosing.keep (p : Enclosing) (isExported : Bool) (s : Stmt) : List Stmt :=
  match p, isExported with
  | .top, true => [.exportDecl s]
  | .top, false => [s]
  | _, _ => []

/-- Notes the variables that a namespace cannot export. -/
def checkExported (p : Enclosing) (isExported : Bool) (kind : VariableKind) (count : Nat) :
    Compile Unit :=
  match p, isExported, kind with
  | .space _, true, .const => pure ()
  | .space _, true, _ => do
    for _ in List.range count do
      Compile.fault ("Namespaces exporting non-const are not supported by Babel. Change to " ++
        "const or see: https://babeljs.io/docs/en/babel-plugin-transform-typescript")
  | _, _, _ => pure ()

/-- The statement that declares the value of an enumeration, whose properties are given as they are
written and without types. -/
def enumStmts (p : Enclosing) (isExported isDeclared : Bool) (name : String)
    (properties erased : List Property) (closing : List Comment) : Compile (List Stmt) := do
  let isFirstHere := !isDeclared && (p != .top || isExported)
  let object : Expr :=
    if isFirstHere then .object [] else .binary .or (.ident name) (.object [])
  let value ← compileEnum name properties erased closing object
  let s : Stmt :=
    if isDeclared then .expr (.assign .plain (.ident name) value)
    else .variables (if isFirstHere then .letVar else .var) [.assign .plain (.ident name) value]
  match p, isDeclared with
  | .top, true => return [s]
  | p, _ => return p.declare isExported [name] s

/-- Names in the order from the outermost namespace, each with the name of its object inside. -/
def insideNames : List String → Compile (List (String × String))
  | [] => return []
  | name :: rest => do
    let inside ← Compile.freshName name
    return (name, inside) :: (← insideNames rest)

/-- Compiles namespaces in each other; the innermost has the given body. -/
def nestedSpaces (p : Enclosing) (isExported isDeclared : Bool) (body : List Stmt) :
    List (String × String) → List Stmt
  | [] => body
  | (name, inside) :: rest =>
    namespaceStmts p isExported isDeclared name inside
      (nestedSpaces (.space inside) true false body rest)

/-- The object of the innermost of some namespaces. -/
def innermost (names : List (String × String)) : String :=
  match names.getLast? with
  | some (_, inside) => inside
  | none => ""

/-! ## Trees -/

mutual

/-- Leaves types out of an expression. -/
def Expr.erase : Expr → Compile Expr
  | .template texts parts => return .template texts (← eraseAll parts)
  | .taggedTemplate tag texts parts =>
    return .taggedTemplate (← tag.erase) texts (← eraseAll parts)
  | .array elements => return .array (← eraseAll elements)
  | .object properties => return .object (← eraseProperties properties)
  | .function kind name params body =>
    return .function kind name (← eraseAll params) (← eraseBody .inner [] body)
  | .arrow isAsync params body =>
    return .arrow isAsync (← eraseAll params) (← eraseBody .inner [] body)
  | .arrowTo isAsync params body => return .arrowTo isAsync (← eraseAll params) (← body.erase)
  | .classExpr decorators name base members =>
    return .classExpr (← eraseAll decorators) name (← base.erase) (← eraseMembers members)
  | .unary op operand => return .unary op (← operand.erase)
  | .update op isBefore target => return .update op isBefore (← target.erase)
  | .binary op left right => return .binary op (← left.erase) (← right.erase)
  | .assign op target value => return .assign op (← target.erase) (← value.erase)
  | .conditional test whenTrue whenFalse =>
    return .conditional (← test.erase) (← whenTrue.erase) (← whenFalse.erase)
  | .sequence parts => return .sequence (← eraseAll parts)
  | .member object name isOptional => return .member (← object.erase) name isOptional
  | .privateMember object name isOptional =>
    return .privateMember (← object.erase) name isOptional
  | .index object key isOptional => return .index (← object.erase) (← key.erase) isOptional
  | .call callee args closing isOptional isPure =>
    return .call (← callee.erase) (← eraseAll args) closing isOptional isPure
  | .new callee args closing isPure =>
    return .new (← callee.erase) (← eraseAll args) closing isPure
  | .chain e => return .chain (← e.erase)
  | .importCall phase source options closing =>
    return .importCall phase (← source.erase) (← options.erase) closing
  | .yield isDelegate value => return .yield isDelegate (← value.erase)
  | .await value => return .await (← value.erase)
  | .spread e => return .spread (← e.erase)
  | .paren e => return .paren (← e.erase)
  | .computed e => return .computed (← e.erase)
  | .typed _ e => e.erase
  | .decorated decorators e => return .decorated (← eraseAll decorators) (← e.erase)
  | .parameterProperty target => target.erase
  | .commented comments e => return .commented comments (← e.erase)
  | .remarked comments e => return .remarked comments (← e.erase)
  | .effectFree e => return .effectFree (← e.erase)
  | .beforeComma e => return .beforeComma (← e.erase)
  | .element tail opening closing name attributes children =>
    return .element tail opening closing name (← eraseProperties attributes) (← eraseAll children)
  | .fragment closing children => return .fragment closing (← eraseAll children)
  | .container e => return .container (← e.erase)
  | e => return e

/-- Leaves types out of several expressions. -/
def eraseAll : List Expr → Compile (List Expr)
  | [] => return []
  | e :: rest => return (← e.erase) :: (← eraseAll rest)

/-- Leaves types out of a property. -/
def Property.erase : Property → Compile Property
  | .value key value isShorthand => return .value (← key.erase) (← value.erase) isShorthand
  | .method kind key function params body =>
    return .method kind (← key.erase) function (← eraseAll params) (← eraseBody .inner [] body)
  | .spread e => return .spread (← e.erase)
  | .jsxAttribute space name value => return .jsxAttribute space name (← value.erase)

/-- Leaves types out of several properties. -/
def eraseProperties : List Property → Compile (List Property)
  | [] => return []
  | p :: rest => return (← p.erase) :: (← eraseProperties rest)

/-- What is left of a member of a class: nothing of one that is only declared. -/
def Member.erase : Member → Compile (List Member)
  | .method comments decorators modifiers kind key function params body => do
    if modifiers.isDeclared then return []
    let key ← key.erase
    let decorators ← eraseAll decorators
    let erased ← eraseAll params
    let body ← eraseBody .inner [] body
    let body := if kind = .constructor then assignProperties (fieldNames params) body else body
    return [.method comments decorators modifiers kind key function erased body]
  | .field comments decorators modifiers key value => do
    if modifiers.isDeclared then return []
    return [.field comments (← eraseAll decorators) modifiers (← key.erase) (← value.erase)]
  | .staticBlock comments body => return [.staticBlock comments (← eraseBody .inner [] body)]
  | .signature _ _ => return []

/-- What is left of several members of a class. -/
def eraseMembers : List Member → Compile (List Member)
  | [] => return []
  | m :: rest => return (← m.erase) ++ (← eraseMembers rest)

/-- What is left of a statement. It stands in a body of the given kind, exported if that is said,
and behind declarations of some names. -/
def Stmt.erase (p : Enclosing) (isExported : Bool) (before : List String) :
    Stmt → Compile (List Stmt)
  | .commented comments s => do
    let left ← s.erase p isExported before
    return if s.exportsNamespace then left else commentLast comments left
  | .expr e => return [.expr (← e.erase)]
  | .block body => return [.block (← eraseBody .inner [] body)]
  | .variables kind declarators => do
    checkExported p isExported kind declarators.length
    return p.variables isExported kind (← eraseAll declarators)
  | .function kind name params body => do
    let params ← eraseAll params
    let body ← eraseBody .inner [] body
    return p.declare isExported name.toList (.function kind name params body)
  | .signature name params => return p.keep isExported (.signature name params)
  | .classDecl decorators name base members => do
    let decorators ← eraseAll decorators
    let base ← base.erase
    let members ← eraseMembers members
    return p.declare isExported name.toList (.classDecl decorators name base members)
  | .ifThen test body =>
    return [.ifThen (← test.erase) (oneStmt (← body.erase .inner false []))]
  | .ifElse test whenTrue whenFalse =>
    return [.ifElse (← test.erase) (oneStmt (← whenTrue.erase .inner false []))
      (oneStmt (← whenFalse.erase .inner false []))]
  | .forLoop head test step body =>
    return [.forLoop (← eraseHead head) (← test.erase) (← step.erase)
      (oneStmt (← body.erase .inner false []))]
  | .forIn head object body =>
    return [.forIn (← eraseHead head) (← object.erase) (oneStmt (← body.erase .inner false []))]
  | .forOf isAwait head items body =>
    return [.forOf isAwait (← eraseHead head) (← items.erase)
      (oneStmt (← body.erase .inner false []))]
  | .whileLoop test body =>
    return [.whileLoop (← test.erase) (oneStmt (← body.erase .inner false []))]
  | .doWhile body test => do
    let body ← body.erase .inner false []
    return [.doWhile (oneStmt body) (← test.erase)]
  | .returnValue value => return [.returnValue (← value.erase)]
  | .throwValue value => return [.throwValue (← value.erase)]
  | .tryCatch body target handler =>
    return [.tryCatch (← eraseBody .inner [] body) (← target.erase)
      (← eraseBody .inner [] handler)]
  | .tryFinally body finalizer =>
    return [.tryFinally (← eraseBody .inner [] body) (← eraseBody .inner [] finalizer)]
  | .tryCatchFinally body target handler finalizer =>
    return [.tryCatchFinally (← eraseBody .inner [] body) (← target.erase)
      (← eraseBody .inner [] handler) (← eraseBody .inner [] finalizer)]
  | .switch value cases => return [.switch (← value.erase) (← eraseCases cases)]
  | .labeled label body => return [.labeled label (oneStmt (← body.erase .inner false []))]
  | .withObject object body =>
    return [.withObject (← object.erase) (oneStmt (← body.erase .inner false []))]
  | .exportDecl declaration => declaration.erase p true before
  | .exportDefault e => return [.exportDefault (← e.erase)]
  | .exportDefaultDecl declaration =>
    return (← declaration.erase .top false before).map .exportDefaultDecl
  | .typeDecl name => return p.keep isExported (.typeDecl name)
  | .declared s => return p.keep isExported (.declared s)
  | .enumDecl _ name members closing => do
    let erased ← eraseProperties members
    enumStmts p isExported (before.contains name) name members erased closing
  | .namespaceDecl names body => do
    if p = .inner || !bodyIsAboutValues body then return []
    let names ← insideNames names
    let left ← eraseBody (.space (innermost names)) [] body
    if left.all Stmt.directs && !body.any Stmt.onlyDeclares then return []
    let isDeclared := names.any fun n => before.contains n.1
    return nestedSpaces p isExported isDeclared left names
  | .ambientModule _ => return []
  | .importEquals isType name names =>
    if isExported && !isType then return p.exported [name] (aliasStmt name names)
    else if p = .top then return [.importEquals isType name names]
    else if isType then return []
    else return [aliasStmt name names]
  | .importRequire isType name source =>
    if isExported && !isType then return p.exported [name] (requireStmt name source)
    else if p = .top then return [.importRequire isType name source]
    else if isType then return []
    else return [requireStmt name source]
  | .exportAssign e =>
    return [.expr (.assign .plain (.member (.ident "module") "exports" false) (← e.erase))]
  | .exportAsNamespace _ => return []
  | .exportNamed isType specifiers source attributes =>
    match p with
    | .top => return [.exportNamed isType specifiers source attributes]
    | _ => return []
  | s => return [s]

/-- What is left of the head of a loop. -/
def eraseHead : Stmt → Compile Stmt
  | .variables kind declarators => return .variables kind (← eraseAll declarators)
  | .expr e => return .expr (← e.erase)
  | s => return s

/-- What is left of the statements of a body behind declarations of some names. -/
def eraseBody (p : Enclosing) (before : List String) : List Stmt → Compile (List Stmt)
  | [] => return []
  | s :: rest => do
    let left ← s.erase p false before
    return left ++ (← eraseBody p (before ++ s.mergedNames) rest)

/-- What is left of a case. -/
def Case.erase : Case → Compile Case
  | .mk test body => return .mk (← test.erase) (← eraseBody .inner [] body)

/-- What is left of several cases. -/
def eraseCases : List Case → Compile (List Case)
  | [] => return []
  | c :: rest => return (← c.erase) :: (← eraseCases rest)

end

end ModuleLoader.Syntax
