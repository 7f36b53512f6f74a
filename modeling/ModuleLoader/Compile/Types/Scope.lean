import ModuleLoader.Compile.Scope

/-! # Namespaces, aliases and fields

* **`Enclosing`** is where a declaration stands.
* **`namespaceStmts`** compiles a namespace to a variable and a call that fills it.
* **`aliasStmt`**, **`requireStmt`** compile imports that are written as assignments.
* **`assignProperties`** sets the fields that a constructor declares by its parameters. -/

namespace ModuleLoader.Syntax

/-- Where a declaration stands. -/
inductive Enclosing
  /-- Among the statements of the module. -/
  | top
  /-- In a namespace, whose object has the given name inside of it. -/
  | space (object : String)
  /-- In any other body. -/
  | inner
deriving DecidableEq, Repr, Inhabited

/-! ## Exports -/

/-- Sets a property of an object to the variable of the same name. -/
def assignName (object name : String) : Expr :=
  .assign .plain (.member (.ident object) name false) (.ident name)

/-- A declaration of some names as it is exported from where it stands. -/
def Enclosing.exported (p : Enclosing) (names : List String) (s : Stmt) : List Stmt :=
  match p with
  | .top => [.exportDecl s]
  | .space object => s :: names.map fun name => .expr (assignName object name)
  | .inner => [s]

/-- A declaration of some names, exported if that is asked for. -/
def Enclosing.declare (p : Enclosing) (isExported : Bool) (names : List String) (s : Stmt) :
    List Stmt :=
  if isExported then p.exported names s else [s]

/-- The declarator of a constant whose value becomes a property of a namespace as well. -/
def exportDeclarator (object : String) : Expr → Expr
  | .assign op (.ident name) value =>
    .assign op (.ident name) (.assign .plain (.member (.ident object) name false) value)
  | e => e

/-- The declarator binds a plain name. -/
def isPlainDeclarator : Expr → Bool
  | .ident _ | .assign _ (.ident _) _ => true
  | _ => false

/-- Variables that are exported from a namespace. Behind a pattern all names are set at once. -/
def spaceVariables (object : String) (kind : VariableKind) (declarators : List Expr) : List Stmt :=
  if declarators.all isPlainDeclarator then
    [.variables kind (declarators.map (exportDeclarator object))]
  else
    [.variables kind declarators,
      .expr (.sequence ((elementNames declarators).map (assignName object)))]

/-- Variables, exported if that is asked for. -/
def Enclosing.variables (p : Enclosing) (isExported : Bool) (kind : VariableKind)
    (declarators : List Expr) : List Stmt :=
  match p, isExported with
  | .space object, true => spaceVariables object kind declarators
  | p, _ => p.declare isExported [] (.variables kind declarators)

/-! ## Namespaces -/

/-- An object that a variable holds, which it is set to if it holds none. -/
def heldObject (target : Expr) (object : Expr) : Expr :=
  .binary .or target (.assign .plain target object)

/-- Compiles a namespace with the given body, in which its object is called `inside`. It is a
property of the namespace around it if it is exported from there. -/
def namespaceStmts (p : Enclosing) (isExported isDeclared : Bool) (name inside : String)
    (body : List Stmt) : List Stmt :=
  let nothing := Expr.object []
  let outer := match p, isExported with
    | .space object, true => heldObject (.member (.ident object) name false) nothing
    | _, _ => nothing
  let declaration : List Stmt :=
    if isDeclared then []
    else
      let s := Stmt.variables .letVar [.ident name]
      if isExported && p = .top then [.exportDecl s] else [s]
  declaration ++
    [.expr (.call (.function ⟨false, false⟩ none [.ident inside] body)
      [heldObject (.ident name) outer] [] false false)]

mutual

/-- The statement of a namespace says something about values, and not only about types. -/
def Stmt.isAboutValues : Stmt → Bool
  | .commented _ s => s.isAboutValues
  | .remarks _ => false
  | .directive .. => false
  | .typeDecl _ => false
  | .importDecl .. => false
  | .importEquals .. => false
  | .importRequire .. => false
  | .exportDecl (.importEquals ..) => true
  | .exportDecl (.importRequire ..) => true
  | .exportDecl s => s.isAboutValues
  | .declared s => s.isAboutValues
  | .namespaceDecl _ body => bodyIsAboutValues body
  | _ => true

/-- Some statement of a namespace says something about values. -/
def bodyIsAboutValues : List Stmt → Bool
  | [] => false
  | s :: rest => s.isAboutValues || bodyIsAboutValues rest

end

/-- The statement declares only that a value is there, without exporting it. A namespace with it
stays, although nothing is left of it. -/
def Stmt.onlyDeclares (s : Stmt) : Bool :=
  match s.bare with
  | .declared (.namespaceDecl ..) | .declared (.typeDecl _) => false
  | .declared _ | .signature .. => true
  | _ => false

/-! ## Other names -/

/-- A variable for another name of a value. -/
def aliasStmt (name : String) (names : List String) : Stmt :=
  match names with
  | first :: rest =>
    .variables .var [.assign .plain (.ident name)
      (rest.foldl (fun e name => .member e name false) (.ident first))]
  | [] => .empty

/-- A constant for a required module. -/
def requireStmt (name : String) (source : StringLiteral) : Stmt :=
  .variables .const [.assign .plain (.ident name)
    (.call (.ident "require") [.string source] [] false false)]

/-! ## Parameters that are fields -/

/-- The names of the parameters that are fields as well. -/
def fieldNames : List Expr → List String
  | [] => []
  | .parameterProperty target :: rest => target.boundNames ++ fieldNames rest
  | .decorated _ (.parameterProperty target) :: rest => target.boundNames ++ fieldNames rest
  | .assign _ (.parameterProperty target) _ :: rest => target.boundNames ++ fieldNames rest
  | _ :: rest => fieldNames rest

/-- The statement calls the constructor of the base of a class. -/
def Stmt.callsSuper (s : Stmt) : Bool :=
  match s.bare with
  | .expr (.call .super ..) => true
  | _ => false

/-- Sets fields to the parameters of their names. -/
def fieldStmts (names : List String) : List Stmt :=
  names.map fun name => .expr (.assign .plain (.member .this name false) (.ident name))

/-- Puts statements behind the first of some statements that calls the constructor of the base,
if there is one. -/
def insertBehindSuper (added : List Stmt) : List Stmt → Option (List Stmt)
  | [] => none
  | s :: rest =>
    if s.callsSuper then some (s :: added ++ rest)
    else (insertBehindSuper added rest).map (s :: ·)

/-- The statement is a directive of its body. -/
def Stmt.directs (s : Stmt) : Bool :=
  match s.bare with
  | .directive .. => true
  | _ => false

/-- The body of a constructor that sets the fields first: at its start, or as soon as the base has
been constructed. -/
def assignProperties (names : List String) (body : List Stmt) : List Stmt :=
  if names.isEmpty then body
  else
    match insertBehindSuper (fieldStmts names) body with
    | some body => body
    | none =>
      body.takeWhile Stmt.directs ++ fieldStmts names ++ body.dropWhile Stmt.directs

end ModuleLoader.Syntax
