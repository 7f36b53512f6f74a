import ModuleLoader.Syntax.Tree

/-! # Names that are bound and exported

* **`Expr.boundNames`** lists the names that a target binds.
* **`Stmt.exportedNames`** lists the names under which a statement exports something. -/

namespace ModuleLoader.Syntax

/-! ## Bound names -/

mutual

/-- The names that a target binds, in order. -/
def Expr.boundNames : Expr → List String
  | .ident name => [name]
  | .array elements => elementNames elements
  | .object properties => propertyNames properties
  | .assign _ target _ => target.boundNames
  | .spread e => e.boundNames
  | .decorated _ e => e.boundNames
  | .parameterProperty e => e.boundNames
  | _ => []

/-- The names that a list of targets binds, in order. -/
def elementNames : List Expr → List String
  | [] => []
  | e :: rest => e.boundNames ++ elementNames rest

/-- The names that the properties of a target bind, in order. -/
def propertyNames : List Property → List String
  | [] => []
  | .value _ value _ :: rest => value.boundNames ++ propertyNames rest
  | .spread e :: rest => e.boundNames ++ propertyNames rest
  | _ :: rest => propertyNames rest

end

/-! ## Exported names -/

/-- A statement without the comments before it. -/
def Stmt.bare : Stmt → Stmt
  | .commented _ s => s.bare
  | s => s

/-- The names that a declaration binds. -/
def Stmt.declaredNames : Stmt → List String
  | .commented _ s => s.declaredNames
  | .variables _ declarators => elementNames declarators
  | .function _ (some name) _ _ => [name]
  | .classDecl _ (some name) _ _ => [name]
  | .enumDecl _ name _ _ => [name]
  | .namespaceDecl (name :: _) _ => [name]
  | .importEquals _ name _ => [name]
  | .importRequire _ name _ => [name]
  | _ => []

/-- The names under which a statement exports something. -/
def Stmt.exportedNames : Stmt → List String
  | .commented _ s => s.exportedNames
  | .exportDecl s => s.declaredNames
  | .exportNamed _ specifiers _ _ => specifiers.map fun s => s.exported.text
  | .exportDefault _ => ["default"]
  | .exportDefaultDecl _ => ["default"]
  | .exportAll _ (some exported) _ _ => [exported.text]
  | _ => []

/-- The names under which the statements of a module export something, in order. -/
def exportedNames (body : List Stmt) : List String := body.flatMap Stmt.exportedNames

/-- The names of a module are those of its parts. -/
@[simp] theorem exportedNames_append (xs ys : List Stmt) :
    exportedNames (xs ++ ys) = exportedNames xs ++ exportedNames ys := by
  simp [exportedNames]

end ModuleLoader.Syntax
