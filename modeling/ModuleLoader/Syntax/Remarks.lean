import ModuleLoader.Syntax.Tree

/-! # Comments that stay

Comments before an object stay with it, and a call keeps the comments before its arguments. Where
an argument starts with an object, the comments before it are those of the call. A comment that a
function has no effect when called stays with the function.

* **`Expr.withoutRemarks`** is an expression whose first token is not an object with comments.
* **`Expr.asArgument`** is an expression that a call keeps comments of.
* **`Expr.markEffectFree`**, **`Stmt.markEffectFree`** mark functions as having no effect. -/

namespace ModuleLoader.Syntax

/-- An expression with the comments before it, if there are any. -/
def withComments (comments : List Comment) (e : Expr) : Expr :=
  if comments.isEmpty then e else .commented comments e

/-- An object with the comments before it, if there are any. -/
def withRemarks (comments : List Comment) (e : Expr) : Expr :=
  if comments.isEmpty then e else .remarked comments e

mutual

/-- An expression without the comments before the object that it starts with. -/
def Expr.withoutRemarks : Expr → Expr
  | .remarked _ e => e
  | .taggedTemplate tag texts parts => .taggedTemplate tag.withoutRemarks texts parts
  | .update op false target => .update op false target.withoutRemarks
  | .binary op left right => .binary op left.withoutRemarks right
  | .assign op target value => .assign op target.withoutRemarks value
  | .conditional test whenTrue whenFalse =>
    .conditional test.withoutRemarks whenTrue whenFalse
  | .sequence parts => .sequence (withoutFirstRemarks parts)
  | .member object name isOptional => .member object.withoutRemarks name isOptional
  | .privateMember object name isOptional =>
    .privateMember object.withoutRemarks name isOptional
  | .index object key isOptional => .index object.withoutRemarks key isOptional
  | .call callee args closing isOptional isPure =>
    .call callee.withoutRemarks args closing isOptional isPure
  | .chain e => .chain e.withoutRemarks
  | .typed .angle e => .typed .angle e
  | .typed form e => .typed form e.withoutRemarks
  | e => e

/-- Expressions, the first of which has no comments before the object that it starts with. -/
def withoutFirstRemarks : List Expr → List Expr
  | [] => []
  | e :: rest => e.withoutRemarks :: rest

end

/-- An expression with comments as an argument: a call keeps them, and no object in it. -/
def Expr.asArgument : Expr → Expr
  | .commented comments e => .commented comments e.withoutRemarks
  | e => e

/-- An expression without the comments before it as an argument. -/
def Expr.withoutComments : Expr → Expr
  | .commented _ e => e.withoutComments
  | e => e

/-! ## Functions without effect -/

/-- Marks a function as having no effect when called; other expressions stay. -/
def Expr.markEffectFree : Expr → Expr
  | .function kind name params body => .effectFree (.function kind name params body)
  | .arrow isAsync params body => .effectFree (.arrow isAsync params body)
  | .arrowTo isAsync params body => .effectFree (.arrowTo isAsync params body)
  | e => e

/-- The comment that a function has no effect when called. -/
def effectFreeMark : String := "/* @__NO_SIDE_EFFECTS__ */"

/-- Marks the function that the first of some constants is. -/
def markFirstEffectFree : List Expr → List Expr
  | .assign op target value :: rest => .assign op target value.markEffectFree :: rest
  | declarators => declarators

/-- A statement with the mark of a function without effect on a line of its own. -/
def Stmt.withEffectFreeMark (s : Stmt) : Stmt := .commented [⟨effectFreeMark, false, false, true⟩] s

/-- Marks the function that a statement declares or exports as having no effect when called. -/
def Stmt.markEffectFree : Stmt → Stmt
  | .function kind name params body => (Stmt.function kind name params body).withEffectFreeMark
  | .exportDecl (.function kind name params body) =>
    (Stmt.exportDecl (.function kind name params body)).withEffectFreeMark
  | .exportDefaultDecl (.function kind name params body) =>
    (Stmt.exportDefaultDecl (.function kind name params body)).withEffectFreeMark
  | .exportDefault e => .exportDefault e.markEffectFree
  | .variables .const declarators => .variables .const (markFirstEffectFree declarators)
  | .exportDecl (.variables .const declarators) =>
    .exportDecl (.variables .const (markFirstEffectFree declarators))
  | s => s

end ModuleLoader.Syntax
