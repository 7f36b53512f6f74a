import ModuleLoader.Syntax.Tree

/-! # References to modules

The specifiers that a program imports by, in the order of the text.

* **`Reference`** is a specifier, with whether it is only used by `import()`.
* **`mergeReferences`** joins the references by the same specifier.
* **`Stmt.references`** lists the references of a statement, each time they occur. -/

namespace ModuleLoader

/-- A specifier that a module imports by. -/
structure Reference where
  /-- The specifier as it is read. -/
  specifier : String
  /-- It is reached by `import()`, so the module it names is not evaluated with this one. -/
  isDynamic : Bool
deriving DecidableEq, Repr, Inhabited

/-! ## One reference for each specifier -/

/-- Adds a reference; one by a specifier that is there is dynamic only if both are. -/
def addReference (refs : List Reference) (r : Reference) : List Reference :=
  if refs.any (·.specifier = r.specifier) then
    refs.map fun q =>
      if q.specifier = r.specifier then { q with isDynamic := q.isDynamic && r.isDynamic } else q
  else refs ++ [r]

/-- One reference for each specifier, in the order of their first uses, dynamic when all uses
are. -/
def mergeReferences (refs : List Reference) : List Reference :=
  refs.foldl addReference []

/-- The specifiers of references that are merged are those of all of them. -/
theorem specifier_mem_addReference (refs : List Reference) (r : Reference) (s : String) :
    s ∈ (addReference refs r).map Reference.specifier ↔
      s = r.specifier ∨ s ∈ refs.map Reference.specifier := by
  unfold addReference
  split
  · rename_i h
    obtain ⟨q, hq, he⟩ := List.any_eq_true.1 h
    have he : q.specifier = r.specifier := by simpa using he
    have hm : (refs.map fun q =>
        if q.specifier = r.specifier then { q with isDynamic := q.isDynamic && r.isDynamic }
        else q).map Reference.specifier = refs.map Reference.specifier := by
      rw [List.map_map]
      apply List.map_congr_left
      intro q _
      by_cases h : q.specifier = r.specifier <;> simp [h]
    rw [hm]
    constructor
    · exact Or.inr
    · rintro (rfl | h)
      · exact List.mem_map.2 ⟨q, hq, he⟩
      · exact h
  · simp [or_comm]

namespace Syntax

/-! ## References in a program -/

/-- The reference of a declaration. -/
def staticReference (source : StringLiteral) : List Reference := [⟨source.value, false⟩]

/-- The reference of an `import()`, if its specifier is written as a string. -/
def dynamicReference : Expr → List Reference
  | .string literal => [⟨literal.value, true⟩]
  | .commented _ e => dynamicReference e
  | _ => []

mutual

/-- The references in an expression. -/
def Expr.references : Expr → List Reference
  | .template _ parts => elementReferences parts
  | .taggedTemplate tag _ parts => tag.references ++ elementReferences parts
  | .array elements => elementReferences elements
  | .object properties => propertyReferences properties
  | .function _ _ params body => elementReferences params ++ bodyReferences body
  | .arrow _ params body => elementReferences params ++ bodyReferences body
  | .arrowTo _ params body => elementReferences params ++ body.references
  | .classExpr decorators _ base members =>
    elementReferences decorators ++ base.references ++ memberReferences members
  | .unary _ operand => operand.references
  | .update _ _ target => target.references
  | .binary _ left right => left.references ++ right.references
  | .assign _ target value => target.references ++ value.references
  | .conditional test whenTrue whenFalse =>
    test.references ++ whenTrue.references ++ whenFalse.references
  | .sequence parts => elementReferences parts
  | .member object _ _ => object.references
  | .privateMember object _ _ => object.references
  | .index object key _ => object.references ++ key.references
  | .call callee args _ _ _ => callee.references ++ elementReferences args
  | .new callee args _ _ => callee.references ++ elementReferences args
  | .chain e => e.references
  | .importCall _ source options _ =>
    dynamicReference source ++ source.references ++ options.references
  | .yield _ value => value.references
  | .await value => value.references
  | .spread e => e.references
  | .paren e => e.references
  | .computed e => e.references
  | .typed _ e => e.references
  | .decorated decorators e => elementReferences decorators ++ e.references
  | .parameterProperty target => target.references
  | .commented _ e => e.references
  | .remarked _ e => e.references
  | .effectFree e => e.references
  | .beforeComma e => e.references
  | .element _ _ _ _ attributes children =>
    propertyReferences attributes ++ elementReferences children
  | .fragment _ children => elementReferences children
  | .container e => e.references
  | _ => []

/-- The references in a list of expressions. -/
def elementReferences : List Expr → List Reference
  | [] => []
  | e :: rest => e.references ++ elementReferences rest

/-- The references in a list of properties. -/
def propertyReferences : List Property → List Reference
  | [] => []
  | p :: rest => p.references ++ propertyReferences rest

/-- The references in a property. -/
def Property.references : Property → List Reference
  | .value key value _ => key.references ++ value.references
  | .method _ key _ params body =>
    key.references ++ elementReferences params ++ bodyReferences body
  | .spread e => e.references
  | .jsxAttribute _ _ value => value.references

/-- The references in the members of a class. -/
def memberReferences : List Member → List Reference
  | [] => []
  | m :: rest => m.references ++ memberReferences rest

/-- The references in a member of a class. -/
def Member.references : Member → List Reference
  | .method _ decorators _ _ key _ params body =>
    elementReferences decorators ++ key.references ++ elementReferences params ++
      bodyReferences body
  | .field _ decorators _ key value =>
    elementReferences decorators ++ key.references ++ value.references
  | .staticBlock _ body => bodyReferences body
  | .signature key params => key.references ++ elementReferences params

/-- The references in a list of statements. -/
def bodyReferences : List Stmt → List Reference
  | [] => []
  | s :: rest => s.references ++ bodyReferences rest

/-- The references in a statement. -/
def Stmt.references : Stmt → List Reference
  | .commented _ s => s.references
  | .expr e => e.references
  | .block body => bodyReferences body
  | .variables _ declarators => elementReferences declarators
  | .function _ _ params body => elementReferences params ++ bodyReferences body
  | .signature _ params => elementReferences params
  | .classDecl decorators _ base members =>
    elementReferences decorators ++ base.references ++ memberReferences members
  | .ifThen test body => test.references ++ body.references
  | .ifElse test whenTrue whenFalse =>
    test.references ++ whenTrue.references ++ whenFalse.references
  | .forLoop head test step body =>
    head.references ++ test.references ++ step.references ++ body.references
  | .forIn head object body => head.references ++ object.references ++ body.references
  | .forOf _ head items body => head.references ++ items.references ++ body.references
  | .whileLoop test body => test.references ++ body.references
  | .doWhile body test => body.references ++ test.references
  | .returnValue value => value.references
  | .throwValue value => value.references
  | .tryCatch body target handler =>
    bodyReferences body ++ target.references ++ bodyReferences handler
  | .tryFinally body finalizer => bodyReferences body ++ bodyReferences finalizer
  | .tryCatchFinally body target handler finalizer =>
    bodyReferences body ++ target.references ++ bodyReferences handler ++
      bodyReferences finalizer
  | .switch value cases => value.references ++ caseReferences cases
  | .labeled _ body => body.references
  | .withObject object body => object.references ++ body.references
  | .importDecl _ _ _ source _ => staticReference source
  | .exportNamed _ _ (some source) _ => staticReference source
  | .exportAll _ _ source _ => staticReference source
  | .exportDecl declaration => declaration.references
  | .exportDefault e => e.references
  | .exportDefaultDecl declaration => declaration.references
  | .declared s => s.references
  | .enumDecl _ _ members _ => propertyReferences members
  | .namespaceDecl _ body => bodyReferences body
  | .ambientModule body => bodyReferences body
  | .exportAssign e => e.references
  | _ => []

/-- The references in the cases of a `switch`. -/
def caseReferences : List Case → List Reference
  | [] => []
  | c :: rest => c.references ++ caseReferences rest

/-- The references in one case of a `switch`. -/
def Case.references : Case → List Reference
  | .mk test body => test.references ++ bodyReferences body

end

end Syntax

end ModuleLoader
