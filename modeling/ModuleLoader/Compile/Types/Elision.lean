import ModuleLoader.Compile.Types.Scope

/-! # Imports and exports of types

An import that is never used as a value is an import of a type and is left out, and so is an export
of a name that stands for a type alone. A module whose imports and exports have all been left out
is still a module.

* **`TypeNames.ofBody`** finds the names that stand for types alone.
* **`elide`** leaves out imports and exports of types.
* **`lostAll`** says that a module must be marked as one. -/

namespace ModuleLoader.Syntax

/-! ## Names for types -/

/-- The names that a statement of a module declares as types, and those it declares as values. -/
structure TypeNames where
  /-- Names of types. -/
  types : List String
  /-- Names of values. -/
  values : List String
deriving DecidableEq, Repr, Inhabited

namespace TypeNames

/-- The names of two statements. -/
def join (a b : TypeNames) : TypeNames := ⟨a.types ++ b.types, a.values ++ b.values⟩

/-- The names that an import binds. -/
def ofClause (isType : Bool) (c : ImportClause) : TypeNames :=
  let named := c.named?.getD []
  let plain := c.default?.toList ++ c.whole?.toList
  if isType then ⟨plain ++ named.map (·.bound), []⟩
  else
    ⟨(named.filter (·.isType)).map (·.bound),
      plain ++ (named.filter (!·.isType)).map (·.bound)⟩

/-- The names that a statement declares. -/
def ofStmt : Stmt → TypeNames
  | .commented _ s => ofStmt s
  | .exportDecl s => ofStmt s
  | .exportDefaultDecl s => ofStmt s
  | .typeDecl name => ⟨[name], []⟩
  | .declared s => ⟨s.declaredNames, []⟩
  | .importDecl _ isType (some clause) _ _ => ofClause isType clause
  | .importEquals isType name _ => if isType then ⟨[name], []⟩ else ⟨[], [name]⟩
  | .importRequire isType name _ => if isType then ⟨[name], []⟩ else ⟨[], [name]⟩
  | s => ⟨[], s.declaredNames⟩

/-- The names that statements declare. -/
def ofBody (body : List Stmt) : TypeNames :=
  (body.map ofStmt).foldl join ⟨[], []⟩

/-- The name stands for a type alone. -/
def isTypeOnly (n : TypeNames) (name : String) : Bool :=
  n.types.contains name && !n.values.contains name

end TypeNames

/-! ## Leaving out -/

/-- What decides whether a name is needed. -/
structure Needs where
  /-- The names of types. -/
  typeNames : TypeNames
  /-- There are elements, which need a name of their own. -/
  hasElements : Bool
  /-- The statements of the module. -/
  body : List Stmt

namespace Needs

/-- An imported name is used as a value. -/
def keeps (n : Needs) (name : String) : Bool :=
  n.hasElements && name == "React" || bodyUses name n.body

/-- What is left of an import: the clause, or nothing at all. -/
def clause? (n : Needs) (c : ImportClause) : Option (Option ImportClause) :=
  if c = ⟨none, none, some []⟩ then some none
  else
    let named := (c.named?.getD []).filter fun s => !s.isType && n.keeps s.bound
    let left : ImportClause :=
      ⟨c.default?.filter n.keeps, c.whole?.filter n.keeps,
        if named.isEmpty then none else some named⟩
    if left = ⟨none, none, none⟩ then none else some (some left)

/-- What is left of a statement of a module. -/
def elide (n : Needs) : Stmt → Option Stmt
  | .commented comments s => (n.elide s).map (.commented comments)
  | .importDecl phase isType clause source attributes =>
    if isType then none
    else
      match clause with
      | none => some (.importDecl phase false none source attributes)
      | some c => (n.clause? c).map fun c => .importDecl phase false c source attributes
  | .exportNamed isType specifiers source attributes =>
    if isType then none
    else if specifiers.isEmpty then some (.exportNamed false [] source attributes)
    else
      let left := specifiers.filter fun s =>
        !s.isType && (source.isSome || !n.typeNames.isTypeOnly s.bound.text)
      if left.isEmpty then none else some (.exportNamed false left source attributes)
  | .exportAll isType exported source attributes =>
    if isType then none else some (.exportAll false exported source attributes)
  | .exportDecl (.typeDecl _) | .exportDecl (.declared _) | .exportDecl (.signature _ _) => none
  | .exportDefaultDecl (.typeDecl _) | .exportDefaultDecl (.declared _)
  | .exportDefaultDecl (.signature _ _) => none
  | .exportDefault (.ident name) =>
    if n.typeNames.isTypeOnly name then none else some (.exportDefault (.ident name))
  | .typeDecl _ | .declared _ | .signature _ _ => none
  | .importEquals isType name names =>
    if isType || !n.keeps name then none else some (aliasStmt name names)
  | .importRequire isType name source =>
    if isType || !n.keeps name then none else some (requireStmt name source)
  | s => some s

end Needs

/-! ## Modules -/

/-- The statement makes a text a module. -/
def Stmt.isModular (s : Stmt) : Bool :=
  match s.bare with
  | .importDecl .. | .exportNamed .. | .exportAll .. | .exportDecl .. | .exportDefault ..
  | .exportDefaultDecl .. => true
  | _ => false

/-- All that made a text a module has been left out. -/
def lostAll (before after : List Stmt) : Bool :=
  before.any Stmt.isModular && !after.any Stmt.isModular

/-- The statement that makes a text a module and does nothing else. -/
def moduleMarker : Stmt := .exportNamed false [] none none

end ModuleLoader.Syntax
