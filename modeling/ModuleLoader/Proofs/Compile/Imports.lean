import ModuleLoader.Compile.State
import ModuleLoader.Imports.Reference

/-! # The imports of a program

Where a program imports is read off its tree: by declarations, and by calls of `import()`. What the
scan reports of them is one thing; what is left when the types beside expressions are left out is
another, and it is what compiled programs keep.

* **`bodyImports`** lists the imports of some statements, in the order of the text.
* **`bodyReferences_eq`** says that the references of a scan are those of these imports.
* **`Expr.literal?`** is the text that an expression is when comments and types are left out.
* **`Import.Within`** says that imports go where others go.
* **`Compile.Carries`** is a step of a compilation whose result imports nothing new, but for the
  packages that compiled code needs. -/

namespace ModuleLoader

/-! ## References that are merged -/

/-- A specifier is that of a merged reference if it is that of one of the references. -/
theorem specifier_mem_mergeReferences {refs : List Reference} {x : String} :
    x ∈ (mergeReferences refs).map Reference.specifier ↔ x ∈ refs.map Reference.specifier := by
  have hfold : ∀ merged : List Reference,
      x ∈ (refs.foldl addReference merged).map Reference.specifier ↔
        x ∈ merged.map Reference.specifier ∨ x ∈ refs.map Reference.specifier := by
    induction refs with
    | nil => exact fun merged => (or_iff_left (List.not_mem_nil)).symm
    | cons r refs ih =>
      intro merged
      rw [List.foldl_cons, ih, specifier_mem_addReference, List.map_cons, List.mem_cons,
        or_comm (a := x = r.specifier), or_assoc]
  exact (hfold []).trans (or_iff_right List.not_mem_nil)

/-- A reference is there as one that is not dynamic if it was, or if it is added as one. -/
theorem static_mem_addReference {refs : List Reference} {r : Reference} {x : String} :
    ⟨x, false⟩ ∈ addReference refs r ↔ ⟨x, false⟩ ∈ refs ∨ r = ⟨x, false⟩ := by
  unfold addReference
  split
  · rename_i hany
    obtain ⟨old, hold, hsame⟩ := List.any_eq_true.1 hany
    rw [decide_eq_true_eq] at hsame
    rw [List.mem_map]
    constructor
    · rintro ⟨⟨y, isDynamic⟩, hq, he⟩
      split at he
      · obtain ⟨rfl, hdynamic⟩ := Reference.mk.injEq .. ▸ he
        cases isDynamic with
        | false => exact .inl hq
        | true => exact .inr (by cases r; simp_all)
      · exact .inl (he ▸ hq)
    · rintro (hx | rfl)
      · exact ⟨_, hx, by split <;> rfl⟩
      · exact ⟨old, hold, by simp [hsame]⟩
  · rw [List.mem_append, List.mem_singleton, eq_comm (a := r)]

/-- A merged reference is not dynamic if one of the references by its specifier is not. -/
theorem static_mem_mergeReferences {refs : List Reference} {x : String} :
    ⟨x, false⟩ ∈ mergeReferences refs ↔ ⟨x, false⟩ ∈ refs := by
  have hfold : ∀ merged : List Reference,
      ⟨x, false⟩ ∈ refs.foldl addReference merged ↔ ⟨x, false⟩ ∈ merged ∨ ⟨x, false⟩ ∈ refs := by
    induction refs with
    | nil => exact fun merged => (or_iff_left (List.not_mem_nil)).symm
    | cons r refs ih =>
      intro merged
      rw [List.foldl_cons, ih, static_mem_addReference, List.mem_cons, or_assoc, eq_comm]
  exact (hfold []).trans (or_iff_right List.not_mem_nil)

namespace Syntax

/-! ## Imports -/

/-- One import in a program. -/
inductive Import
  /-- A declaration that imports, or exports from a module. -/
  | declaration (source : StringLiteral)
  /-- An `import()`, with what it is called on. -/
  | call (source : Expr)

/-- The references that a scan takes from an import: none from an `import()` of anything else than a
string. -/
def Import.references : Import → List Reference
  | .declaration source => staticReference source
  | .call source => dynamicReference source

/-- The text that an expression is when comments and types are left out, if it is one. -/
def Expr.literal? : Expr → Option String
  | .string literal => some literal.value
  | .commented _ e => e.literal?
  | .typed _ e => e.literal?
  | .parameterProperty e => e.literal?
  | _ => none

/-- What an import refers to when comments and types are left out. -/
def Import.reference? : Import → Option Reference
  | .declaration source => some ⟨source.value, false⟩
  | .call source => source.literal?.map fun specifier => ⟨specifier, true⟩

mutual

/-- The imports in an expression. -/
def Expr.imports : Expr → List Import
  | .template _ parts => elementImports parts
  | .taggedTemplate tag _ parts => tag.imports ++ elementImports parts
  | .array elements => elementImports elements
  | .object properties => propertyImports properties
  | .function _ _ params body => elementImports params ++ bodyImports body
  | .arrow _ params body => elementImports params ++ bodyImports body
  | .arrowTo _ params body => elementImports params ++ body.imports
  | .classExpr decorators _ base members =>
    elementImports decorators ++ base.imports ++ memberImports members
  | .unary _ operand => operand.imports
  | .update _ _ target => target.imports
  | .binary _ left right => left.imports ++ right.imports
  | .assign _ target value => target.imports ++ value.imports
  | .conditional test whenTrue whenFalse =>
    test.imports ++ whenTrue.imports ++ whenFalse.imports
  | .sequence parts => elementImports parts
  | .member object _ _ => object.imports
  | .privateMember object _ _ => object.imports
  | .index object key _ => object.imports ++ key.imports
  | .call callee args _ _ _ => callee.imports ++ elementImports args
  | .new callee args _ _ => callee.imports ++ elementImports args
  | .chain e => e.imports
  | .importCall _ source options _ =>
    .call source :: source.imports ++ options.imports
  | .yield _ value => value.imports
  | .await value => value.imports
  | .spread e => e.imports
  | .paren e => e.imports
  | .computed e => e.imports
  | .typed _ e => e.imports
  | .decorated decorators e => elementImports decorators ++ e.imports
  | .parameterProperty target => target.imports
  | .commented _ e => e.imports
  | .remarked _ e => e.imports
  | .effectFree e => e.imports
  | .beforeComma e => e.imports
  | .element _ _ _ _ attributes children =>
    propertyImports attributes ++ elementImports children
  | .fragment _ children => elementImports children
  | .container e => e.imports
  | _ => []

/-- The imports in a list of expressions. -/
def elementImports : List Expr → List Import
  | [] => []
  | e :: rest => e.imports ++ elementImports rest

/-- The imports in a list of properties. -/
def propertyImports : List Property → List Import
  | [] => []
  | p :: rest => p.imports ++ propertyImports rest

/-- The imports in a property. -/
def Property.imports : Property → List Import
  | .value key value _ => key.imports ++ value.imports
  | .method _ key _ params body =>
    key.imports ++ elementImports params ++ bodyImports body
  | .spread e => e.imports
  | .jsxAttribute _ _ value => value.imports

/-- The imports in the members of a class. -/
def memberImports : List Member → List Import
  | [] => []
  | m :: rest => m.imports ++ memberImports rest

/-- The imports in a member of a class. -/
def Member.imports : Member → List Import
  | .method _ decorators _ _ key _ params body =>
    elementImports decorators ++ key.imports ++ elementImports params ++
      bodyImports body
  | .field _ decorators _ key value =>
    elementImports decorators ++ key.imports ++ value.imports
  | .staticBlock _ body => bodyImports body
  | .signature key params => key.imports ++ elementImports params

/-- The imports in a list of statements. -/
def bodyImports : List Stmt → List Import
  | [] => []
  | s :: rest => s.imports ++ bodyImports rest

/-- The imports in a statement. -/
def Stmt.imports : Stmt → List Import
  | .commented _ s => s.imports
  | .expr e => e.imports
  | .block body => bodyImports body
  | .variables _ declarators => elementImports declarators
  | .function _ _ params body => elementImports params ++ bodyImports body
  | .signature _ params => elementImports params
  | .classDecl decorators _ base members =>
    elementImports decorators ++ base.imports ++ memberImports members
  | .ifThen test body => test.imports ++ body.imports
  | .ifElse test whenTrue whenFalse =>
    test.imports ++ whenTrue.imports ++ whenFalse.imports
  | .forLoop head test step body =>
    head.imports ++ test.imports ++ step.imports ++ body.imports
  | .forIn head object body => head.imports ++ object.imports ++ body.imports
  | .forOf _ head items body => head.imports ++ items.imports ++ body.imports
  | .whileLoop test body => test.imports ++ body.imports
  | .doWhile body test => body.imports ++ test.imports
  | .returnValue value => value.imports
  | .throwValue value => value.imports
  | .tryCatch body target handler =>
    bodyImports body ++ target.imports ++ bodyImports handler
  | .tryFinally body finalizer => bodyImports body ++ bodyImports finalizer
  | .tryCatchFinally body target handler finalizer =>
    bodyImports body ++ target.imports ++ bodyImports handler ++
      bodyImports finalizer
  | .switch value cases => value.imports ++ caseImports cases
  | .labeled _ body => body.imports
  | .withObject object body => object.imports ++ body.imports
  | .importDecl _ _ _ source _ => [.declaration source]
  | .exportNamed _ _ (some source) _ => [.declaration source]
  | .exportAll _ _ source _ => [.declaration source]
  | .exportDecl declaration => declaration.imports
  | .exportDefault e => e.imports
  | .exportDefaultDecl declaration => declaration.imports
  | .declared s => s.imports
  | .enumDecl _ _ members _ => propertyImports members
  | .namespaceDecl _ body => bodyImports body
  | .ambientModule body => bodyImports body
  | .exportAssign e => e.imports
  | _ => []

/-- The imports in the cases of a `switch`. -/
def caseImports : List Case → List Import
  | [] => []
  | c :: rest => c.imports ++ caseImports rest

/-- The imports in one case of a `switch`. -/
def Case.imports : Case → List Import
  | .mk test body => test.imports ++ bodyImports body

end

/-! ## References are those of imports -/

/-- What is taken from two lists of imports is taken from both together. -/
theorem flatMap_two {rs rs' : List Reference} {is is' : List Import}
    (h : rs = is.flatMap Import.references) (h' : rs' = is'.flatMap Import.references) :
    rs ++ rs' = (is ++ is').flatMap Import.references := by
  rw [List.flatMap_append, h, h']

mutual

/-- The references in an expression are those of its imports. -/
theorem Expr.references_eq : (e : Expr) → e.references = e.imports.flatMap Import.references
  | .template _ parts | .array parts | .sequence parts | .fragment _ parts =>
    elementReferences_eq parts
  | .object properties => propertyReferences_eq properties
  | .unary _ e | .update _ _ e | .member e _ _ | .privateMember e _ _ | .chain e | .yield _ e
  | .await e | .spread e | .beforeComma e | .paren e | .computed e | .typed _ e
  | .parameterProperty e | .commented _ e | .remarked _ e | .effectFree e | .container e =>
    e.references_eq
  | .binary _ e e' | .assign _ e e' | .index e e' _ => flatMap_two e.references_eq e'.references_eq
  | .conditional test whenTrue whenFalse =>
    flatMap_two (flatMap_two test.references_eq whenTrue.references_eq) whenFalse.references_eq
  | .taggedTemplate e _ parts | .call e parts _ _ _ | .new e parts _ _ =>
    flatMap_two e.references_eq (elementReferences_eq parts)
  | .function _ _ params body | .arrow _ params body =>
    flatMap_two (elementReferences_eq params) (bodyReferences_eq body)
  | .arrowTo _ parts e | .decorated parts e =>
    flatMap_two (elementReferences_eq parts) e.references_eq
  | .classExpr decorators _ base members =>
    flatMap_two (flatMap_two (elementReferences_eq decorators) base.references_eq)
      (memberReferences_eq members)
  | .importCall _ source options _ => by
    rw [Expr.references, Expr.imports, source.references_eq, options.references_eq]
    rw [List.cons_append, List.flatMap_cons, List.flatMap_append, List.append_assoc]
    rfl
  | .element _ _ _ _ attributes children =>
    flatMap_two (propertyReferences_eq attributes) (elementReferences_eq children)
  | .absent | .ident _ | .privateName _ | .this | .super | .null | .bool _ | .number _ | .bigint _
  | .string _ | .regex _ _ | .newTarget | .importMeta | .jsxText _ => rfl

/-- The references in a list of expressions are those of its imports. -/
theorem elementReferences_eq :
    (es : List Expr) → elementReferences es = (elementImports es).flatMap Import.references
  | [] => rfl
  | e :: rest => flatMap_two e.references_eq (elementReferences_eq rest)

/-- The references in a list of properties are those of its imports. -/
theorem propertyReferences_eq :
    (ps : List Property) → propertyReferences ps = (propertyImports ps).flatMap Import.references
  | [] => rfl
  | p :: rest => flatMap_two p.references_eq (propertyReferences_eq rest)

/-- The references in a property are those of its imports. -/
theorem Property.references_eq :
    (p : Property) → p.references = p.imports.flatMap Import.references
  | .value key value _ => flatMap_two key.references_eq value.references_eq
  | .method _ key _ params body =>
    flatMap_two (flatMap_two key.references_eq (elementReferences_eq params))
      (bodyReferences_eq body)
  | .spread e | .jsxAttribute _ _ e => e.references_eq

/-- The references in the members of a class are those of its imports. -/
theorem memberReferences_eq :
    (ms : List Member) → memberReferences ms = (memberImports ms).flatMap Import.references
  | [] => rfl
  | m :: rest => flatMap_two m.references_eq (memberReferences_eq rest)

/-- The references in a member of a class are those of its imports. -/
theorem Member.references_eq : (m : Member) → m.references = m.imports.flatMap Import.references
  | .method _ decorators _ _ key _ params body =>
    flatMap_two (flatMap_two (flatMap_two (elementReferences_eq decorators) key.references_eq)
      (elementReferences_eq params)) (bodyReferences_eq body)
  | .field _ decorators _ key value =>
    flatMap_two (flatMap_two (elementReferences_eq decorators) key.references_eq)
      value.references_eq
  | .staticBlock _ body => bodyReferences_eq body
  | .signature key params => flatMap_two key.references_eq (elementReferences_eq params)

/-- The references in a list of statements are those of its imports. -/
theorem bodyReferences_eq :
    (body : List Stmt) → bodyReferences body = (bodyImports body).flatMap Import.references
  | [] => rfl
  | s :: rest => flatMap_two s.references_eq (bodyReferences_eq rest)

/-- The references in a statement are those of its imports. -/
theorem Stmt.references_eq : (s : Stmt) → s.references = s.imports.flatMap Import.references
  | .commented _ s | .labeled _ s | .exportDecl s | .exportDefaultDecl s | .declared s =>
    s.references_eq
  | .expr e | .returnValue e | .throwValue e | .exportDefault e | .exportAssign e =>
    e.references_eq
  | .block body | .namespaceDecl _ body | .ambientModule body => bodyReferences_eq body
  | .variables _ es | .signature _ es => elementReferences_eq es
  | .function _ _ params body =>
    flatMap_two (elementReferences_eq params) (bodyReferences_eq body)
  | .classDecl decorators _ base members =>
    flatMap_two (flatMap_two (elementReferences_eq decorators) base.references_eq)
      (memberReferences_eq members)
  | .ifThen e s | .whileLoop e s | .withObject e s => flatMap_two e.references_eq s.references_eq
  | .ifElse test whenTrue whenFalse =>
    flatMap_two (flatMap_two test.references_eq whenTrue.references_eq) whenFalse.references_eq
  | .forLoop head test step body =>
    flatMap_two (flatMap_two (flatMap_two head.references_eq test.references_eq)
      step.references_eq) body.references_eq
  | .forIn head e body | .forOf _ head e body =>
    flatMap_two (flatMap_two head.references_eq e.references_eq) body.references_eq
  | .doWhile body test => flatMap_two body.references_eq test.references_eq
  | .tryCatch body target handler =>
    flatMap_two (flatMap_two (bodyReferences_eq body) target.references_eq)
      (bodyReferences_eq handler)
  | .tryFinally body finalizer =>
    flatMap_two (bodyReferences_eq body) (bodyReferences_eq finalizer)
  | .tryCatchFinally body target handler finalizer =>
    flatMap_two (flatMap_two (flatMap_two (bodyReferences_eq body) target.references_eq)
      (bodyReferences_eq handler)) (bodyReferences_eq finalizer)
  | .switch value cases => flatMap_two value.references_eq (caseReferences_eq cases)
  | .importDecl _ _ _ _ _ | .exportNamed _ _ (some _) _ | .exportAll _ _ _ _ => rfl
  | .enumDecl _ _ members _ => propertyReferences_eq members
  | .remarks _ | .directive _ _ | .empty | .continueTo _ | .breakTo _ | .debugger
  | .exportNamed _ _ none _ | .typeDecl _ | .importEquals _ _ _ | .importRequire _ _ _
  | .exportAsNamespace _ => rfl

/-- The references in the cases of a `switch` are those of its imports. -/
theorem caseReferences_eq :
    (cs : List Case) → caseReferences cs = (caseImports cs).flatMap Import.references
  | [] => rfl
  | c :: rest => flatMap_two c.references_eq (caseReferences_eq rest)

/-- The references in one case of a `switch` are those of its imports. -/
theorem Case.references_eq : (c : Case) → c.references = c.imports.flatMap Import.references
  | .mk test body => flatMap_two test.references_eq (bodyReferences_eq body)

end

/-! ## Lists of parts -/

theorem elementImports_eq (es : List Expr) : elementImports es = es.flatMap Expr.imports := by
  induction es with
  | nil => rfl
  | cons e es ih => rw [elementImports, ih, List.flatMap_cons]

theorem propertyImports_eq (ps : List Property) :
    propertyImports ps = ps.flatMap Property.imports := by
  induction ps with
  | nil => rfl
  | cons p ps ih => rw [propertyImports, ih, List.flatMap_cons]

theorem bodyImports_eq (body : List Stmt) : bodyImports body = body.flatMap Stmt.imports := by
  induction body with
  | nil => rfl
  | cons s body ih => rw [bodyImports, ih, List.flatMap_cons]

/-- The imports of some expressions behind others. -/
theorem elementImports_append (es es' : List Expr) :
    elementImports (es ++ es') = elementImports es ++ elementImports es' := by
  rw [elementImports_eq, elementImports_eq, elementImports_eq, List.flatMap_append]

/-- The imports of some properties behind others. -/
theorem propertyImports_append (ps ps' : List Property) :
    propertyImports (ps ++ ps') = propertyImports ps ++ propertyImports ps' := by
  rw [propertyImports_eq, propertyImports_eq, propertyImports_eq, List.flatMap_append]

/-- The imports of one body behind another. -/
theorem bodyImports_append (body body' : List Stmt) :
    bodyImports (body ++ body') = bodyImports body ++ bodyImports body' := by
  rw [bodyImports_eq, bodyImports_eq, bodyImports_eq, List.flatMap_append]

/-- The imports of some members behind others. -/
theorem memberImports_append (members members' : List Member) :
    memberImports (members ++ members') = memberImports members ++ memberImports members' := by
  induction members with
  | nil => rfl
  | cons m members ih => rw [List.cons_append, memberImports, memberImports, ih, List.append_assoc]

/-- A member of a member and so on imports what the first object does. -/
theorem imports_memberChain (names : List String) (e : Expr) :
    (names.foldl (fun e name => .member e name false) e).imports = e.imports := by
  induction names generalizing e with
  | nil => rfl
  | cons name names ih => exact ih (.member e name false)

/-! ## Imports that go where others go -/

namespace Import

/-- All that the first imports refer to, when comments and types are left out, the others refer to
as well. -/
def Within (is js : List Import) : Prop := is.filterMap reference? ⊆ js.filterMap reference?

namespace Within

variable {is is' js js' ks : List Import}

theorem refl (is : List Import) : Within is is := List.Subset.refl _

theorem of_eq (h : is = js) : Within is js := h ▸ refl is

theorem trans (h : Within is js) (h' : Within js ks) : Within is ks := List.Subset.trans h h'

/-- No imports go anywhere. -/
theorem nil (js : List Import) : Within [] js := List.nil_subset _

/-- The imports of two parts go where those of two others do. -/
theorem append (h : Within is js) (h' : Within is' js') : Within (is ++ is') (js ++ js') := by
  unfold Within
  rw [List.filterMap_append, List.filterMap_append]
  exact List.append_subset.2
    ⟨List.subset_append_of_subset_left _ h, List.subset_append_of_subset_right _ h'⟩

/-- The imports of two parts go where others do if each part does. -/
theorem both (h : Within is ks) (h' : Within js ks) : Within (is ++ js) ks := by
  unfold Within
  rw [List.filterMap_append]
  exact List.append_subset.2 ⟨h, h'⟩

/-- What goes where the first of two parts goes. -/
theorem left (h : Within is js) : Within is (js ++ ks) :=
  List.append_nil is ▸ h.append (nil ks)

/-- What goes where the second of two parts goes. -/
theorem right (h : Within is ks) : Within is (js ++ ks) := (nil js).append h

/-- Imports go where lists go that have them. -/
theorem of_subset (h : is ⊆ js) : Within is js := List.filterMap_subset _ h

/-- The imports of an `import()` go where those of another do if the texts that they are called on
are the same. -/
theorem importCall {source source' options options' : Expr}
    (htext : source.literal? = source'.literal?) (h : Within source.imports source'.imports)
    (h' : Within options.imports options'.imports) :
    Within (.call source :: source.imports ++ options.imports)
      (.call source' :: source'.imports ++ options'.imports) := by
  have hcall : Within [.call source] [.call source'] := by
    unfold Within
    rw [List.filterMap_cons, List.filterMap_cons, reference?, reference?, htext]
    exact List.Subset.refl _
  exact (hcall.append h).append h'

end Within

end Import

/-- One statement imports what a body of it does. -/
theorem within_singleton (s : Stmt) : Import.Within (bodyImports [s]) s.imports :=
  .of_eq (List.append_nil s.imports)

/-! ## Steps of a compilation -/

namespace Compile

variable {α β γ δ ε : Type} {packages : String → Prop} {fromResult : α → List Import}
variable {fromNext : β → List Import} {fromThird : γ → List Import} {fromFourth : δ → List Import}
variable {is js ks ls : List Import}

/-- The imports in the result of a step go where some imports go, and the step needs nothing from
packages but from some. -/
def Carries (packages : String → Prop) (fromResult : α → List Import) (m : Compile α)
    (is : List Import) : Prop :=
  ∀ c, Import.Within (fromResult (m c).1) is ∧
    ∀ i ∈ (m c).2.imports, i ∈ c.imports ∨ packages i.source

namespace Carries

variable {m : Compile α} {n : Compile β} {o : Compile γ} {p : Compile δ}

/-- Giving something back needs nothing. -/
theorem pure {x : α} (h : Import.Within (fromResult x) is) :
    Carries packages fromResult (Pure.pure x) is :=
  fun _ => ⟨h, fun _ => .inl⟩

/-- A step and what is done with its result. -/
theorem bind {k : α → Compile β} (h : Carries packages fromResult m is)
    (h' : ∀ x, Import.Within (fromResult x) is → Carries packages fromNext (k x) js) :
    Carries packages fromNext (m >>= k) js := by
  intro c
  obtain ⟨hfirst, hadded⟩ := h c
  obtain ⟨hnext, hadded'⟩ := h' _ hfirst (m c).2
  exact ⟨hnext, fun i hi => (hadded' i hi).elim (hadded i) .inr⟩

/-- A step of two kinds and what is done with its result. -/
theorem branch {m' : Compile α} {k : α → Compile β} {b : Prop} [Decidable b]
    (h : Carries packages fromResult m is) (h' : Carries packages fromResult m' is)
    (hk : ∀ x, Import.Within (fromResult x) is → Carries packages fromNext (k x) js) :
    Carries packages fromNext (if b then m >>= k else m' >>= k) js := by
  split
  · exact h.bind hk
  · exact h'.bind hk

/-- What a step carries, it carries among more. -/
theorem mono (h : Carries packages fromResult m is) (h' : Import.Within is js) :
    Carries packages fromResult m js :=
  fun c => ⟨(h c).1.trans h', (h c).2⟩

/-- A tree with one part. -/
theorem one {k : α → ε} {fromTree : ε → List Import} (h : Carries packages fromResult m is)
    (hk : ∀ a, Import.Within (fromTree (k a)) (fromResult a)) :
    Carries packages fromTree (do return k (← m)) is :=
  h.bind fun a ha => .pure ((hk a).trans ha)

/-- A tree with two parts. -/
theorem two {k : α → β → ε} {fromTree : ε → List Import} (h : Carries packages fromResult m is)
    (h' : Carries packages fromNext n js)
    (hk : ∀ a b, Import.Within (fromTree (k a b)) (fromResult a ++ fromNext b)) :
    Carries packages fromTree (do return k (← m) (← n)) (is ++ js) :=
  h.bind fun a ha => h'.bind fun b hb => .pure ((hk a b).trans (ha.append hb))

/-- A tree with three parts. -/
theorem three {k : α → β → γ → ε} {fromTree : ε → List Import}
    (h : Carries packages fromResult m is) (h' : Carries packages fromNext n js)
    (h'' : Carries packages fromThird o ks)
    (hk : ∀ a b c, Import.Within (fromTree (k a b c)) (fromResult a ++ fromNext b ++ fromThird c)) :
    Carries packages fromTree (do return k (← m) (← n) (← o)) (is ++ js ++ ks) :=
  h.bind fun a ha => h'.bind fun b hb => h''.bind fun c hc =>
    .pure ((hk a b c).trans ((ha.append hb).append hc))

/-- A tree with four parts. -/
theorem four {k : α → β → γ → δ → ε} {fromTree : ε → List Import}
    (h : Carries packages fromResult m is) (h' : Carries packages fromNext n js)
    (h'' : Carries packages fromThird o ks) (hlast : Carries packages fromFourth p ls)
    (hk : ∀ a b c d, Import.Within (fromTree (k a b c d))
      (fromResult a ++ fromNext b ++ fromThird c ++ fromFourth d)) :
    Carries packages fromTree (do return k (← m) (← n) (← o) (← p)) (is ++ js ++ ks ++ ls) :=
  h.bind fun a ha => h'.bind fun b hb => h''.bind fun c hc => hlast.bind fun d hd =>
    .pure ((hk a b c d).trans (((ha.append hb).append hc).append hd))

/-- An `import()` whose text is not changed. -/
theorem importCall {m n : Compile Expr} {source options : Expr} {phase : Phase}
    {closing : List Comment} (h : Carries packages Expr.imports m source.imports)
    (h' : Carries packages Expr.imports n options.imports)
    (htext : ∀ c, (m c).1.literal? = source.literal?) :
    Carries packages Expr.imports (do return .importCall phase (← m) (← n) closing)
      (Expr.importCall phase source options closing).imports := by
  intro c
  obtain ⟨hsource, hadded⟩ := h c
  obtain ⟨hoptions, hadded'⟩ := h' (m c).2
  exact ⟨.importCall (htext c) hsource hoptions,
    fun i hi => (hadded' i hi).elim (hadded i) .inr⟩

end Carries

/-- The imports of what is no tree: none. -/
def noImports (_ : α) : List Import := []

/-- A step that gives back no tree and leaves the packages alone. -/
theorem carries_of_imports_eq {m : Compile α} (h : ∀ c, (m c).2.imports = c.imports) :
    Carries packages noImports m [] :=
  fun c => ⟨.refl _, fun _ hi => .inl (h c ▸ hi)⟩

/-- Noting a fault. -/
theorem carries_fault (message : String) :
    Carries packages noImports (fault message) [] :=
  carries_of_imports_eq fun _ => rfl

/-- Making a name. -/
theorem carries_freshName (name : String) : Carries packages noImports (freshName name) [] :=
  carries_of_imports_eq fun _ => rfl

end Compile

end Syntax

end ModuleLoader
