import ModuleLoader.Compile.Element.Tree
import ModuleLoader.Proofs.Compile.Imports

/-! # Imports of programs without elements

Compiling the elements of a program moves expressions around. It keeps their imports, and adds only
those of the functions that make elements, from the package of the runtime or the one that it is a
part of.

* **`ElementOptions.Supplies`** tells the packages of these functions.
* **`Expr.buildElement_carries`** says what a compiled element imports.
* **`compileBody_carries`** says what the statements of a body do. -/

namespace ModuleLoader.Syntax

open Compile Import

/-- The package is one that functions making elements are imported from. -/
def ElementOptions.Supplies (o : ElementOptions) (package : String) : Prop :=
  package = o.runtime ∨ package = o.importSource

/-! ## Expressions in other places -/

mutual

/-- An object imports the same without the comments before it. -/
theorem Expr.imports_withoutRemarks : (e : Expr) → e.withoutRemarks.imports = e.imports
  | .remarked _ _ | .update _ true _ | .typed .angle _ => rfl
  | .update _ false e | .member e _ _ | .privateMember e _ _ | .chain e
  | .typed .asType e | .typed .satisfies e | .typed .nonNull e | .typed .arguments e =>
    e.imports_withoutRemarks
  | .binary _ e e' | .assign _ e e' | .index e e' _ =>
    congrArg (· ++ e'.imports) e.imports_withoutRemarks
  | .taggedTemplate e _ parts | .call e parts _ _ _ =>
    congrArg (· ++ elementImports parts) e.imports_withoutRemarks
  | .conditional test whenTrue whenFalse =>
    congrArg (· ++ whenTrue.imports ++ whenFalse.imports) test.imports_withoutRemarks
  | .sequence parts => elementImports_withoutFirstRemarks parts
  | .absent | .ident _ | .privateName _ | .this | .super | .null | .bool _ | .number _ | .bigint _
  | .string _ | .regex _ _ | .template _ _ | .array _ | .object _ | .function _ _ _ _
  | .arrow _ _ _ | .arrowTo _ _ _ | .classExpr _ _ _ _ | .unary _ _ | .new _ _ _ _ | .newTarget
  | .importMeta | .importCall _ _ _ _ | .yield _ _ | .await _ | .spread _ | .beforeComma _
  | .paren _ | .computed _ | .decorated _ _ | .parameterProperty _ | .commented _ _
  | .effectFree _ | .element _ _ _ _ _ _ | .fragment _ _ | .jsxText _ | .container _ => rfl

/-- Expressions import the same without the comments before the first object. -/
theorem elementImports_withoutFirstRemarks :
    (es : List Expr) → elementImports (withoutFirstRemarks es) = elementImports es
  | [] => rfl
  | e :: rest => congrArg (· ++ elementImports rest) e.imports_withoutRemarks

end

/-- An expression imports the same without the comments before it. -/
theorem Expr.imports_withoutComments (e : Expr) : e.withoutComments.imports = e.imports := by
  induction e using Expr.withoutComments.induct with
  | case1 comments e ih => exact ih
  | case2 e h =>
    rw [Expr.withoutComments]
    exact h

/-- An expression imports the same as an argument. -/
theorem Expr.imports_asArgument (e : Expr) : e.asArgument.imports = e.imports := by
  unfold Expr.asArgument
  split
  · exact Expr.imports_withoutRemarks _
  · rfl

/-- Expressions import the same as arguments. -/
theorem elementImports_asArguments (es : List Expr) :
    elementImports (es.map Expr.asArgument) = elementImports es := by
  induction es with
  | nil => rfl
  | cons e es ih =>
    rw [List.map_cons, elementImports, elementImports, e.imports_asArgument, ih]

/-- Comments before an expression import nothing. -/
theorem imports_withComments (comments : List Comment) (e : Expr) :
    (withComments comments e).imports = e.imports := by
  unfold withComments
  split <;> rfl

/-- A child imports the same as a value. -/
theorem imports_childValue (e : Expr) : (childValue e).imports = e.imports := by
  unfold childValue
  split
  · exact List.append_nil _
  · exact e.imports_withoutComments

/-- Children import the same as a property. -/
theorem propertyImports_childrenProperty (kids : List Expr) :
    propertyImports (childrenProperty kids) = elementImports kids := by
  have hvalues : elementImports (kids.map childValue) = elementImports kids := by
    rw [elementImports_eq, elementImports_eq, List.flatMap_map]
    exact congrArg (List.flatMap · kids) (funext imports_childValue)
  match kids with
  | [] => rfl
  | [child] => exact congrArg (· ++ []) (imports_childValue child)
  | _ :: _ :: _ => exact (List.append_nil _).trans hvalues

/-- What is spread among attributes imports the same as properties. -/
theorem propertyImports_spreadProperties (e : Expr) :
    propertyImports (spreadProperties e) = e.imports := by
  unfold spreadProperties
  split
  · split
    · exact List.append_nil _
    · rfl
  · split
    · exact List.append_nil _
    · rfl
  · exact List.append_nil _

/-- The key of an attribute imports nothing. -/
theorem imports_attributeKey (space : Option String) (name : String) :
    (attributeKey space name).imports = [] := by
  unfold attributeKey
  split
  · rfl
  · split <;> rfl

/-- What stands behind the properties of an element imports what its key and its place do. -/
theorem trailingArguments_within (o : ElementOptions) (key : Option Expr) (hasSeveral : Bool)
    (marks : List Expr) :
    Within (elementImports (trailingArguments o key hasSeveral marks))
      (elementImports key.toList ++ elementImports marks) := by
  unfold trailingArguments
  split
  · cases key with
    | none => exact .refl _
    | some key => exact .of_eq (congrArg (· ++ _) (List.append_nil _).symm)
  · exact (Within.refl _).left

/-! ## Names and places -/

section

variable {packages : String → Prop} {o : ElementOptions} {s : ThisScope}

/-- Looking at the compilation changes nothing. -/
theorem carries_get : Carries packages noImports (get : Compile Compilation) [] :=
  carries_of_imports_eq fun _ => rfl

/-- Importing a function adds its package. -/
theorem requireImport_carries {source imported : String} (h : packages source) :
    Carries packages noImports (requireImport source imported) [] := by
  refine carries_get.bind fun c _ => ?_
  split
  · exact .pure (.refl _)
  · refine (carries_freshName imported).bind fun bound _ => ?_
    refine .bind (fun c => ⟨.refl _, fun i hi => ?_⟩ : Carries packages noImports _ [])
      fun _ _ => .pure (.refl _)
    obtain hi | hi := List.mem_append.1 hi
    · exact .inl hi
    · exact .inr (List.mem_singleton.1 hi ▸ h)

/-- Naming the path of the module adds no package. -/
theorem requireFileName_carries : Carries packages noImports requireFileName [] := by
  refine carries_get.bind fun c _ => ?_
  split
  · exact .pure (.refl _)
  · refine (carries_freshName _).bind fun name _ => ?_
    exact (carries_of_imports_eq fun _ => rfl).bind fun _ _ => .pure (.refl _)

/-- The name of an element imports nothing. -/
theorem ElementName.toExpr_carries (name : ElementName) :
    Carries packages Expr.imports name.toExpr [] := by
  have hword (name : String) : (wordExpr name).imports = [] := by
    unfold wordExpr
    split <;> rfl
  cases name with
  | plain name =>
    refine .pure (.of_eq ?_)
    split
    · rfl
    · exact hword name
  | member object properties =>
    exact .pure (.of_eq ((imports_memberChain properties _).trans (hword object)))
  | namespaced space name => exact (carries_fault _).bind fun _ _ => .pure (.refl _)

/-- The place of an element imports nothing. -/
theorem sourceArgument_carries (tail : Nat) :
    Carries packages Expr.imports (sourceArgument o tail) [] :=
  requireFileName_carries.bind fun _ _ => .pure (.refl _)

section Places

variable {α β : Type} {fromResult : List α → List Import} {fromNext : β → List Import}
variable {k : List α → Compile β}

/-- A step behind noting what an element says of itself. -/
theorem carries_fault_then (message : String) (hnone : fromResult [] = [])
    (hk : ∀ x, Within (fromResult x) [] → Carries packages fromNext (k x) []) :
    Carries packages fromNext
      (do
        fault message
        let x ← pure []
        k x) [] :=
  (carries_fault message).bind fun _ _ => hk [] (.of_eq hnone)

variable (fromResult)

/-- A step behind the place of an element, unless the element says it. -/
theorem carries_place_then {isGiven : Bool} {message : String} {tail : Nat} {mark : Expr → α}
    (hnone : fromResult [] = []) (hmark : ∀ a, Within (fromResult [mark a]) a.imports)
    (hk : ∀ x, Within (fromResult x) [] → Carries packages fromNext (k x) []) :
    Carries packages fromNext
      (if isGiven then do
        fault message
        let x ← pure []
        k x
      else do
        let a ← sourceArgument o tail
        let x ← pure [mark a]
        k x) [] := by
  split
  · exact carries_fault_then message hnone hk
  · exact (sourceArgument_carries tail).bind fun a ha => hk [mark a] ((hmark a).trans ha)

/-- A step behind what `this` is for an element, unless that cannot be told or the element says
it. -/
theorem carries_this_then {canRead isGiven : Bool} {message : String} {mark : α}
    (hnone : fromResult [] = []) (hmark : Within (fromResult [mark]) [])
    (hk : ∀ x, Within (fromResult x) [] → Carries packages fromNext (k x) []) :
    Carries packages fromNext
      (if !canRead then do
        let x ← pure []
        k x
      else if isGiven then do
        fault message
        let x ← pure []
        k x
      else do
        let x ← pure [mark]
        k x) [] := by
  split
  · exact hk [] (.of_eq hnone)
  split
  · exact carries_fault_then message hnone hk
  · exact hk [mark] hmark

end Places

/-- What an element says of itself as arguments imports nothing. -/
theorem developmentArguments_carries (tail : Nat) (attributes : List Property) :
    Carries packages elementImports (developmentArguments o s tail attributes) [] :=
  carries_place_then elementImports rfl
    (fun a => .of_eq (List.append_nil a.imports)) fun source hsource =>
      carries_this_then elementImports rfl (.refl _) fun this hthis =>
        .pure ((Within.of_eq (elementImports_append source this)).trans (hsource.both hthis))

/-- What an element says of itself as properties imports nothing. -/
theorem developmentProperties_carries (tail : Nat) (attributes : List Property) :
    Carries packages propertyImports (developmentProperties o s tail attributes) [] :=
  carries_this_then propertyImports rfl (.refl _) fun this hthis =>
    carries_place_then propertyImports rfl
      (fun a => .of_eq (List.append_nil a.imports)) fun source hsource =>
        .pure ((Within.of_eq (propertyImports_append this source)).trans (hthis.both hsource))

/-- The function that makes an element comes from the package of the runtime. -/
theorem makerOf_carries (h : packages o.runtime) (hasSeveral : Bool) :
    Carries packages Expr.imports (makerOf o hasSeveral) [] :=
  (requireImport_carries h).one fun _ => .refl _

end

/-! ## Elements -/

section

variable {o : ElementOptions} {s : ThisScope}

/-- A call that makes an element imports what its arguments do. -/
theorem pureCall_within {callee : Expr} {args : List Expr} {closing : List Comment}
    {is : List Import} (h : Within callee.imports []) (h' : Within (elementImports args) is) :
    Within (pureCall callee args closing).imports is :=
  (h.trans (.nil is)).both h'

mutual

/-- A compiled element carries the imports of the element. -/
theorem Expr.buildElement_carries :
    (e : Expr) → Carries o.Supplies Expr.imports (e.buildElement o s) e.imports
  | .element tail opening closing name attributes children => by
    have hname (tag : Expr) (h : Within tag.imports []) :
        Within (withComments opening tag).imports [] :=
      (Within.of_eq (imports_withComments opening tag)).trans h
    rw [Expr.buildElement]
    split
    · refine (buildAttributes_carries attributes).bind fun properties hproperties => ?_
      refine .branch (developmentProperties_carries tail attributes) (.pure (.refl _))
        fun marks hmarks => ?_
      refine name.toExpr_carries.bind fun tag htag => ?_
      refine (buildChildren_carries children).bind fun kids hkids => ?_
      split
      · exact .pure (pureCall_within ((hname tag htag).trans (.nil _)) hkids.right)
      · refine (requireImport_carries (.inr rfl)).bind fun maker _ =>
          .pure (pureCall_within (.nil _) ?_)
        refine ((hname tag htag).trans (.nil _)).both (.append ?_ ?_)
        · exact (Within.of_eq (propertyImports_append properties marks)).trans
            (hproperties.both (hmarks.trans (.nil _)))
        · exact (Within.of_eq (elementImports_asArguments kids)).trans hkids
    · refine (buildAttributes_carries attributes).bind fun properties hproperties => ?_
      refine (buildChildren_carries children).bind fun kids hkids => ?_
      refine name.toExpr_carries.bind fun tag htag => ?_
      refine (buildKey_carries attributes).bind fun key hkey => ?_
      refine .branch (developmentArguments_carries tail attributes) (.pure (.refl _))
        fun marks hmarks => ?_
      refine (makerOf_carries (.inl rfl) _).bind fun maker hmaker =>
        .pure (pureCall_within hmaker ?_)
      refine ((hname tag htag).trans (.nil _)).both (.both ?_ ?_)
      · exact (Within.of_eq (propertyImports_append _ _)).trans (hproperties.append
          ((Within.of_eq (propertyImports_childrenProperty kids)).trans hkids))
      · refine (trailingArguments_within _ _ _ _).trans (.both (.left ?_) (hmarks.trans (.nil _)))
        cases key with
        | none => exact .nil _
        | some key => exact (Within.of_eq (congrArg (· ++ []) key.imports_asArgument)).trans hkey
  | .fragment closing children => by
    rw [Expr.buildElement]
    split
    · exact (buildChildren_carries children).one fun _ => pureCall_within (.refl _) (.refl _)
    · refine (buildChildren_carries children).bind fun kids hkids => ?_
      refine (requireImport_carries (.inl rfl)).bind fun tag _ => ?_
      refine (makerOf_carries (.inl rfl) _).bind fun maker hmaker =>
        .pure (pureCall_within hmaker (.both (.nil _) (.both ?_ ?_)))
      · exact (Within.of_eq (propertyImports_childrenProperty kids)).trans hkids
      · exact (trailingArguments_within o none false []).trans (.nil _)
  | .commented _ e => e.buildElement_carries.one fun _ => .refl _
  | .jsxText _ | .container _ | .absent | .ident _ | .privateName _ | .this | .super | .null
  | .bool _ | .number _ | .bigint _ | .string _ | .regex _ _ | .template _ _
  | .taggedTemplate _ _ _ | .array _ | .object _ | .function _ _ _ _ | .arrow _ _ _
  | .arrowTo _ _ _ | .classExpr _ _ _ _ | .unary _ _ | .update _ _ _ | .binary _ _ _
  | .assign _ _ _ | .conditional _ _ _ | .sequence _ | .member _ _ _ | .privateMember _ _ _
  | .index _ _ _ | .call _ _ _ _ _ | .new _ _ _ _ | .chain _ | .newTarget | .importMeta
  | .importCall _ _ _ _ | .yield _ _ | .await _ | .spread _ | .beforeComma _ | .paren _
  | .computed _ | .typed _ _ | .decorated _ _ | .parameterProperty _ | .remarked _ _
  | .effectFree _ => .pure (.refl _)

/-- Compiled attributes carry the imports of the attributes. -/
theorem buildAttributes_carries {withKey : Bool} : (ps : List Property) →
    Carries o.Supplies propertyImports (buildAttributes o s withKey ps) (propertyImports ps)
  | [] => .pure (.refl _)
  | .jsxAttribute space name value :: rest => by
    have hvalue : Carries o.Supplies Expr.imports (value.buildElement o s) value.imports :=
      value.buildElement_carries
    have hrest : Carries o.Supplies propertyImports (buildAttributes o s withKey rest)
      (propertyImports rest) := buildAttributes_carries rest
    have hboth : Carries o.Supplies propertyImports (do
        let value ← value.buildElement o s
        return .value (attributeKey space name) value.withoutComments false ::
          (← buildAttributes o s withKey rest)) (value.imports ++ propertyImports rest) :=
      hvalue.two hrest fun a b => .of_eq (by
        rw [propertyImports, Property.imports, imports_attributeKey, a.imports_withoutComments,
          List.nil_append])
    cases space with
    | none =>
      rw [buildAttributes]
      split
      · have hskip : Carries o.Supplies propertyImports (buildAttributes o s withKey rest)
          (value.imports ++ propertyImports rest) := hrest.mono (.right (.refl _))
        dsimp only
        split
        · exact (carries_fault _).bind fun _ _ => hskip
        · exact hskip
      · exact hboth
    | some space => exact hboth
  | .spread e :: rest => (buildAttributes_carries rest).bind fun properties hproperties =>
      .pure ((Within.of_eq (propertyImports_append _ _)).trans
        ((Within.of_eq (propertyImports_spreadProperties e)).append hproperties))
  | .value _ _ _ :: rest | .method _ _ _ _ _ :: rest =>
    (buildAttributes_carries rest).bind fun _ hproperties =>
      .pure ((Within.refl _).append hproperties)

/-- The compiled key of an element carries the imports of the attributes. -/
theorem buildKey_carries : (ps : List Property) →
    Carries o.Supplies (fun key => elementImports key.toList) (buildKey o s ps) (propertyImports ps)
  | [] => .pure (.refl _)
  | p :: rest => by
    have hrest : Carries o.Supplies (fun key => elementImports key.toList) (buildKey o s rest)
      (p.imports ++ propertyImports rest) := (buildKey_carries rest).mono (.right (.refl _))
    cases p with
    | jsxAttribute space name value =>
      have hvalue : Carries o.Supplies (fun key => elementImports key.toList)
          (do return some (← value.buildElement o s)) (value.imports ++ propertyImports rest) :=
        (value.buildElement_carries.one fun a => .of_eq (List.append_nil a.imports)).mono
          (.left (.refl _))
      unfold buildKey
      split
      case h_1 h => cases h
      case h_2 h =>
        cases h
        exact hrest
      case h_3 h =>
        cases h
        split
        · exact hrest
        · exact hvalue
      case h_4 h =>
        cases h
        exact hrest
    | _ => exact hrest

/-- Compiled children carry the imports of the children. -/
theorem buildChildren_carries : (es : List Expr) →
    Carries o.Supplies elementImports (buildChildren o s es) (elementImports es)
  | [] => .pure (.refl _)
  | e :: rest => by
    have he : Carries o.Supplies Expr.imports (e.buildElement o s) e.imports :=
      e.buildElement_carries
    have hrest : Carries o.Supplies elementImports (buildChildren o s rest)
      (elementImports rest) := buildChildren_carries rest
    unfold buildChildren
    split
    case h_1 h => cases h
    case h_2 h =>
      cases h
      split
      · exact hrest.one fun _ => .refl _
      · exact hrest
    case h_3 h =>
      cases h
      exact hrest
    case h_4 h =>
      cases h
      exact he.two hrest fun _ _ => .refl _

end

/-! ## Trees -/

/-- The step gives back what is no text. -/
def MakesNoLiteral (m : Compile Expr) : Prop := ∀ c, (m c).1.literal? = none

namespace MakesNoLiteral

variable {α : Type} {m m' : Compile α} {k : α → Compile Expr}

/-- A step gives back no text if what is done last does not. -/
theorem bind (h : ∀ x, MakesNoLiteral (k x)) : MakesNoLiteral (m >>= k) := fun _ => h _ _

/-- A step of two kinds gives back no text if what is done last does not. -/
theorem branch {b : Prop} [Decidable b] (h : ∀ x, MakesNoLiteral (k x)) :
    MakesNoLiteral (if b then m >>= k else m' >>= k) := by
  split
  · exact .bind h
  · exact .bind h

end MakesNoLiteral

/-- A compiled element is no text. -/
theorem buildElement_element_makesNoLiteral (tail : Nat) (opening closing : List Comment)
    (name : ElementName) (attributes : List Property) (children : List Expr) :
    MakesNoLiteral
      ((Expr.element tail opening closing name attributes children).buildElement o s) := by
  rw [Expr.buildElement]
  split
  · refine .bind fun properties => .branch fun marks => .bind fun tag => .bind fun kids => ?_
    split
    · exact fun _ => rfl
    · exact .bind fun _ _ => rfl
  · exact .bind fun properties => .bind fun kids => .bind fun tag => .bind fun key =>
      .branch fun marks => .bind fun _ _ => rfl

/-- A compiled fragment is no text. -/
theorem buildElement_fragment_makesNoLiteral (closing : List Comment) (children : List Expr) :
    MakesNoLiteral ((Expr.fragment closing children).buildElement o s) := by
  rw [Expr.buildElement]
  split
  · exact .bind fun _ _ => rfl
  · exact .bind fun _ => .bind fun _ => .bind fun _ _ => rfl

/-- The text that an expression is does not change when elements are compiled. -/
theorem Expr.literal?_compileElements : (e : Expr) → (c : Compilation) →
    (e.compileElements o s c).1.literal? = e.literal?
  | .commented _ e, c | .typed _ e, c | .parameterProperty e, c => e.literal?_compileElements c
  | .element tail opening closing name _ _, _ =>
    buildElement_element_makesNoLiteral tail opening closing name _ _ _
  | .fragment closing _, _ => buildElement_fragment_makesNoLiteral closing _ _
  | .absent, _ | .ident _, _ | .privateName _, _ | .this, _ | .super, _ | .null, _ | .bool _, _
  | .number _, _ | .bigint _, _ | .string _, _ | .regex _ _, _ | .template _ _, _
  | .taggedTemplate _ _ _, _ | .array _, _ | .object _, _ | .function _ _ _ _, _
  | .arrow _ _ _, _ | .arrowTo _ _ _, _ | .classExpr _ _ _ _, _ | .unary _ _, _
  | .update _ _ _, _ | .binary _ _ _, _ | .assign _ _ _, _ | .conditional _ _ _, _
  | .sequence _, _ | .member _ _ _, _ | .privateMember _ _ _, _ | .index _ _ _, _
  | .call _ _ _ _ _, _ | .new _ _ _ _, _ | .chain _, _ | .newTarget, _ | .importMeta, _
  | .importCall _ _ _ _, _ | .yield _ _, _ | .await _, _ | .spread _, _ | .beforeComma _, _
  | .paren _, _ | .computed _, _ | .decorated _ _, _ | .remarked _ _, _ | .effectFree _, _
  | .jsxText _, _ | .container _, _ => rfl

mutual

/-- Compiling the elements in an expression carries its imports. -/
theorem Expr.compileElements_carries {s : ThisScope} :
    (e : Expr) → Carries o.Supplies Expr.imports (e.compileElements o s) e.imports
  | .template _ parts | .array parts | .sequence parts =>
    (compileAll_carries parts).one fun _ => .refl _
  | .object properties => (compileProperties_carries properties).one fun _ => .refl _
  | .unary _ e | .update _ _ e | .member e _ _ | .privateMember e _ _ | .chain e | .yield _ e
  | .await e | .spread e | .beforeComma e | .paren e | .computed e | .commented _ e
  | .remarked _ e | .effectFree e | .typed _ e | .parameterProperty e =>
    e.compileElements_carries.one fun _ => .refl _
  | .binary _ e e' | .assign _ e e' | .index e e' _ =>
    e.compileElements_carries.two e'.compileElements_carries fun _ _ => .refl _
  | .conditional test whenTrue whenFalse =>
    test.compileElements_carries.three whenTrue.compileElements_carries
      whenFalse.compileElements_carries fun _ _ _ => .refl _
  | .taggedTemplate e _ parts | .call e parts _ _ _ | .new e parts _ _ =>
    e.compileElements_carries.two (compileAll_carries parts) fun _ _ => .refl _
  | .function _ _ params body | .arrow _ params body =>
    (compileAll_carries params).two (compileBody_carries body) fun _ _ => .refl _
  | .arrowTo _ parts e | .decorated parts e =>
    (compileAll_carries parts).two e.compileElements_carries fun _ _ => .refl _
  | .classExpr decorators _ base members =>
    (compileAll_carries decorators).three base.compileElements_carries
      (compileMembers_carries members) fun _ _ _ => .refl _
  | .importCall _ source options _ =>
    .importCall source.compileElements_carries options.compileElements_carries
      source.literal?_compileElements
  | .element _ _ _ _ attributes children =>
    (compileProperties_carries attributes).bind fun _ hattributes =>
      (compileChildren_carries children).bind fun _ hchildren =>
        (Expr.buildElement_carries _).mono (hattributes.append hchildren)
  | .fragment _ children => (compileChildren_carries children).bind fun _ hchildren =>
      (Expr.buildElement_carries _).mono hchildren
  | .container _ | .absent | .ident _ | .privateName _ | .this | .super | .null | .bool _
  | .number _ | .bigint _ | .string _ | .regex _ _ | .newTarget | .importMeta | .jsxText _ =>
    .pure (.refl _)

/-- Compiling the elements in several expressions carries their imports. -/
theorem compileAll_carries {s : ThisScope} : (es : List Expr) →
    Carries o.Supplies elementImports (compileAll o s es) (elementImports es)
  | [] => .pure (.refl _)
  | e :: rest => e.compileElements_carries.two (compileAll_carries rest) fun _ _ => .refl _

/-- Compiling what stands in braces in children carries their imports. -/
theorem compileChildren_carries {s : ThisScope} : (es : List Expr) →
    Carries o.Supplies elementImports (compileChildren o s es) (elementImports es)
  | [] => .pure (.refl _)
  | e :: rest => e.compileParts_carries.two (compileChildren_carries rest) fun _ _ => .refl _

/-- Compiling what stands in braces in a child carries its imports. -/
theorem Expr.compileParts_carries {s : ThisScope} :
    (e : Expr) → Carries o.Supplies Expr.imports (e.compileParts o s) e.imports
  | .element _ _ _ _ attributes children =>
    (compileProperties_carries attributes).two (compileChildren_carries children)
      fun _ _ => .refl _
  | .fragment _ children => (compileChildren_carries children).one fun _ => .refl _
  | .commented _ e => e.compileParts_carries.one fun _ => .refl _
  | .container e | .spread e => e.compileElements_carries.one fun _ => .refl _
  | .absent | .ident _ | .privateName _ | .this | .super | .null | .bool _ | .number _ | .bigint _
  | .string _ | .regex _ _ | .template _ _ | .taggedTemplate _ _ _ | .array _ | .object _
  | .function _ _ _ _ | .arrow _ _ _ | .arrowTo _ _ _ | .classExpr _ _ _ _ | .unary _ _
  | .update _ _ _ | .binary _ _ _ | .assign _ _ _ | .conditional _ _ _ | .sequence _
  | .member _ _ _ | .privateMember _ _ _ | .index _ _ _ | .call _ _ _ _ _ | .new _ _ _ _
  | .chain _ | .newTarget | .importMeta | .importCall _ _ _ _ | .yield _ _ | .await _
  | .beforeComma _ | .paren _ | .computed _ | .typed _ _ | .decorated _ _
  | .parameterProperty _ | .remarked _ _ | .effectFree _ | .jsxText _ => .pure (.refl _)

/-- Compiling the elements in a property carries its imports. -/
theorem Property.compileElements_carries {s : ThisScope} :
    (p : Property) → Carries o.Supplies Property.imports (p.compileElements o s) p.imports
  | .value key value _ =>
    key.compileElements_carries.two value.compileElements_carries fun _ _ => .refl _
  | .method _ key _ params body =>
    key.compileElements_carries.three (compileAll_carries params) (compileBody_carries body)
      fun _ _ _ => .refl _
  | .spread e => e.compileElements_carries.one fun _ => .refl _
  | .jsxAttribute _ _ e => e.compileParts_carries.one fun _ => .refl _

/-- Compiling the elements in several properties carries their imports. -/
theorem compileProperties_carries {s : ThisScope} : (ps : List Property) →
    Carries o.Supplies propertyImports (compileProperties o s ps) (propertyImports ps)
  | [] => .pure (.refl _)
  | p :: rest => p.compileElements_carries.two (compileProperties_carries rest) fun _ _ => .refl _

/-- Compiling the elements in a member of a class carries its imports. -/
theorem Member.compileElements_carries {s : ThisScope} :
    (m : Member) → Carries o.Supplies Member.imports (m.compileElements o s) m.imports
  | .method _ decorators _ _ key _ params body =>
    (compileAll_carries decorators).four key.compileElements_carries (compileAll_carries params)
      (compileBody_carries body) fun _ _ _ _ => .refl _
  | .field _ decorators _ key value =>
    (compileAll_carries decorators).three key.compileElements_carries
      value.compileElements_carries fun _ _ _ => .refl _
  | .staticBlock _ body => (compileBody_carries body).one fun _ => .refl _
  | .signature key params =>
    key.compileElements_carries.two (compileAll_carries params) fun _ _ => .refl _

/-- Compiling the elements in several members carries their imports. -/
theorem compileMembers_carries {s : ThisScope} : (ms : List Member) →
    Carries o.Supplies memberImports (compileMembers o s ms) (memberImports ms)
  | [] => .pure (.refl _)
  | m :: rest => m.compileElements_carries.two (compileMembers_carries rest) fun _ _ => .refl _

/-- Compiling the elements in a statement carries its imports. -/
theorem Stmt.compileElements_carries {s : ThisScope} :
    (t : Stmt) → Carries o.Supplies Stmt.imports (t.compileElements o s) t.imports
  | .commented _ t | .labeled _ t | .exportDecl t | .exportDefaultDecl t =>
    t.compileElements_carries.one fun _ => .refl _
  | .expr e | .returnValue e | .throwValue e | .exportDefault e =>
    e.compileElements_carries.one fun _ => .refl _
  | .block body => (compileBody_carries body).one fun _ => .refl _
  | .variables _ es | .signature _ es => (compileAll_carries es).one fun _ => .refl _
  | .function _ _ params body =>
    (compileAll_carries params).two (compileBody_carries body) fun _ _ => .refl _
  | .classDecl decorators _ base members =>
    (compileAll_carries decorators).three base.compileElements_carries
      (compileMembers_carries members) fun _ _ _ => .refl _
  | .ifThen e t | .whileLoop e t | .withObject e t =>
    e.compileElements_carries.two t.compileElements_carries fun _ _ => .refl _
  | .ifElse test whenTrue whenFalse =>
    test.compileElements_carries.three whenTrue.compileElements_carries
      whenFalse.compileElements_carries fun _ _ _ => .refl _
  | .forLoop head test step body =>
    head.compileElements_carries.four test.compileElements_carries step.compileElements_carries
      body.compileElements_carries fun _ _ _ _ => .refl _
  | .forIn head e body | .forOf _ head e body =>
    head.compileElements_carries.three e.compileElements_carries body.compileElements_carries
      fun _ _ _ => .refl _
  | .doWhile body test =>
    body.compileElements_carries.two test.compileElements_carries fun _ _ => .refl _
  | .tryCatch body target handler =>
    (compileBody_carries body).three target.compileElements_carries (compileBody_carries handler)
      fun _ _ _ => .refl _
  | .tryFinally body finalizer =>
    (compileBody_carries body).two (compileBody_carries finalizer) fun _ _ => .refl _
  | .tryCatchFinally body target handler finalizer =>
    (compileBody_carries body).four target.compileElements_carries (compileBody_carries handler)
      (compileBody_carries finalizer) fun _ _ _ _ => .refl _
  | .switch value cases =>
    value.compileElements_carries.two (compileCases_carries cases) fun _ _ => .refl _
  | .remarks _ | .directive _ _ | .empty | .continueTo _ | .breakTo _ | .debugger
  | .importDecl _ _ _ _ _ | .exportNamed _ _ _ _ | .exportAll _ _ _ _ | .typeDecl _
  | .declared _ | .enumDecl _ _ _ _ | .namespaceDecl _ _ | .ambientModule _
  | .importEquals _ _ _ | .importRequire _ _ _ | .exportAssign _ | .exportAsNamespace _ =>
    .pure (.refl _)

/-- Compiling the elements in several statements carries their imports. -/
theorem compileBody_carries {s : ThisScope} : (body : List Stmt) →
    Carries o.Supplies bodyImports (compileBody o s body) (bodyImports body)
  | [] => .pure (.refl _)
  | t :: rest => t.compileElements_carries.two (compileBody_carries rest) fun _ _ => .refl _

/-- Compiling the elements in a case carries its imports. -/
theorem Case.compileElements_carries {s : ThisScope} :
    (c : Case) → Carries o.Supplies Case.imports (c.compileElements o s) c.imports
  | .mk test body =>
    test.compileElements_carries.two (compileBody_carries body) fun _ _ => .refl _

/-- Compiling the elements in several cases carries their imports. -/
theorem compileCases_carries {s : ThisScope} : (cs : List Case) →
    Carries o.Supplies caseImports (compileCases o s cs) (caseImports cs)
  | [] => .pure (.refl _)
  | c :: rest => c.compileElements_carries.two (compileCases_carries rest) fun _ _ => .refl _

end

end

end ModuleLoader.Syntax
