import ModuleLoader.Compile.Types.Tree
import ModuleLoader.Proofs.Compile.Imports

/-! # Imports of programs without types

Leaving the types out of a program leaves some of its imports out and adds none, and the text that
an `import()` is called on stays the same.

* **`Expr.qualify_within`** says so of members of an enumeration that are written in full.
* **`compileEnum_carries`** says so of the value of an enumeration.
* **`eraseBody_carries`** says so of the statements of a body. -/

namespace ModuleLoader.Syntax

open Compile Import

variable {packages : String → Prop}

/-! ## Members in full -/

section

variable {enum : String}

/-- The text that an expression is does not change. -/
theorem Expr.literal?_qualify {members : List String} :
    (e : Expr) → (e.qualify enum members).literal? = e.literal?
  | .commented _ e | .typed _ e => e.literal?_qualify
  | .ident name => by
    rw [Expr.qualify]
    split <;> rfl
  | .assign _ target _ => by cases target <;> rfl
  | .template _ _ | .taggedTemplate _ _ _ | .array _ | .object _ | .arrowTo _ _ _ | .yield _ _
  | .await _ | .importCall _ _ _ _ | .unary _ _ | .binary _ _ _ | .conditional _ _ _ | .sequence _
  | .member _ _ _ | .index _ _ _ | .call _ _ _ _ _ | .new _ _ _ _ | .chain _ | .spread _
  | .beforeComma _ | .paren _ | .remarked _ _ | .effectFree _ | .absent | .privateName _ | .this
  | .super | .null | .bool _ | .number _ | .bigint _ | .string _ | .regex _ _ | .function _ _ _ _
  | .arrow _ _ _ | .classExpr _ _ _ _ | .update _ _ _ | .privateMember _ _ _ | .newTarget
  | .importMeta | .computed _ | .decorated _ _ | .parameterProperty _ | .element _ _ _ _ _ _
  | .fragment _ _ | .jsxText _ | .container _ => rfl

mutual

/-- An expression imports nothing new with members in full. -/
theorem Expr.qualify_within {members : List String} :
    (e : Expr) → Within (e.qualify enum members).imports e.imports
  | .ident name => by
    rw [Expr.qualify]
    split <;> exact .nil _
  | .template _ parts | .array parts | .sequence parts => qualifyAll_within parts
  | .object properties => qualifyProperties_within properties
  | .unary _ e | .yield _ e | .await e | .member e _ _ | .chain e | .spread e | .beforeComma e
  | .paren e | .commented _ e | .remarked _ e | .effectFree e | .typed _ e => e.qualify_within
  | .binary _ e e' | .index e e' _ => e.qualify_within.append e'.qualify_within
  | .assign _ target value => by
    have htarget : Within (target.qualify enum members).imports target.imports :=
      target.qualify_within
    have hvalue : Within (value.qualify enum members).imports value.imports :=
      value.qualify_within
    cases target with
    | ident name => exact hvalue
    | _ => exact htarget.append hvalue
  | .conditional test whenTrue whenFalse =>
    (test.qualify_within.append whenTrue.qualify_within).append whenFalse.qualify_within
  | .taggedTemplate e _ parts | .call e parts _ _ _ | .new e parts _ _ =>
    e.qualify_within.append (qualifyAll_within parts)
  | .arrowTo _ params body => (Within.refl (elementImports params)).append body.qualify_within
  | .importCall _ source options _ =>
    .importCall source.literal?_qualify source.qualify_within options.qualify_within
  | .absent | .privateName _ | .this | .super | .null | .bool _ | .number _ | .bigint _
  | .string _ | .regex _ _ | .function _ _ _ _ | .arrow _ _ _ | .classExpr _ _ _ _ | .update _ _ _
  | .privateMember _ _ _ | .newTarget | .importMeta | .computed _ | .decorated _ _
  | .parameterProperty _ | .element _ _ _ _ _ _ | .fragment _ _ | .jsxText _ | .container _ =>
    .refl _

/-- Expressions import nothing new with members in full. -/
theorem qualifyAll_within {members : List String} :
    (es : List Expr) → Within (elementImports (qualifyAll enum members es)) (elementImports es)
  | [] => .nil _
  | e :: rest => e.qualify_within.append (qualifyAll_within rest)

/-- A key imports nothing new with members in full. -/
theorem Expr.qualifyKey_within {members : List String} (key : Expr) :
    Within (key.qualifyKey enum members).imports key.imports := by
  cases key with
  | computed e => exact e.qualify_within
  | _ => exact .refl _

/-- A property imports nothing new with members in full. -/
theorem Property.qualify_within {members : List String} :
    (p : Property) → Within (p.qualify enum members).imports p.imports
  | .value key value _ => key.qualifyKey_within.append value.qualify_within
  | .spread e => e.qualify_within
  | .method _ _ _ _ _ | .jsxAttribute _ _ _ => .refl _

/-- Properties import nothing new with members in full. -/
theorem qualifyProperties_within {members : List String} :
    (ps : List Property) →
      Within (propertyImports (qualifyProperties enum members ps)) (propertyImports ps)
  | [] => .nil _
  | p :: rest => p.qualify_within.append (qualifyProperties_within rest)

end

end

/-! ## Enumerations -/

section

variable {enums : Enums} {enum : String} {known : EnumMembers} {last : Option EnumMember}

theorem Constant.imports_toExpr : (c : Constant) → c.toExpr.imports = []
  | .text _ | .number .nan => rfl
  | .number (.signed isNegative x) => by cases isNegative <;> cases x <;> rfl

/-- A member that says what it is imports what that does. -/
theorem EnumMember.ofValue_within (key written init : Expr) :
    Within (ofValue enums enum known key written init).init.imports init.imports := by
  unfold ofValue
  dsimp only
  split
  · exact (Within.of_eq (Constant.imports_toExpr _)).trans (.nil _)
  · exact init.qualify_within

/-- A member that follows another one imports nothing. -/
theorem EnumMember.imports_following (key : Expr) :
    (following enum last key).init.imports = [] := by
  unfold following
  dsimp only
  split
  · exact Constant.imports_toExpr (.number (.ofInt 0))
  · exact Constant.imports_toExpr _
  · exact congrArg (· ++ []) (Constant.imports_toExpr _)

/-- Setting a member imports what its value does. -/
theorem EnumMember.imports_stmt (m : EnumMember) : (m.stmt enum).imports = m.init.imports := by
  unfold stmt
  dsimp only
  split <;> split <;> simp [Stmt.imports, Expr.imports, propertyOf]

/-- The members of an enumeration import what those without types do. -/
theorem enumMembers_within (pairs : List (Property × Property)) :
    Within (bodyImports ((enumMembers enums enum known last pairs).map (·.stmt enum)))
      (pairs.flatMap fun pair => pair.2.imports) := by
  fun_induction enumMembers enums enum known last pairs with
  | case1 known last key written _ _ init _ rest m =>
    rename_i ih
    rw [List.map_cons, List.flatMap_cons, bodyImports, EnumMember.imports_stmt]
    have hm : Within m.init.imports init.imports := by
      unfold m
      split
      · exact (Within.of_eq (EnumMember.imports_following _)).trans (.nil _)
      · exact EnumMember.ofValue_within _ _ _
    exact Within.append hm.right ih
  | case2 known last pair rest _ ih => exact ih.right
  | case3 => exact .nil _

/-- The value of an enumeration imports what its members do. -/
theorem enumValue_within {isPure : Bool} {members : List EnumMember} {closing : List Comment}
    {object : Expr} (h : object.imports = []) :
    Within (enumValue enum isPure members closing object).imports
      (bodyImports (members.map (·.stmt enum))) := by
  have hrest : bodyImports (.returnValue (.ident enum) ::
      if closing.isEmpty then [] else [.remarks closing]) = [] := by split <;> rfl
  apply Within.of_eq
  calc (enumValue enum isPure members closing object).imports
    _ = bodyImports (members.map (·.stmt enum) ++ .returnValue (.ident enum) ::
          if closing.isEmpty then [] else [.remarks closing]) ++ (object.imports ++ []) := rfl
    _ = bodyImports (members.map (·.stmt enum)) := by
      rw [bodyImports_append, hrest, h, List.append_nil, List.append_nil, List.append_nil]

/-- Compiling an enumeration carries the imports of its properties without types. -/
theorem compileEnum_carries (properties erased : List Property) (closing : List Comment)
    {object : Expr} (h : object.imports = []) :
    Carries packages Expr.imports (compileEnum enum properties erased closing object)
      (propertyImports erased) := by
  intro c
  refine ⟨((enumValue_within h).trans (enumMembers_within _)).trans (.of_subset ?_),
    fun _ hi => .inl hi⟩
  intro i hi
  obtain ⟨pair, hpair, hi⟩ := List.mem_flatMap.1 hi
  rw [propertyImports_eq]
  exact List.mem_flatMap.2 ⟨pair.2, (List.of_mem_zip hpair).2, hi⟩

end

/-! ## What is left of a declaration -/

section

variable {p : Enclosing} {isExported : Bool} {names : List String}

/-- Setting properties imports nothing. -/
theorem bodyImports_assignNames (object : String) (names : List String) :
    bodyImports (names.map fun name => .expr (assignName object name)) = [] := by
  induction names with
  | nil => rfl
  | cons name names ih => exact ih

/-- A declaration that is exported imports what it does. -/
theorem Enclosing.exported_within (s : Stmt) :
    Within (bodyImports (p.exported names s)) s.imports := by
  unfold exported
  cases p with
  | top | inner => exact within_singleton _
  | space object =>
    rw [bodyImports, bodyImports_assignNames, List.append_nil]
    exact .refl _

/-- A declaration imports what it does when it may be exported as well. -/
theorem Enclosing.declare_within (s : Stmt) :
    Within (bodyImports (p.declare isExported names s)) s.imports := by
  unfold declare
  split
  · exact exported_within s
  · exact within_singleton s

/-- A declaration without a value imports at most what it says. -/
theorem Enclosing.keep_within (s : Stmt) :
    Within (bodyImports (p.keep isExported s)) s.imports := by
  unfold keep
  split
  · exact within_singleton _
  · exact within_singleton s
  · exact .nil _

/-- A constant that becomes a property of a namespace imports what it did. -/
theorem imports_exportDeclarator (object : String) (e : Expr) :
    (exportDeclarator object e).imports = e.imports := by
  unfold exportDeclarator
  split <;> rfl

/-- Constants that become properties of a namespace import what they did. -/
theorem elementImports_exportDeclarators (object : String) (es : List Expr) :
    elementImports (es.map (exportDeclarator object)) = elementImports es := by
  induction es with
  | nil => rfl
  | cons e es ih =>
    rw [List.map_cons, elementImports, elementImports, imports_exportDeclarator, ih]

/-- Setting properties in a row imports nothing. -/
theorem elementImports_assignNames (object : String) (names : List String) :
    elementImports (names.map (assignName object)) = [] := by
  induction names with
  | nil => rfl
  | cons name names ih => exact ih

/-- Variables import what they do when they are exported as well. -/
theorem Enclosing.variables_within (kind : VariableKind) (es : List Expr) :
    Within (bodyImports (p.variables isExported kind es)) (elementImports es) := by
  unfold Enclosing.variables
  split
  · unfold spaceVariables
    split
    · refine (within_singleton _).trans ?_
      rw [Stmt.imports, elementImports_exportDeclarators]
      exact .refl _
    · refine .of_eq ?_
      simp [bodyImports, Stmt.imports, Expr.imports, elementImports_assignNames]
  · exact declare_within (.variables kind es)

/-- Comments import nothing. -/
theorem bodyImports_commentLast (comments : List Comment) (body : List Stmt) :
    bodyImports (commentLast comments body) = bodyImports body := by
  fun_induction commentLast comments body with
  | case1 | case2 => rfl
  | case3 s rest _ ih => exact congrArg (s.imports ++ ·) ih

/-- Statements in the place of one import what they did. -/
theorem imports_oneStmt : (body : List Stmt) → (oneStmt body).imports = bodyImports body
  | [s] => (List.append_nil s.imports).symm
  | [] | _ :: _ :: _ => rfl

/-- Declarations that are exported by default import what they did. -/
theorem bodyImports_exportDefaultDecl (body : List Stmt) :
    bodyImports (body.map .exportDefaultDecl) = bodyImports body := by
  induction body with
  | nil => rfl
  | cons s body ih => exact congrArg (s.imports ++ ·) ih

/-- Another name of a value imports nothing. -/
theorem imports_aliasStmt (name : String) (names : List String) :
    (aliasStmt name names).imports = [] := by
  cases names with
  | nil => rfl
  | cons first rest => exact congrArg (· ++ []) (imports_memberChain rest (.ident first))

/-- Fields that a constructor sets import nothing. -/
theorem bodyImports_fieldStmts (names : List String) : bodyImports (fieldStmts names) = [] := by
  unfold fieldStmts
  induction names with
  | nil => rfl
  | cons name names ih => exact ih

/-- Statements that import nothing may stand behind any other. -/
theorem bodyImports_insertBehindSuper {added body body' : List Stmt} (h : bodyImports added = [])
    (h' : insertBehindSuper added body = some body') : bodyImports body' = bodyImports body := by
  fun_induction insertBehindSuper added body generalizing body' with
  | case1 => cases h'
  | case2 s rest _ =>
    cases h'
    rw [List.cons_append, bodyImports, bodyImports_append, h, List.nil_append, bodyImports]
  | case3 s rest _ ih =>
    obtain ⟨rest', hrest, rfl⟩ := Option.map_eq_some_iff.1 h'
    rw [bodyImports, bodyImports, ih hrest]

/-- A constructor imports nothing more for the fields that it sets. -/
theorem bodyImports_assignProperties (names : List String) (body : List Stmt) :
    bodyImports (assignProperties names body) = bodyImports body := by
  unfold assignProperties
  split
  · rfl
  · split
    · exact bodyImports_insertBehindSuper (bodyImports_fieldStmts names) ‹_›
    · rw [bodyImports_append, bodyImports_append, bodyImports_fieldStmts, List.append_nil,
        ← bodyImports_append, List.takeWhile_append_dropWhile]

/-! ## Namespaces and loops of notes -/

/-- A namespace imports what its body does. -/
theorem namespaceStmts_within {isDeclared : Bool} {name inside : String} (body : List Stmt) :
    Within (bodyImports (namespaceStmts p isExported isDeclared name inside body))
      (bodyImports body) := by
  have houter : ∀ outer : Expr, outer.imports = [] →
      (Stmt.expr (.call (.function ⟨false, false⟩ none [.ident inside] body)
        [heldObject (.ident name) outer] [] false false)).imports = bodyImports body := by
    intro outer h
    simp [Stmt.imports, Expr.imports, elementImports, heldObject, h]
  unfold namespaceStmts
  dsimp only
  rw [bodyImports_append]
  refine Within.both (.trans (.of_eq ?_) (.nil _)) ((within_singleton _).trans (.of_eq ?_))
  · split
    · rfl
    · split <;> rfl
  · apply houter
    split <;> rfl

/-- Namespaces in each other import what the body of the innermost does. -/
theorem nestedSpaces_within {isDeclared : Bool} (body : List Stmt)
    (names : List (String × String)) :
    Within (bodyImports (nestedSpaces p isExported isDeclared body names)) (bodyImports body) := by
  induction names generalizing p isExported isDeclared with
  | nil => exact .refl _
  | cons name names ih => exact (namespaceStmts_within _).trans ih

/-- Naming the objects of namespaces imports nothing. -/
theorem insideNames_carries (names : List String) :
    Carries packages noImports (insideNames names) [] := by
  induction names with
  | nil => exact .pure (.refl _)
  | cons name names ih =>
    exact (carries_freshName name).bind fun _ _ => ih.bind fun _ _ => .pure (.refl _)

/-- Noting the same fault some times imports nothing. -/
theorem carries_faults (message : String) (ns : List Nat) :
    Carries packages noImports (do for _ in ns do Compile.fault message) [] := by
  induction ns with
  | nil => exact .pure (.refl _)
  | cons n ns ih =>
    intro c
    rw [List.forIn_cons]
    exact ih _

/-- Noting the variables that cannot be exported imports nothing. -/
theorem checkExported_carries (kind : VariableKind) (count : Nat) :
    Carries packages noImports (checkExported p isExported kind count) [] := by
  unfold checkExported
  split
  · exact .pure (.refl _)
  · exact carries_faults _ _
  · exact .pure (.refl _)

/-- Declaring an enumeration carries the imports of its properties without types. -/
theorem enumStmts_carries {isDeclared : Bool} {name : String} (properties erased : List Property)
    (closing : List Comment) :
    Carries packages bodyImports
      (enumStmts p isExported isDeclared name properties erased closing)
      (propertyImports erased) := by
  unfold enumStmts
  dsimp only
  refine (compileEnum_carries properties erased closing ?_).bind fun value hvalue => ?_
  · split <;> rfl
  · have hs : ∀ b : Bool, Within (if b then Stmt.expr (.assign .plain (.ident name) value)
        else .variables (if !isDeclared && (p != .top || isExported) then .letVar else .var)
          [.assign .plain (.ident name) value]).imports (propertyImports erased) := by
      intro b
      cases b with
      | true => exact hvalue
      | false => exact (Within.of_eq (List.append_nil value.imports)).trans hvalue
    split
    · exact .pure ((within_singleton _).trans (hs _))
    · exact .pure ((Enclosing.declare_within _).trans (hs _))

end

/-! ## Members and declarations of types -/

section

variable {decorators params : List Expr} {key value : Expr} {body : List Stmt}

/-- What is left of a method carries its imports when its parts carry theirs. -/
theorem method_carries {comments : List Comment} {modifiers : Modifiers} {kind : MethodKind}
    {function : FunctionKind}
    (hdecorators : Carries packages elementImports (eraseAll decorators)
      (elementImports decorators))
    (hkey : Carries packages Expr.imports key.erase key.imports)
    (hparams : Carries packages elementImports (eraseAll params) (elementImports params))
    (hbody : Carries packages bodyImports (eraseBody .inner [] body) (bodyImports body)) :
    Carries packages memberImports
      (Member.method comments decorators modifiers kind key function params body).erase
      (Member.method comments decorators modifiers kind key function params body).imports := by
  rw [Member.erase]
  split
  · exact .pure (.nil _)
  -- the key is compiled before the decorators
  refine hkey.bind fun _ hkey => hdecorators.bind fun _ hdecorators => ?_
  refine hparams.bind fun _ hparams => hbody.bind fun _ hbody => ?_
  refine .pure ((Within.of_eq (List.append_nil _)).trans ?_)
  refine ((hdecorators.append hkey).append hparams).append (.trans (.of_eq ?_) hbody)
  split
  · exact bodyImports_assignProperties _ _
  · rfl

/-- What is left of a field carries its imports when its parts carry theirs. -/
theorem field_carries {comments : List Comment} {modifiers : Modifiers}
    (hdecorators : Carries packages elementImports (eraseAll decorators)
      (elementImports decorators))
    (hkey : Carries packages Expr.imports key.erase key.imports)
    (hvalue : Carries packages Expr.imports value.erase value.imports) :
    Carries packages memberImports (Member.field comments decorators modifiers key value).erase
      (Member.field comments decorators modifiers key value).imports := by
  rw [Member.erase]
  split
  · exact .pure (.nil _)
  · exact hdecorators.three hkey hvalue fun _ _ _ => .of_eq (List.append_nil _)

variable {p : Enclosing} {isExported : Bool} {before : List String}

/-- What is left of a namespace carries the imports of its body. -/
theorem namespaceDecl_carries {names : List String}
    (h : ∀ p before, Carries packages bodyImports (eraseBody p before body) (bodyImports body)) :
    Carries packages bodyImports ((Stmt.namespaceDecl names body).erase p isExported before)
      (bodyImports body) := by
  rw [Stmt.erase]
  split
  · exact .pure (.nil _)
  refine (insideNames_carries names).bind fun names _ => (h _ _).bind fun left hleft => ?_
  split
  · exact .pure (.nil _)
  · exact .pure ((nestedSpaces_within left names).trans hleft)

/-- What is left of an alias carries no imports. -/
theorem importEquals_carries (isType : Bool) (name : String) (names : List String) :
    Carries packages bodyImports ((Stmt.importEquals isType name names).erase p isExported before)
      [] := by
  rw [Stmt.erase]
  have halias : Within (aliasStmt name names).imports [] := .of_eq (imports_aliasStmt name names)
  split
  · exact .pure ((Enclosing.exported_within _).trans halias)
  split
  · exact .pure (.refl _)
  split
  · exact .pure (.refl _)
  · exact .pure ((within_singleton _).trans halias)

/-- What is left of an import by a call carries its imports. -/
theorem importRequire_carries (isType : Bool) (name : String) (source : StringLiteral) :
    Carries packages bodyImports
      ((Stmt.importRequire isType name source).erase p isExported before)
      (Stmt.importRequire isType name source).imports := by
  rw [Stmt.erase]
  split
  · exact .pure (Enclosing.exported_within (requireStmt name source))
  split
  · exact .pure (.refl _)
  split <;> exact .pure (.refl _)

end

/-! ## Trees -/

/-- The text that an expression is does not change when types are left out. -/
theorem Expr.literal?_erase :
    (e : Expr) → (c : Compilation) → (e.erase c).1.literal? = e.literal?
  | .commented _ e, c | .typed _ e, c | .parameterProperty e, c => e.literal?_erase c
  | .absent, _ | .ident _, _ | .privateName _, _ | .this, _ | .super, _ | .null, _ | .bool _, _
  | .number _, _ | .bigint _, _ | .string _, _ | .regex _ _, _ | .template _ _, _
  | .taggedTemplate _ _ _, _ | .array _, _ | .object _, _ | .function _ _ _ _, _
  | .arrow _ _ _, _ | .arrowTo _ _ _, _ | .classExpr _ _ _ _, _ | .unary _ _, _
  | .update _ _ _, _ | .binary _ _ _, _ | .assign _ _ _, _ | .conditional _ _ _, _
  | .sequence _, _ | .member _ _ _, _ | .privateMember _ _ _, _ | .index _ _ _, _
  | .call _ _ _ _ _, _ | .new _ _ _ _, _ | .chain _, _ | .newTarget, _ | .importMeta, _
  | .importCall _ _ _ _, _ | .yield _ _, _ | .await _, _ | .spread _, _ | .beforeComma _, _
  | .paren _, _ | .computed _, _ | .decorated _ _, _ | .remarked _ _, _ | .effectFree _, _
  | .element _ _ _ _ _ _, _ | .fragment _ _, _ | .jsxText _, _ | .container _, _ => rfl

mutual

/-- Leaving types out of an expression carries its imports. -/
theorem Expr.erase_carries : (e : Expr) → Carries packages Expr.imports e.erase e.imports
  | .template _ parts | .array parts | .sequence parts | .fragment _ parts =>
    (eraseAll_carries parts).one fun _ => .refl _
  | .object properties => (eraseProperties_carries properties).one fun _ => .refl _
  | .unary _ e | .update _ _ e | .member e _ _ | .privateMember e _ _ | .chain e | .yield _ e
  | .await e | .spread e | .beforeComma e | .paren e | .computed e | .commented _ e
  | .remarked _ e | .effectFree e | .container e => e.erase_carries.one fun _ => .refl _
  | .typed _ e | .parameterProperty e => e.erase_carries
  | .binary _ e e' | .assign _ e e' | .index e e' _ =>
    e.erase_carries.two e'.erase_carries fun _ _ => .refl _
  | .conditional test whenTrue whenFalse =>
    test.erase_carries.three whenTrue.erase_carries whenFalse.erase_carries fun _ _ _ => .refl _
  | .taggedTemplate e _ parts | .call e parts _ _ _ | .new e parts _ _ =>
    e.erase_carries.two (eraseAll_carries parts) fun _ _ => .refl _
  | .function _ _ params body | .arrow _ params body =>
    (eraseAll_carries params).two (eraseBody_carries body) fun _ _ => .refl _
  | .arrowTo _ parts e | .decorated parts e =>
    (eraseAll_carries parts).two e.erase_carries fun _ _ => .refl _
  | .classExpr decorators _ base members =>
    (eraseAll_carries decorators).three base.erase_carries (eraseMembers_carries members)
      fun _ _ _ => .refl _
  | .importCall _ source options _ =>
    .importCall source.erase_carries options.erase_carries source.literal?_erase
  | .element _ _ _ _ attributes children =>
    (eraseProperties_carries attributes).two (eraseAll_carries children) fun _ _ => .refl _
  | .absent | .ident _ | .privateName _ | .this | .super | .null | .bool _ | .number _ | .bigint _
  | .string _ | .regex _ _ | .newTarget | .importMeta | .jsxText _ => .pure (.refl _)

/-- Leaving types out of several expressions carries their imports. -/
theorem eraseAll_carries :
    (es : List Expr) → Carries packages elementImports (eraseAll es) (elementImports es)
  | [] => .pure (.refl _)
  | e :: rest => e.erase_carries.two (eraseAll_carries rest) fun _ _ => .refl _

/-- Leaving types out of a property carries its imports. -/
theorem Property.erase_carries :
    (p : Property) → Carries packages Property.imports p.erase p.imports
  | .value key value _ => key.erase_carries.two value.erase_carries fun _ _ => .refl _
  | .method _ key _ params body =>
    key.erase_carries.three (eraseAll_carries params) (eraseBody_carries body)
      fun _ _ _ => .refl _
  | .spread e | .jsxAttribute _ _ e => e.erase_carries.one fun _ => .refl _

/-- Leaving types out of several properties carries their imports. -/
theorem eraseProperties_carries : (ps : List Property) →
    Carries packages propertyImports (eraseProperties ps) (propertyImports ps)
  | [] => .pure (.refl _)
  | p :: rest => p.erase_carries.two (eraseProperties_carries rest) fun _ _ => .refl _

/-- What is left of a member of a class carries its imports. -/
theorem Member.erase_carries : (m : Member) → Carries packages memberImports m.erase m.imports
  | .method _ decorators _ _ key _ params body =>
    method_carries (eraseAll_carries decorators) key.erase_carries (eraseAll_carries params)
      (eraseBody_carries body)
  | .field _ decorators _ key value =>
    field_carries (eraseAll_carries decorators) key.erase_carries value.erase_carries
  | .staticBlock _ body => (eraseBody_carries body).one fun _ => .of_eq (List.append_nil _)
  | .signature _ _ => .pure (.nil _)

/-- What is left of several members of a class carries their imports. -/
theorem eraseMembers_carries :
    (ms : List Member) → Carries packages memberImports (eraseMembers ms) (memberImports ms)
  | [] => .pure (.refl _)
  | m :: rest => m.erase_carries.two (eraseMembers_carries rest) fun _ _ =>
    .of_eq (memberImports_append _ _)

/-- What is left of a statement carries its imports. -/
theorem Stmt.erase_carries {p : Enclosing} {isExported : Bool} {before : List String} :
    (s : Stmt) → Carries packages bodyImports (s.erase p isExported before) s.imports
  | .commented comments s => s.erase_carries.bind fun left hleft => .pure (by
      split
      · exact hleft
      · exact (Within.of_eq (bodyImports_commentLast _ _)).trans hleft)
  | .expr e | .returnValue e | .throwValue e | .exportDefault e =>
    e.erase_carries.one fun _ => within_singleton _
  | .exportAssign e => e.erase_carries.one fun _ => within_singleton _
  | .block body => (eraseBody_carries body).one fun _ => within_singleton _
  | .variables _ es => (checkExported_carries _ _).bind fun _ _ =>
    (eraseAll_carries es).one fun _ => Enclosing.variables_within _ _
  | .function _ _ params body =>
    (eraseAll_carries params).two (eraseBody_carries body) fun _ _ => Enclosing.declare_within _
  | .signature name params => .pure (Enclosing.keep_within (.signature name params))
  | .classDecl decorators _ base members =>
    (eraseAll_carries decorators).three base.erase_carries (eraseMembers_carries members)
      fun _ _ _ => Enclosing.declare_within _
  | .ifThen e s | .whileLoop e s | .withObject e s =>
    e.erase_carries.two s.erase_carries fun a b =>
      (within_singleton _).trans (.append (.refl _) (.of_eq (imports_oneStmt b)))
  | .ifElse test whenTrue whenFalse =>
    test.erase_carries.three whenTrue.erase_carries whenFalse.erase_carries fun _ b c =>
      (within_singleton _).trans
        ((Within.append (.refl _) (.of_eq (imports_oneStmt b))).append (.of_eq (imports_oneStmt c)))
  | .forLoop head test step body =>
    (eraseHead_carries head).four test.erase_carries step.erase_carries body.erase_carries
      fun _ _ _ d => (within_singleton _).trans (.append (.refl _) (.of_eq (imports_oneStmt d)))
  | .forIn head e body | .forOf _ head e body =>
    (eraseHead_carries head).three e.erase_carries body.erase_carries
      fun _ _ c => (within_singleton _).trans (.append (.refl _) (.of_eq (imports_oneStmt c)))
  | .doWhile body test => body.erase_carries.two test.erase_carries fun a _ =>
      (within_singleton _).trans (.append (.of_eq (imports_oneStmt a)) (.refl _))
  | .tryCatch body target handler =>
    (eraseBody_carries body).three target.erase_carries (eraseBody_carries handler)
      fun _ _ _ => within_singleton _
  | .tryFinally body finalizer =>
    (eraseBody_carries body).two (eraseBody_carries finalizer) fun _ _ => within_singleton _
  | .tryCatchFinally body target handler finalizer =>
    (eraseBody_carries body).four target.erase_carries (eraseBody_carries handler)
      (eraseBody_carries finalizer) fun _ _ _ _ => within_singleton _
  | .switch value cases =>
    value.erase_carries.two (eraseCases_carries cases) fun _ _ => within_singleton _
  | .labeled _ s =>
    s.erase_carries.one fun a => (within_singleton _).trans (.of_eq (imports_oneStmt a))
  | .exportDecl s => s.erase_carries
  | .exportDefaultDecl s => s.erase_carries.one fun _ => .of_eq (bodyImports_exportDefaultDecl _)
  | .typeDecl name => .pure (Enclosing.keep_within (.typeDecl name))
  | .declared s => .pure (Enclosing.keep_within (.declared s))
  | .enumDecl _ _ members closing => (eraseProperties_carries members).bind fun erased herased =>
    (enumStmts_carries members erased closing).mono herased
  | .namespaceDecl _ body => namespaceDecl_carries fun _ _ => eraseBody_carries body
  | .ambientModule _ | .exportAsNamespace _ => .pure (.nil _)
  | .importEquals isType name names => importEquals_carries isType name names
  | .importRequire isType name source => importRequire_carries isType name source
  | .exportNamed isType specifiers source attributes => by
    cases p with
    | top => exact .pure (within_singleton _)
    | space _ | inner => exact .pure (.nil _)
  | .remarks _ | .directive _ _ | .empty | .continueTo _ | .breakTo _ | .debugger
  | .importDecl _ _ _ _ _ | .exportAll _ _ _ _ => .pure (within_singleton _)

/-- What is left of the head of a loop carries its imports. -/
theorem eraseHead_carries :
    (s : Stmt) → Carries packages Stmt.imports (eraseHead s) s.imports
  | .variables _ es => (eraseAll_carries es).one fun _ => .refl _
  | .expr e => e.erase_carries.one fun _ => .refl _
  | .commented .. | .remarks .. | .directive .. | .block .. | .empty | .function ..
  | .signature .. | .classDecl .. | .ifThen .. | .ifElse .. | .forLoop .. | .forIn .. | .forOf ..
  | .whileLoop .. | .doWhile .. | .continueTo .. | .breakTo .. | .returnValue .. | .throwValue ..
  | .tryCatch .. | .tryFinally .. | .tryCatchFinally .. | .switch .. | .labeled ..
  | .withObject .. | .debugger | .importDecl .. | .exportNamed .. | .exportAll .. | .exportDecl ..
  | .exportDefault .. | .exportDefaultDecl .. | .typeDecl .. | .declared .. | .enumDecl ..
  | .namespaceDecl .. | .ambientModule .. | .importEquals .. | .importRequire ..
  | .exportAssign .. | .exportAsNamespace .. => .pure (.refl _)

/-- What is left of a body carries its imports. -/
theorem eraseBody_carries {p : Enclosing} {before : List String} :
    (body : List Stmt) → Carries packages bodyImports (eraseBody p before body) (bodyImports body)
  | [] => .pure (.refl _)
  | s :: rest => s.erase_carries.two (eraseBody_carries rest) fun _ _ =>
    .of_eq (bodyImports_append _ _)

/-- What is left of a case carries its imports. -/
theorem Case.erase_carries : (c : Case) → Carries packages Case.imports c.erase c.imports
  | .mk test body => test.erase_carries.two (eraseBody_carries body) fun _ _ => .refl _

/-- What is left of several cases carries their imports. -/
theorem eraseCases_carries :
    (cs : List Case) → Carries packages caseImports (eraseCases cs) (caseImports cs)
  | [] => .pure (.refl _)
  | c :: rest => c.erase_carries.two (eraseCases_carries rest) fun _ _ => .refl _

end

end ModuleLoader.Syntax
