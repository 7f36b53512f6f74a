import ModuleLoader.Proofs.Compile.Specifiers

/-! # The names that a compiled module exports

Neither compiling elements nor replacing specifiers changes what a module exports, or in which
order: both go through the tree and leave the targets of declarations, the names of functions and
classes, and the names in the braces of exports.

* **`Shows`** says what is seen of the result of a step, whatever has happened before it.
* **`bodyExports`** is the names that some statements export; **`redirectBody_exports`** and
  **`compileBody_exports`** say that they stay.
* **`Program.exports_of_compile`** says that a program without types has, when it is compiled, the
  same names in the same order. -/

namespace ModuleLoader.Syntax

variable {σ α β ε ν ν' ν'' : Type} {f : String → Option String} {o : ElementOptions}
variable {scope : ThisScope}

/-! ## What is seen of steps -/

/-- The result of a step shows something, whatever has happened before. -/
def Shows (view : α → ν) (m : StateM σ α) (x : ν) : Prop := ∀ s, view (m s).1 = x

namespace Shows

variable {m : StateM σ α} {n : StateM σ β} {viewed : α → ν} {viewed' : β → ν'} {view : ε → ν''}
variable {x : ν} {x' : ν'}

/-- What is given back shows what it does. -/
theorem pure {v : α} (h : viewed v = x) : Shows viewed (Pure.pure v : StateM σ α) x := fun _ => h

/-- What comes before a step does not matter. -/
theorem behind {k : β → StateM σ α} (h : ∀ v, Shows viewed (k v) x) : Shows viewed (n >>= k) x :=
  fun s => h (n s).1 (n s).2

/-- A tree shows what one of its parts does. -/
theorem one {view : ε → ν} {k : α → ε} (h : Shows viewed m x) (hk : ∀ v, view (k v) = viewed v) :
    Shows view (do return k (← m)) x :=
  fun s => (hk _).trans (h s)

/-- A tree shows what two of its parts do together. -/
theorem two {k : α → β → ε} (h : Shows viewed m x) (join : ν → ν' → ν'')
    (hk : ∀ v w, view (k v w) = join (viewed v) (viewed' w)) (h' : Shows viewed' n x') :
    Shows view (do return k (← m) (← n)) (join x x') := by
  intro s
  change view (k (m s).1 (n (m s).2).1) = join x x'
  rw [hk, h, h']

end Shows

/-- The names that a property of a target binds. -/
def Property.boundNames (p : Property) : List String := propertyNames [p]

/-- The names that properties bind are those of the first one and of the others. -/
theorem propertyNames_cons (p : Property) (rest : List Property) :
    propertyNames (p :: rest) = p.boundNames ++ propertyNames rest := by
  cases p <;> simp [Property.boundNames, propertyNames]

/-- The names that a statement exports: all of them, and those that are no default. -/
def Stmt.exports (s : Stmt) : List String × List String :=
  (s.exportedNames, Parser.Stmt.namedExports s)

/-- The names that some statements export: all of them, and those that are no defaults. -/
def bodyExports : List Stmt → List String × List String
  | [] => ([], [])
  | s :: rest => (s.exports.1 ++ (bodyExports rest).1, s.exports.2 ++ (bodyExports rest).2)

/-- All names are those that are exported. -/
theorem fst_bodyExports (body : List Stmt) : (bodyExports body).1 = exportedNames body := by
  induction body with
  | nil => rfl
  | cons s rest ih => exact congrArg (s.exportedNames ++ ·) ih

/-- The faults of a module by the names that it exports depend on nothing else. -/
theorem exportFaults_congr {body body' : List Stmt} (h : bodyExports body = bodyExports body') :
    Parser.exportFaults body = Parser.exportFaults body' := by
  have hnamed : ∀ body : List Stmt, body.flatMap Parser.Stmt.namedExports =
      (bodyExports body).2 := by
    intro body
    induction body with
    | nil => rfl
    | cons s rest ih => exact congrArg (Parser.Stmt.namedExports s ++ ·) ih
  unfold Parser.exportFaults
  rw [hnamed, hnamed, ← fst_bodyExports, ← fst_bodyExports, h]

/-! ## Replacing specifiers -/

mutual

/-- Replacing specifiers in a target leaves the names that it binds. -/
theorem Expr.redirect_names :
    (e : Expr) → Shows Expr.boundNames (e.redirect f) e.boundNames
  | .array es => (redirectAll_names es).one fun _ => rfl
  | .object ps => (redirectProperties_names ps).one fun _ => rfl
  | .assign _ target _ => fun a => target.redirect_names a
  | .spread e | .parameterProperty e => e.redirect_names.one fun _ => rfl
  | .decorated _ e => .behind fun _ => e.redirect_names.one fun _ => rfl
  | .importCall phase source options closing => by
    rw [Expr.redirect]
    cases redirectSpecifier? f source <;> exact fun _ => rfl
  | .paren _ | .typed _ _ | .commented _ _ | .beforeComma _ | .absent | .ident _ | .privateName _
  | .this | .super | .null | .bool _ | .number _ | .bigint _ | .string _ | .regex _ _ | .newTarget
  | .importMeta | .jsxText _ | .template _ _ | .sequence _ | .unary _ _ | .update _ _ _
  | .member _ _ _ | .privateMember _ _ _ | .chain _ | .yield _ _ | .await _ | .computed _
  | .remarked _ _ | .effectFree _ | .container _ | .binary _ _ _ | .index _ _ _
  | .conditional _ _ _ | .taggedTemplate _ _ _ | .call _ _ _ _ _ | .new _ _ _ _
  | .function _ _ _ _ | .arrow _ _ _ | .arrowTo _ _ _ | .classExpr _ _ _ _
  | .element _ _ _ _ _ _ | .fragment _ _ => fun _ => rfl

/-- Replacing specifiers in targets leaves the names that they bind. -/
theorem redirectAll_names :
    (es : List Expr) → Shows elementNames (redirectAll f es) (elementNames es)
  | [] => .pure rfl
  | e :: rest => e.redirect_names.two (· ++ ·) (fun _ _ => rfl) (redirectAll_names rest)

/-- Replacing specifiers in a property of a target leaves the names that it binds. -/
theorem Property.redirect_names :
    (p : Property) → Shows Property.boundNames (p.redirect f) p.boundNames
  | .value _ value _ => fun _ => congrArg (· ++ []) (value.redirect_names _)
  | .spread e => fun _ => congrArg (· ++ []) (e.redirect_names _)
  | .method _ _ _ _ _ | .jsxAttribute _ _ _ => fun _ => rfl

/-- Replacing specifiers in the properties of a target leaves the names that they bind. -/
theorem redirectProperties_names : (ps : List Property) →
    Shows propertyNames (redirectProperties f ps) (propertyNames ps)
  | [] => .pure rfl
  | p :: rest => by
    rw [propertyNames_cons]
    exact p.redirect_names.two (· ++ ·) propertyNames_cons (redirectProperties_names rest)

end

/-- Replacing specifiers in a declaration leaves the names that it declares. -/
theorem Stmt.redirect_declaredNames :
    (s : Stmt) → Shows Stmt.declaredNames (s.redirect f) s.declaredNames
  | .commented _ s => s.redirect_declaredNames.one fun _ => rfl
  | .variables _ es => (redirectAll_names es).one fun _ => rfl
  | .function _ name _ _ => by cases name <;> exact fun _ => rfl
  | .classDecl _ name _ _ => by cases name <;> exact fun _ => rfl
  | .namespaceDecl names _ => by cases names <;> exact fun _ => rfl
  | .exportNamed _ _ source _ => by cases source <;> exact fun _ => rfl
  | .expr _ | .block _ | .signature _ _ | .ifThen _ _ | .ifElse _ _ _ | .forLoop _ _ _ _
  | .forIn _ _ _ | .forOf _ _ _ _ | .whileLoop _ _ | .doWhile _ _ | .returnValue _ | .throwValue _
  | .tryCatch _ _ _ | .tryFinally _ _ | .tryCatchFinally _ _ _ _ | .switch _ _ | .labeled _ _
  | .withObject _ _ | .importDecl _ _ _ _ _ | .exportAll _ _ _ _ | .exportDecl _
  | .exportDefault _ | .exportDefaultDecl _ | .declared _ | .enumDecl _ _ _ _ | .ambientModule _
  | .exportAssign _ | .remarks _ | .directive _ _ | .empty | .continueTo _ | .breakTo _
  | .debugger | .typeDecl _ | .importEquals _ _ _ | .importRequire _ _ _
  | .exportAsNamespace _ => fun _ => rfl

/-- Replacing specifiers in a statement leaves the names that it exports. -/
theorem Stmt.redirect_exports :
    (s : Stmt) → Shows Stmt.exports (s.redirect f) s.exports
  | .commented _ s => s.redirect_exports.one fun _ => rfl
  | .exportDecl s => fun a =>
    congrArg (fun names => (names, names)) (s.redirect_declaredNames a)
  | .exportNamed _ _ source _ => by cases source <;> exact fun _ => rfl
  | .exportAll _ exported _ _ => by cases exported <;> exact fun _ => rfl
  | .expr _ | .block _ | .variables _ _ | .function _ _ _ _ | .signature _ _ | .classDecl _ _ _ _
  | .ifThen _ _ | .ifElse _ _ _ | .forLoop _ _ _ _ | .forIn _ _ _ | .forOf _ _ _ _
  | .whileLoop _ _ | .doWhile _ _ | .returnValue _ | .throwValue _ | .tryCatch _ _ _
  | .tryFinally _ _ | .tryCatchFinally _ _ _ _ | .switch _ _ | .labeled _ _ | .withObject _ _
  | .importDecl _ _ _ _ _ | .exportDefault _ | .exportDefaultDecl _ | .declared _
  | .enumDecl _ _ _ _ | .namespaceDecl _ _ | .ambientModule _ | .exportAssign _ | .remarks _
  | .directive _ _ | .empty | .continueTo _ | .breakTo _ | .debugger | .typeDecl _
  | .importEquals _ _ _ | .importRequire _ _ _ | .exportAsNamespace _ => fun _ => rfl

/-- Replacing specifiers leaves the names that some statements export, in their order. -/
theorem redirectBody_exports (body : List Stmt) :
    Shows bodyExports (redirectBody f body) (bodyExports body) := by
  induction body with
  | nil => exact .pure rfl
  | cons s rest ih =>
    intro a
    exact congrArg₂ (fun x y => (x.1 ++ y.1, x.2 ++ y.2)) (s.redirect_exports a) (ih _)

/-! ## Compiling elements -/

/-- An element is compiled to a call, which binds no names. -/
theorem buildElement_names {tail : Nat} {opening closing : List Comment} {name : ElementName}
    {attributes : List Property} {children : List Expr} :
    Shows Expr.boundNames
      (Expr.buildElement o scope (.element tail opening closing name attributes children)) [] := by
  rw [Expr.buildElement]
  cases o.isClassic with
  | true => cases o.isDevelopment <;> exact fun _ => rfl
  | false =>
    cases keyFollowsSpread attributes <;> cases o.isDevelopment <;> exact fun _ => rfl

/-- A fragment is compiled to a call, which binds no names. -/
theorem buildFragment_names {closing : List Comment} {children : List Expr} :
    Shows Expr.boundNames (Expr.buildElement o scope (.fragment closing children)) [] := by
  rw [Expr.buildElement]
  split
  · exact fun _ => rfl
  · exact fun _ => rfl

mutual

/-- Compiling the elements in a target leaves the names that it binds. -/
theorem Expr.compileElements_names :
    (e : Expr) → Shows Expr.boundNames (e.compileElements o scope) e.boundNames
  | .array es => (compileAll_names es).one fun _ => rfl
  | .object ps => (compileProperties_names ps).one fun _ => rfl
  | .assign _ target _ => fun a => target.compileElements_names a
  | .spread e | .parameterProperty e => e.compileElements_names.one fun _ => rfl
  | .decorated _ e => .behind fun _ => e.compileElements_names.one fun _ => rfl
  | .element _ _ _ _ _ _ => .behind fun _ => .behind fun _ => buildElement_names
  | .fragment _ _ => .behind fun _ => buildFragment_names
  | .paren _ | .typed _ _ | .commented _ _ | .beforeComma _ | .absent | .ident _ | .privateName _
  | .this | .super | .null | .bool _ | .number _ | .bigint _ | .string _ | .regex _ _ | .newTarget
  | .importMeta | .jsxText _ | .template _ _ | .sequence _ | .unary _ _ | .update _ _ _
  | .member _ _ _ | .privateMember _ _ _ | .chain _ | .yield _ _ | .await _ | .computed _
  | .remarked _ _ | .effectFree _ | .container _ | .binary _ _ _ | .index _ _ _
  | .conditional _ _ _ | .taggedTemplate _ _ _ | .call _ _ _ _ _ | .new _ _ _ _
  | .function _ _ _ _ | .arrow _ _ _ | .arrowTo _ _ _ | .classExpr _ _ _ _
  | .importCall _ _ _ _ => fun _ => rfl

/-- Compiling the elements in targets leaves the names that they bind. -/
theorem compileAll_names :
    (es : List Expr) → Shows elementNames (compileAll o scope es) (elementNames es)
  | [] => .pure rfl
  | e :: rest => e.compileElements_names.two (· ++ ·) (fun _ _ => rfl) (compileAll_names rest)

/-- Compiling the elements in a property of a target leaves the names that it binds. -/
theorem Property.compileElements_names :
    (p : Property) → Shows Property.boundNames (p.compileElements o scope) p.boundNames
  | .value _ value _ => fun _ => congrArg (· ++ []) (value.compileElements_names _)
  | .spread e => fun _ => congrArg (· ++ []) (e.compileElements_names _)
  | .method _ _ _ _ _ | .jsxAttribute _ _ _ => fun _ => rfl

/-- Compiling the elements in the properties of a target leaves the names that they bind. -/
theorem compileProperties_names : (ps : List Property) →
    Shows propertyNames (compileProperties o scope ps) (propertyNames ps)
  | [] => .pure rfl
  | p :: rest => by
    rw [propertyNames_cons]
    exact p.compileElements_names.two (· ++ ·) propertyNames_cons (compileProperties_names rest)

end

/-- Compiling the elements in a declaration leaves the names that it declares. -/
theorem Stmt.compileElements_declaredNames :
    (s : Stmt) → Shows Stmt.declaredNames (s.compileElements o scope) s.declaredNames
  | .commented _ s => s.compileElements_declaredNames.one fun _ => rfl
  | .variables _ es => (compileAll_names es).one fun _ => rfl
  | .function _ name _ _ => by cases name <;> exact fun _ => rfl
  | .classDecl _ name _ _ => by cases name <;> exact fun _ => rfl
  | .expr _ | .block _ | .signature _ _ | .ifThen _ _ | .ifElse _ _ _ | .forLoop _ _ _ _
  | .forIn _ _ _ | .forOf _ _ _ _ | .whileLoop _ _ | .doWhile _ _ | .returnValue _ | .throwValue _
  | .tryCatch _ _ _ | .tryFinally _ _ | .tryCatchFinally _ _ _ _ | .switch _ _ | .labeled _ _
  | .withObject _ _ | .importDecl _ _ _ _ _ | .exportAll _ _ _ _ | .exportDecl _
  | .exportDefault _ | .exportDefaultDecl _ | .declared _ | .enumDecl _ _ _ _ | .ambientModule _
  | .exportAssign _ | .remarks _ | .directive _ _ | .empty | .continueTo _ | .breakTo _
  | .debugger | .typeDecl _ | .importEquals _ _ _ | .importRequire _ _ _
  | .exportAsNamespace _ | .namespaceDecl _ _ | .exportNamed _ _ _ _ => fun _ => rfl

/-- Compiling the elements in a statement leaves the names that it exports. -/
theorem Stmt.compileElements_exports :
    (s : Stmt) → Shows Stmt.exports (s.compileElements o scope) s.exports
  | .commented _ s => s.compileElements_exports.one fun _ => rfl
  | .exportDecl s => fun a =>
    congrArg (fun names => (names, names)) (s.compileElements_declaredNames a)
  | .expr _ | .block _ | .variables _ _ | .function _ _ _ _ | .signature _ _ | .classDecl _ _ _ _
  | .ifThen _ _ | .ifElse _ _ _ | .forLoop _ _ _ _ | .forIn _ _ _ | .forOf _ _ _ _
  | .whileLoop _ _ | .doWhile _ _ | .returnValue _ | .throwValue _ | .tryCatch _ _ _
  | .tryFinally _ _ | .tryCatchFinally _ _ _ _ | .switch _ _ | .labeled _ _ | .withObject _ _
  | .importDecl _ _ _ _ _ | .exportDefault _ | .exportDefaultDecl _ | .declared _
  | .enumDecl _ _ _ _ | .namespaceDecl _ _ | .ambientModule _ | .exportAssign _ | .remarks _
  | .directive _ _ | .empty | .continueTo _ | .breakTo _ | .debugger | .typeDecl _
  | .importEquals _ _ _ | .importRequire _ _ _ | .exportAsNamespace _ | .exportNamed _ _ _ _
  | .exportAll _ _ _ _ => fun _ => rfl

/-- Compiling elements leaves the names that some statements export, in their order. -/
theorem compileBody_exports (body : List Stmt) :
    Shows bodyExports (compileBody o scope body) (bodyExports body) := by
  induction body with
  | nil => exact .pure rfl
  | cons s rest ih =>
    intro a
    exact congrArg₂ (fun x y => (x.1 ++ y.1, x.2 ++ y.2)) (s.compileElements_exports a) (ih _)

/-! ## Compiled programs -/

/-- The names of a module are those of its parts. -/
theorem bodyExports_append (xs ys : List Stmt) :
    bodyExports (xs ++ ys) =
      ((bodyExports xs).1 ++ (bodyExports ys).1, (bodyExports xs).2 ++ (bodyExports ys).2) := by
  induction xs with
  | nil => rfl
  | cons s xs ih =>
    rw [List.cons_append, bodyExports, ih]
    simp [bodyExports]

/-- The declarations that compiled code needs export nothing. -/
theorem bodyExports_declarations (c : Compilation) (path : String) :
    bodyExports (c.declarations path) = ([], []) := by
  have hgroups : ∀ groups : List (String × List AddedImport),
      bodyExports (groups.map fun g => importStmt g.1 g.2) = ([], []) := by
    intro groups
    induction groups with
    | nil => rfl
    | cons g groups ih =>
      rw [List.map_cons, bodyExports, ih]
      rfl
  unfold Compilation.declarations
  rw [bodyExports_append, hgroups]
  cases c.fileName with
  | none => rfl
  | some name => rfl

/-- Declarations that export nothing leave the names of the statements that they are put among. -/
theorem bodyExports_insertDeclarations {declarations : List Stmt}
    (h : bodyExports declarations = ([], [])) (body : List Stmt) :
    bodyExports (insertDeclarations declarations body) = bodyExports body := by
  have hbody := List.takeWhile_append_dropWhile (p := Stmt.isDirective) (l := body)
  have himports := List.takeWhile_append_dropWhile (p := Stmt.isImport)
    (l := body.dropWhile Stmt.isDirective)
  have hnothing : ∀ xs ys : List Stmt,
      bodyExports (xs ++ declarations ++ ys) = bodyExports (xs ++ ys) := by
    intro xs ys
    rw [bodyExports_append, bodyExports_append, h, bodyExports_append]
    simp
  unfold insertDeclarations
  dsimp only
  rw [hnothing, List.append_assoc, himports, hbody]

namespace Program

variable {p p' : Program} {j : JsxConfig} {path text : String}

/-- A program without types is compiled by compiling its elements, and adding what these need. -/
theorem body_of_compile_untyped (htypes : p.dialect.hasTypes = false)
    (h : p.compile j path text = .ok p') :
    ∃ r, compileBody (p.elementOptions j text) ThisScope.ofModule p.body
        (Compile.start (bodyMentions p.body ++ allMentions p.asides)) = r ∧
      p'.body = insertDeclarations (r.2.declarations path) r.1 := by
  have herased : p.eraseTypes = pure (p.body, false) := by
    unfold eraseTypes
    rw [htypes]
    rfl
  refine ⟨_, rfl, ?_⟩
  rw [body_of_compile h]
  unfold compileStmts
  rw [herased, pure_bind]
  rfl

/-- A program without types exports, when it is compiled, the same names in the same order. -/
theorem exports_of_compile (htypes : p.dialect.hasTypes = false)
    (h : p.compile j path text = .ok p') : bodyExports p'.body = bodyExports p.body := by
  obtain ⟨r, rfl, hbody⟩ := body_of_compile_untyped htypes h
  rw [hbody, bodyExports_insertDeclarations (bodyExports_declarations _ path)]
  exact compileBody_exports _ _

/-- A program is in the dialect that it has been read in, and if that has no types, it exports no
name twice. -/
theorem dialect_and_exportFaults_of_read {d : Dialect} (h : Program.read d text = .ok p) :
    p.dialect = d ∧ (d.hasTypes = false → Parser.exportFaults p.body = []) := by
  unfold Program.read at h
  dsimp only at h
  split at h
  -- exports that are faulty are refused in plain modules only
  · cases htypes : d.hasTypes with
    | true =>
      rw [htypes] at h
      simp only [if_true] at h
      split at h
      · cases h
        exact ⟨rfl, fun hnone => by cases hnone⟩
      · cases h
    | false =>
      rw [htypes] at h
      simp only [Bool.false_eq_true, if_false] at h
      split at h
      · next hfaults =>
        cases h
        rw [List.isEmpty_iff, List.append_eq_nil_iff] at hfaults
        exact ⟨rfl, fun _ => hfaults.2⟩
      · cases h
  · cases h

end Program

end ModuleLoader.Syntax
