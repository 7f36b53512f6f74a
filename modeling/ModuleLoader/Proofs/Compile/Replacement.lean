import ModuleLoader.Proofs.Compile.Imports
import ModuleLoader.Proofs.Compile.Redirection
import ModuleLoader.Syntax.Printer.Tree
import ModuleLoader.Syntax.Program

/-! # What becomes of specifiers that are replaced

The specifiers of a program stand in its declarations and in its calls of `import()`. When they are
replaced, each that is asked for becomes its replacement, in its place, and all others stay. Others
there are: the pass looks for a string in an `import()`, and does not see one in parentheses, which
are not printed.

* **`Expr.printedLiteral?`** is the string that an expression is in print.
* **`bodySpecifiers`** lists the specifiers of some statements in print,
  **`Program.printedSpecifiers`** those of a program.
* **`bodySpecifiers_redirectBody`** says what becomes of them, **`redirectBody_replaces`** also how
  many are replaced.
* **`asked_eq_bodySpecifiers`** says which of them are asked for. -/

namespace ModuleLoader.Syntax

open Printer

variable {α β γ δ ε : Type} {f : String → Option String}

/-! ## Specifiers in print -/

/-- The string literal that an expression is in print, where parentheses and types are left out. -/
def Expr.printedLiteral? : Expr → Option StringLiteral
  | .string literal => some literal
  | .paren e => e.printedLiteral?
  | .typed _ e => e.printedLiteral?
  | .parameterProperty e => e.printedLiteral?
  | .commented _ e => e.printedLiteral?
  | .beforeComma e => e.printedLiteral?
  | _ => none

/-- An expression is printed as the string literal that it is in print. -/
theorem Expr.print_of_printedLiteral? {e : Expr} {literal : StringLiteral}
    (h : e.printedLiteral? = some literal) (n : Nat) (p : Place) :
    e.print n p = quoted literal := by
  induction e using Expr.printedLiteral?.induct with
  | case1 =>
    cases h
    rfl
  | case2 e ih =>
    -- parentheses are printed around functions only, and these are no strings
    have hfunction : isFunction e = false := by
      cases e with
      | function | arrow | arrowTo | effectFree => cases h
      | _ => rfl
    rw [Expr.print, hfunction]
    exact ih h
  | case3 form e ih => exact ih h
  | case4 e ih => exact ih h
  | case5 comments e ih => exact ih h
  | case6 e ih => exact ih h
  | case7 =>
    rw [Expr.printedLiteral?] at h
    · cases h
    all_goals assumption

/-- A specifier of a program in print. -/
structure PrintedSpecifier where
  /-- The literal that is printed. -/
  literal : StringLiteral
  /-- It is asked for when specifiers are replaced. -/
  isAsked : Bool

/-- The specifier in print of an import, if it is a string. -/
def Import.printed? : Import → Option PrintedSpecifier
  | .declaration source => some ⟨source, true⟩
  | .call source =>
    source.printedLiteral?.map fun literal => ⟨literal, !(dynamicReference source).isEmpty⟩

/-- The specifiers of some statements in print, in the order of the text. -/
def bodySpecifiers (body : List Stmt) : List PrintedSpecifier :=
  (bodyImports body).filterMap Import.printed?

/-- The specifiers of a program in print, in the order of the text. -/
def Program.printedSpecifiers (p : Program) : List String :=
  (bodySpecifiers p.body).map fun s => s.literal.value

/-- Every specifier in print is asked for: there are no parentheses around one. -/
def Program.AsksAll (p : Program) : Prop := ∀ s ∈ bodySpecifiers p.body, s.isAsked = true

instance (p : Program) : Decidable p.AsksAll := inferInstanceAs (Decidable (∀ _ ∈ _, _ = _))

/-! ## Replacing them -/

/-- A literal with its replacement, if there is one. -/
def StringLiteral.replaced (f : String → Option String) (s : StringLiteral) : StringLiteral :=
  (f s.value).elim s s.withValue

/-- A specifier that is asked for becomes its replacement. -/
def PrintedSpecifier.replaced (f : String → Option String) (s : PrintedSpecifier) :
    PrintedSpecifier :=
  { s with literal := if s.isAsked then s.literal.replaced f else s.literal }

/-- A specifier that is not asked for stays. -/
theorem PrintedSpecifier.replaced_eq_self {s : PrintedSpecifier} (h : s.isAsked = false) :
    s.replaced f = s := by
  obtain ⟨literal, isAsked⟩ := s
  obtain rfl : isAsked = false := h
  rfl

/-- The specifier is asked for, and there is a replacement for it. -/
def PrintedSpecifier.hasReplacement (f : String → Option String) (s : PrintedSpecifier) : Bool :=
  s.isAsked && (f s.literal.value).isSome

/-- Replacing a literal gives the literal with its replacement, and counts it. -/
theorem StringLiteral.redirect_eq (s : StringLiteral) (a : Asked) :
    s.redirect f a = (s.replaced f, ⟨a.specifiers ++ [s.value],
      a.replaced + if (f s.value).isSome then 1 else 0⟩) := by
  unfold StringLiteral.redirect StringLiteral.replaced
  cases f s.value <;> rfl

/-- The step replaces the specifiers of some imports: each that is asked for becomes its
replacement in the result, and is counted. -/
structure Replaces (f : String → Option String) (imports : α → List Import) (m : Redirecting α)
    (is : List Import) : Prop where
  /-- What becomes of the specifiers. -/
  specifiers : ∀ a, (imports (m a).1).filterMap Import.printed? =
    (is.filterMap Import.printed?).map (PrintedSpecifier.replaced f)
  /-- How many are replaced. -/
  replaced : ∀ a, (m a).2.replaced =
    a.replaced + (is.filterMap Import.printed?).countP (PrintedSpecifier.hasReplacement f)

namespace Replaces

variable {m : Redirecting α} {n : Redirecting β} {o : Redirecting γ} {p : Redirecting δ}
variable {x : α → List Import} {y : β → List Import} {z : γ → List Import} {u : δ → List Import}
variable {is is' is'' isLast : List Import}

/-- Giving back what imports nothing replaces nothing. -/
theorem pure {imports : α → List Import} {v : α} (h : imports v = []) :
    Replaces f imports (Pure.pure v) [] :=
  ⟨fun _ => congrArg (List.filterMap Import.printed?) h, fun _ => rfl⟩

/-- A tree with one part replaces what the part does. -/
theorem one {k : α → ε} {imports : ε → List Import} (h : Replaces f x m is)
    (hk : ∀ v, imports (k v) = x v) : Replaces f imports (do return k (← m)) is :=
  ⟨fun a => (congrArg (List.filterMap Import.printed?) (hk _)).trans (h.specifiers a), h.replaced⟩

/-- Two trees replace what they do, one after the other. -/
theorem pair (h : Replaces f x m is) (h' : Replaces f y n is') :
    Replaces f (fun v : α × β => x v.1 ++ y v.2) (do return (← m, ← n)) (is ++ is') := by
  constructor
  · intro a
    change (x (m a).1 ++ y (n (m a).2).1).filterMap Import.printed? = _
    rw [List.filterMap_append, h.specifiers, h'.specifiers, ← List.map_append,
      ← List.filterMap_append]
  · intro a
    change (n (m a).2).2.replaced = _
    rw [h'.replaced, h.replaced, List.filterMap_append, List.countP_append, Nat.add_assoc]

/-- A tree with two parts replaces what they do. -/
theorem two {k : α → β → ε} {imports : ε → List Import}
    (h : Replaces f x m is) (hk : ∀ v w, imports (k v w) = x v ++ y w) (h' : Replaces f y n is') :
    Replaces f imports (do return k (← m) (← n)) (is ++ is') :=
  (h.pair h').one (k := fun v : α × β => k v.1 v.2) fun _ => hk _ _

/-- A tree with three parts replaces what they do. -/
theorem three {k : α → β → γ → ε} {imports : ε → List Import}
    (h : Replaces f x m is) (hk : ∀ v w w', imports (k v w w') = x v ++ y w ++ z w')
    (h' : Replaces f y n is') (h'' : Replaces f z o is'') :
    Replaces f imports (do return k (← m) (← n) (← o)) (is ++ is' ++ is'') :=
  ((h.pair h').pair h'').one (k := fun v : (α × β) × γ => k v.1.1 v.1.2 v.2) fun _ => hk _ _ _

/-- A tree with four parts replaces what they do. -/
theorem four {k : α → β → γ → δ → ε} {imports : ε → List Import}
    (h : Replaces f x m is)
    (hk : ∀ v w w' w'', imports (k v w w' w'') = x v ++ y w ++ z w' ++ u w'')
    (h' : Replaces f y n is') (h'' : Replaces f z o is'') (hlast : Replaces f u p isLast) :
    Replaces f imports (do return k (← m) (← n) (← o) (← p)) (is ++ is' ++ is'' ++ isLast) :=
  (((h.pair h').pair h'').pair hlast).one
    (k := fun v : ((α × β) × γ) × δ => k v.1.1.1 v.1.1.2 v.1.2 v.2) fun _ => hk _ _ _ _

end Replaces

/-! ## One specifier -/

/-- A declaration by a literal is one by the literal with its replacement. -/
theorem StringLiteral.redirect_replaces (s : StringLiteral) :
    Replaces f (fun s => [.declaration s]) (s.redirect f) [.declaration s] := by
  constructor
  · intro a
    rw [s.redirect_eq]
    rfl
  · intro a
    rw [s.redirect_eq]
    cases h : (f s.value).isSome <;>
      simp [Import.printed?, PrintedSpecifier.hasReplacement, h]

/-- Replacing specifiers in an expression leaves a string. -/
theorem Expr.printedLiteral?_redirect (a : Asked) :
    (e : Expr) → (e.redirect f a).1.printedLiteral? = e.printedLiteral?
  | .paren e | .typed _ e | .parameterProperty e | .commented _ e | .beforeComma e =>
    e.printedLiteral?_redirect a
  | .importCall phase source options closing => by
    rw [Expr.redirect]
    cases redirectSpecifier? f source <;> rfl
  | .absent | .ident _ | .privateName _ | .this | .super | .null | .bool _ | .number _ | .bigint _
  | .string _ | .regex _ _ | .newTarget | .importMeta | .jsxText _ | .template _ _ | .array _
  | .sequence _ | .fragment _ _ | .object _ | .unary _ _ | .update _ _ _ | .member _ _ _
  | .privateMember _ _ _ | .chain _ | .yield _ _ | .await _ | .spread _ | .computed _
  | .remarked _ _ | .effectFree _ | .container _ | .binary _ _ _ | .assign _ _ _ | .index _ _ _
  | .conditional _ _ _ | .taggedTemplate _ _ _ | .call _ _ _ _ _ | .new _ _ _ _
  | .function _ _ _ _ | .arrow _ _ _ | .arrowTo _ _ _ | .decorated _ _ | .classExpr _ _ _ _
  | .element _ _ _ _ _ _ => rfl

/-- Replacing specifiers in an expression makes no string that an `import()` is asked for by. -/
theorem dynamicReference_redirect (a : Asked) :
    (e : Expr) → dynamicReference (e.redirect f a).1 = dynamicReference e
  | .commented _ e => dynamicReference_redirect a e
  | .importCall phase source options closing => by
    rw [Expr.redirect]
    cases redirectSpecifier? f source <;> rfl
  | .paren _ | .typed _ _ | .parameterProperty _ | .beforeComma _
  | .absent | .ident _ | .privateName _ | .this | .super | .null | .bool _ | .number _ | .bigint _
  | .string _ | .regex _ _ | .newTarget | .importMeta | .jsxText _ | .template _ _ | .array _
  | .sequence _ | .fragment _ _ | .object _ | .unary _ _ | .update _ _ _ | .member _ _ _
  | .privateMember _ _ _ | .chain _ | .yield _ _ | .await _ | .spread _ | .computed _
  | .remarked _ _ | .effectFree _ | .container _ | .binary _ _ _ | .assign _ _ _ | .index _ _ _
  | .conditional _ _ _ | .taggedTemplate _ _ _ | .call _ _ _ _ _ | .new _ _ _ _
  | .function _ _ _ _ | .arrow _ _ _ | .arrowTo _ _ _ | .decorated _ _ | .classExpr _ _ _ _
  | .element _ _ _ _ _ _ => rfl

/-- An `import()` of a string that is asked for becomes one of its replacement. -/
theorem redirectSpecifier?_replaces {e : Expr} {m : Redirecting Expr}
    (h : redirectSpecifier? f e = some m) :
    Replaces f (fun e => .call e :: e.imports) m [.call e] := by
  induction e using dynamicReference.induct generalizing m with
  | case1 literal =>
    cases h
    exact ⟨literal.redirect_replaces.specifiers, literal.redirect_replaces.replaced⟩
  | case2 comments e ih =>
    rw [redirectSpecifier?, Option.map_eq_some_iff] at h
    obtain ⟨m, hm, rfl⟩ := h
    exact ⟨(ih hm).specifiers, (ih hm).replaced⟩
  | case3 e hstring hcommented =>
    rw [redirectSpecifier?] at h
    · cases h
    · exact hstring
    · exact hcommented

/-- A string that is asked for holds no imports of its own. -/
theorem imports_of_redirectSpecifier? {e : Expr} {m : Redirecting Expr}
    (h : redirectSpecifier? f e = some m) : e.imports = [] := by
  induction e using dynamicReference.induct generalizing m with
  | case1 literal => rfl
  | case2 comments e ih =>
    rw [redirectSpecifier?, Option.map_eq_some_iff] at h
    obtain ⟨m, hm, -⟩ := h
    exact ih hm
  | case3 e hstring hcommented =>
    rw [redirectSpecifier?] at h
    · cases h
    · exact hstring
    · exact hcommented

/-- An expression that an `import()` is not asked for by stays what it is in print. -/
theorem Replaces.uncalled {e : Expr} (h : redirectSpecifier? f e = none)
    (he : Replaces f Expr.imports (e.redirect f) e.imports) :
    Replaces f (fun e => .call e :: e.imports) (e.redirect f) (.call e :: e.imports) := by
  have hnone : dynamicReference e = [] := dynamicReference_eq_nil h
  have hprinted : ∀ a, (Import.call (e.redirect f a).1).printed? = (Import.call e).printed? := by
    intro a
    rw [Import.printed?, Expr.printedLiteral?_redirect, dynamicReference_redirect]
    rfl
  -- it may be a string in print, but not one that the pass sees
  have hasked : ∀ s, (Import.call e).printed? = some s → s.isAsked = false := by
    intro s hs
    obtain ⟨literal, -, rfl⟩ := Option.map_eq_some_iff.1 hs
    change (!(dynamicReference e).isEmpty) = false
    rw [hnone]
    rfl
  constructor
  · intro a
    change List.filterMap _ ([.call (e.redirect f a).1] ++ (e.redirect f a).1.imports) =
      (List.filterMap _ ([.call e] ++ e.imports)).map _
    rw [List.filterMap_append, List.filterMap_append, List.map_append, he.specifiers]
    congr 1
    cases hs : (Import.call e).printed? with
    | none => simp [hprinted, hs]
    | some s => simp [hprinted, hs, PrintedSpecifier.replaced_eq_self (hasked s hs)]
  · intro a
    change _ = a.replaced + (List.filterMap _ ([.call e] ++ e.imports)).countP _
    rw [he.replaced, List.filterMap_append, List.countP_append]
    cases hs : (Import.call e).printed? with
    | none => simp [hs]
    | some s => simp [hs, PrintedSpecifier.hasReplacement, hasked s hs]

/-! ## All specifiers -/

mutual

/-- What becomes of the specifiers in an expression. -/
theorem Expr.redirect_replaces : (e : Expr) → Replaces f Expr.imports (e.redirect f) e.imports
  | .template _ parts | .array parts | .sequence parts | .fragment _ parts =>
    (redirectAll_replaces parts).one fun _ => rfl
  | .object properties => (redirectProperties_replaces properties).one fun _ => rfl
  | .unary _ e | .update _ _ e | .member e _ _ | .privateMember e _ _ | .chain e | .yield _ e
  | .await e | .spread e | .beforeComma e | .paren e | .computed e | .typed _ e
  | .parameterProperty e | .commented _ e | .remarked _ e | .effectFree e | .container e =>
    e.redirect_replaces.one fun _ => rfl
  | .binary _ e e' | .assign _ e e' | .index e e' _ =>
    e.redirect_replaces.two (fun _ _ => rfl) e'.redirect_replaces
  | .conditional test whenTrue whenFalse =>
    test.redirect_replaces.three (fun _ _ _ => rfl) whenTrue.redirect_replaces
      whenFalse.redirect_replaces
  | .taggedTemplate e _ parts | .call e parts _ _ _ | .new e parts _ _ =>
    e.redirect_replaces.two (fun _ _ => rfl) (redirectAll_replaces parts)
  | .function _ _ params body | .arrow _ params body =>
    (redirectAll_replaces params).two (fun _ _ => rfl) (redirectBody_replaces body)
  | .arrowTo _ parts e | .decorated parts e =>
    (redirectAll_replaces parts).two (fun _ _ => rfl) e.redirect_replaces
  | .classExpr decorators _ base members =>
    (redirectAll_replaces decorators).three (fun _ _ _ => rfl) base.redirect_replaces
      (redirectMembers_replaces members)
  | .importCall phase source options closing => by
    -- a string that is seen is replaced itself; the pass goes into any other expression
    rw [Expr.redirect, Expr.imports]
    cases hasked : redirectSpecifier? f source with
    | some m =>
      rw [imports_of_redirectSpecifier? hasked]
      exact (redirectSpecifier?_replaces hasked).two (fun _ _ => rfl) options.redirect_replaces
    | none =>
      exact (Replaces.uncalled hasked source.redirect_replaces).two (fun _ _ => rfl)
        options.redirect_replaces
  | .element _ _ _ _ attributes children =>
    (redirectProperties_replaces attributes).two (fun _ _ => rfl) (redirectAll_replaces children)
  | .absent | .ident _ | .privateName _ | .this | .super | .null | .bool _ | .number _ | .bigint _
  | .string _ | .regex _ _ | .newTarget | .importMeta | .jsxText _ => .pure rfl

/-- What becomes of the specifiers in several expressions. -/
theorem redirectAll_replaces :
    (es : List Expr) → Replaces f elementImports (redirectAll f es) (elementImports es)
  | [] => .pure rfl
  | e :: rest => e.redirect_replaces.two (fun _ _ => rfl) (redirectAll_replaces rest)

/-- What becomes of the specifiers in a property. -/
theorem Property.redirect_replaces :
    (p : Property) → Replaces f Property.imports (p.redirect f) p.imports
  | .value key value _ => key.redirect_replaces.two (fun _ _ => rfl) value.redirect_replaces
  | .method _ key _ params body =>
    key.redirect_replaces.three (fun _ _ _ => rfl) (redirectAll_replaces params)
      (redirectBody_replaces body)
  | .spread e | .jsxAttribute _ _ e => e.redirect_replaces.one fun _ => rfl

/-- What becomes of the specifiers in several properties. -/
theorem redirectProperties_replaces : (ps : List Property) →
    Replaces f propertyImports (redirectProperties f ps) (propertyImports ps)
  | [] => .pure rfl
  | p :: rest => p.redirect_replaces.two (fun _ _ => rfl) (redirectProperties_replaces rest)

/-- What becomes of the specifiers in a member of a class. -/
theorem Member.redirect_replaces :
    (m : Member) → Replaces f Member.imports (m.redirect f) m.imports
  | .method _ decorators _ _ key _ params body =>
    (redirectAll_replaces decorators).four (fun _ _ _ _ => rfl) key.redirect_replaces
      (redirectAll_replaces params) (redirectBody_replaces body)
  | .field _ decorators _ key value =>
    (redirectAll_replaces decorators).three (fun _ _ _ => rfl) key.redirect_replaces
      value.redirect_replaces
  | .staticBlock _ body => (redirectBody_replaces body).one fun _ => rfl
  | .signature key params =>
    key.redirect_replaces.two (fun _ _ => rfl) (redirectAll_replaces params)

/-- What becomes of the specifiers in several members of a class. -/
theorem redirectMembers_replaces :
    (ms : List Member) → Replaces f memberImports (redirectMembers f ms) (memberImports ms)
  | [] => .pure rfl
  | m :: rest => m.redirect_replaces.two (fun _ _ => rfl) (redirectMembers_replaces rest)

/-- What becomes of the specifiers in a statement. -/
theorem Stmt.redirect_replaces : (s : Stmt) → Replaces f Stmt.imports (s.redirect f) s.imports
  | .commented _ s | .labeled _ s | .exportDecl s | .exportDefaultDecl s | .declared s =>
    s.redirect_replaces.one fun _ => rfl
  | .expr e | .returnValue e | .throwValue e | .exportDefault e | .exportAssign e =>
    e.redirect_replaces.one fun _ => rfl
  | .block body | .namespaceDecl _ body | .ambientModule body =>
    (redirectBody_replaces body).one fun _ => rfl
  | .variables _ es | .signature _ es => (redirectAll_replaces es).one fun _ => rfl
  | .function _ _ params body =>
    (redirectAll_replaces params).two (fun _ _ => rfl) (redirectBody_replaces body)
  | .classDecl decorators _ base members =>
    (redirectAll_replaces decorators).three (fun _ _ _ => rfl) base.redirect_replaces
      (redirectMembers_replaces members)
  | .ifThen e s | .whileLoop e s | .withObject e s =>
    e.redirect_replaces.two (fun _ _ => rfl) s.redirect_replaces
  | .ifElse test whenTrue whenFalse =>
    test.redirect_replaces.three (fun _ _ _ => rfl) whenTrue.redirect_replaces
      whenFalse.redirect_replaces
  | .forLoop head test step body =>
    head.redirect_replaces.four (fun _ _ _ _ => rfl) test.redirect_replaces step.redirect_replaces
      body.redirect_replaces
  | .forIn head e body | .forOf _ head e body =>
    head.redirect_replaces.three (fun _ _ _ => rfl) e.redirect_replaces body.redirect_replaces
  | .doWhile body test => body.redirect_replaces.two (fun _ _ => rfl) test.redirect_replaces
  | .tryCatch body target handler =>
    (redirectBody_replaces body).three (fun _ _ _ => rfl) target.redirect_replaces
      (redirectBody_replaces handler)
  | .tryFinally body finalizer =>
    (redirectBody_replaces body).two (fun _ _ => rfl) (redirectBody_replaces finalizer)
  | .tryCatchFinally body target handler finalizer =>
    (redirectBody_replaces body).four (fun _ _ _ _ => rfl) target.redirect_replaces
      (redirectBody_replaces handler) (redirectBody_replaces finalizer)
  | .switch value cases =>
    value.redirect_replaces.two (fun _ _ => rfl) (redirectCases_replaces cases)
  | .importDecl _ _ _ source _ | .exportNamed _ _ (some source) _ | .exportAll _ _ source _ =>
    source.redirect_replaces.one fun _ => rfl
  | .enumDecl _ _ members _ => (redirectProperties_replaces members).one fun _ => rfl
  | .remarks _ | .directive _ _ | .empty | .continueTo _ | .breakTo _ | .debugger
  | .exportNamed _ _ none _ | .typeDecl _ | .importEquals _ _ _ | .importRequire _ _ _
  | .exportAsNamespace _ => .pure rfl

/-- What becomes of the specifiers in several statements. -/
theorem redirectBody_replaces :
    (body : List Stmt) → Replaces f bodyImports (redirectBody f body) (bodyImports body)
  | [] => .pure rfl
  | s :: rest => s.redirect_replaces.two (fun _ _ => rfl) (redirectBody_replaces rest)

/-- What becomes of the specifiers in a case. -/
theorem Case.redirect_replaces : (c : Case) → Replaces f Case.imports (c.redirect f) c.imports
  | .mk test body => test.redirect_replaces.two (fun _ _ => rfl) (redirectBody_replaces body)

/-- What becomes of the specifiers in several cases. -/
theorem redirectCases_replaces :
    (cs : List Case) → Replaces f caseImports (redirectCases f cs) (caseImports cs)
  | [] => .pure rfl
  | c :: rest => c.redirect_replaces.two (fun _ _ => rfl) (redirectCases_replaces rest)

end

/-- The specifiers of some statements when those that are asked for have been replaced. -/
theorem bodySpecifiers_redirectBody (body : List Stmt) (a : Asked) :
    bodySpecifiers (redirectBody f body a).1 = (bodySpecifiers body).map (.replaced f) :=
  (redirectBody_replaces body).specifiers a

/-! ## Which specifiers are asked for -/

/-- An import is asked for by its specifier in print, unless that is not seen. -/
theorem Import.references_eq_printed? (i : Import) :
    i.references.map Reference.specifier =
      (i.printed?.toList.filter PrintedSpecifier.isAsked).map fun s => s.literal.value := by
  cases i with
  | declaration source => rfl
  | call e =>
    rw [references, printed?]
    induction e using dynamicReference.induct with
    | case1 literal => rfl
    | case2 comments e ih => exact ih
    | case3 e hstring hcommented =>
      have hnone : dynamicReference e = [] := by
        rw [dynamicReference]
        · exact hstring
        · exact hcommented
      rw [hnone]
      cases e.printedLiteral? <;> rfl

/-- What is asked for is what is in print, but for the specifiers that are not seen. -/
theorem asked_eq_bodySpecifiers (body : List Stmt) :
    (bodyReferences body).map Reference.specifier =
      ((bodySpecifiers body).filter PrintedSpecifier.isAsked).map fun s => s.literal.value := by
  have hall : ∀ is : List Import, (is.flatMap Import.references).map Reference.specifier =
      ((is.filterMap Import.printed?).filter PrintedSpecifier.isAsked).map
        fun s => s.literal.value := by
    intro is
    induction is with
    | nil => rfl
    | cons i is ih =>
      rw [List.flatMap_cons, List.map_append, i.references_eq_printed?, ih]
      cases hi : i.printed? with
      | none => simp [hi]
      | some s => simp [hi, ← List.map_append, ← List.filter_append]
  rw [bodyReferences_eq]
  exact hall _

end ModuleLoader.Syntax
