import ModuleLoader.Proofs.Compile.Specifiers
import ModuleLoader.Specifier

/-! # The declarations that stay

A declaration among the statements of a module that imports, or exports from another module, is in
the compiled module as well, unless it is left out as one that only says something about types.

* **`Stmt.source?`** is the specifier of such a declaration.
* **`Program.Imports`** says that some declaration of a program imports by a specifier.
* **`Program.LeavesOut`** says that every declaration among its statements that imports by a
  specifier is left out, **`Program.drops_importDecl_iff`** when that happens to an import.
* **`Program.imports_or_leavesOut`** and **`Program.imports_or_supplies`** compare a program with
  the one that it is compiled to. -/

namespace ModuleLoader.Syntax

open Compile

/-! ## Declarations -/

/-- The specifier that a declaration imports by, or exports from. -/
def Stmt.source? : Stmt → Option String
  | .commented _ s => s.source?
  | .importDecl _ _ _ source _ => some source.value
  | .exportNamed _ _ (some source) _ => some source.value
  | .exportAll _ _ source _ => some source.value
  | _ => none

/-- Some declaration of the program imports by the specifier. -/
def Program.Imports (p : Program) (x : String) : Prop := ⟨x, false⟩ ∈ bodyReferences p.body

namespace Stmt

variable {s t : Stmt} {x : String}

/-- A declaration has the reference of its specifier. -/
theorem static_mem_references (h : s.source? = some x) : ⟨x, false⟩ ∈ s.references := by
  fun_induction source? s with
  | case1 comments s ih => exact ih h
  | case2 | case3 | case4 =>
    cases h
    exact List.mem_singleton_self _
  | case5 => cases h

/-- Leaving types out keeps a declaration among the statements of a module. -/
theorem erase_of_source? {isExported : Bool} {before : List String} (h : s.source? = some x) :
    s.erase .top isExported before = pure [s] := by
  fun_induction source? s with
  | case1 comments s ih =>
    have hcomments : s.exportsNamespace = false := by
      cases s with
      | exportDecl => cases h
      | _ => rfl
    rw [erase, ih h, pure_bind, hcomments]
    rfl
  | case2 | case3 | case4 => rfl
  | case5 => cases h

/-- Compiling elements keeps a declaration. -/
theorem compileElements_of_source? {o : ElementOptions} {scope : ThisScope}
    (h : s.source? = some x) : s.compileElements o scope = pure s := by
  fun_induction source? s with
  | case1 comments s ih =>
    rw [compileElements, ih h, pure_bind]
  | case2 | case3 | case4 => rfl
  | case5 => cases h

/-- The specifier of an export depends only on the module that it exports from. -/
theorem source?_exportNamed {isType isType' : Bool} {specifiers specifiers' : List ExportSpecifier}
    {attributes attributes' : Option Attributes} (source : Option StringLiteral) :
    (Stmt.exportNamed isType specifiers source attributes).source? =
      (Stmt.exportNamed isType' specifiers' source attributes').source? := by
  cases source <;> rfl

/-- What is left of a declaration imports by the same specifier. -/
theorem source?_of_elide {n : Needs} (h : s.source? = some x) (ht : n.elide s = some t) :
    t.source? = some x := by
  fun_induction n.elide s generalizing t with
  | case1 comments s ih =>
    obtain ⟨left, hleft, rfl⟩ := Option.map_eq_some_iff.1 ht
    have hsource : left.source? = some x := ih h hleft
    exact hsource
  | case4 =>
    obtain ⟨clause, _, rfl⟩ := Option.map_eq_some_iff.1 ht
    exact h
  | case6 | case8 =>
    cases ht
    exact (source?_exportNamed _).trans h
  | case3 | case10 | case18 | case26 =>
    cases ht
    exact h
  | case23 | case25 => cases h
  | _ => cases ht

end Stmt

/-! ## Bodies -/

section

variable {s : Stmt} {body : List Stmt} {x : String}

/-- A declaration among some statements has its reference among theirs. -/
theorem static_mem_bodyReferences (hs : s ∈ body) (h : s.source? = some x) :
    ⟨x, false⟩ ∈ bodyReferences body := by
  induction body with
  | nil => cases hs
  | cons t body ih =>
    rw [bodyReferences, List.mem_append]
    obtain rfl | hs := List.mem_cons.1 hs
    · exact .inl (Stmt.static_mem_references h)
    · exact .inr (ih hs)

/-- Leaving types out keeps the declarations among the statements of a module. -/
theorem mem_eraseBody_of_source? (hs : s ∈ body) (h : s.source? = some x) (before : List String)
    (c : Compilation) : s ∈ (eraseBody .top before body c).1 := by
  induction body generalizing before c with
  | nil => cases hs
  | cons t body ih =>
    obtain rfl | hs := List.mem_cons.1 hs
    · rw [eraseBody, Stmt.erase_of_source? h]
      exact List.mem_append_left _ (List.mem_singleton_self s)
    · exact List.mem_append_right _ (ih hs _ _)

/-- Compiling elements keeps the declarations of a body. -/
theorem mem_compileBody_of_source? {o : ElementOptions} {scope : ThisScope} (hs : s ∈ body)
    (h : s.source? = some x) (c : Compilation) : s ∈ (compileBody o scope body c).1 := by
  induction body generalizing c with
  | nil => cases hs
  | cons t body ih =>
    obtain rfl | hs := List.mem_cons.1 hs
    · rw [compileBody, Stmt.compileElements_of_source? h]
      exact List.mem_cons_self
    · exact List.mem_cons_of_mem _ (ih hs _)

/-- Declarations that are put into a body leave its statements there. -/
theorem mem_insertDeclarations (hs : s ∈ body) (declarations : List Stmt) :
    s ∈ insertDeclarations declarations body := by
  rw [← List.takeWhile_append_dropWhile (p := Stmt.isDirective) (l := body),
    ← List.takeWhile_append_dropWhile (p := Stmt.isImport)
      (l := body.dropWhile Stmt.isDirective)] at hs
  unfold insertDeclarations
  grind

end

/-! ## Imports that are left out -/

/-- The names that an import clause binds to what may be values. -/
def ImportClause.valueNames (c : ImportClause) : List String :=
  c.default?.toList ++ c.whole?.toList ++
    ((c.named?.getD []).filter fun s => !s.isType).map ImportSpecifier.bound

/-- Nothing is left of an import clause just when it is not empty and none of the names that it
binds to what may be values is needed. -/
theorem Needs.clause?_eq_none_iff {n : Needs} {c : ImportClause} :
    n.clause? c = none ↔
      c ≠ ⟨none, none, some []⟩ ∧ ∀ name ∈ c.valueNames, n.keeps name = false := by
  obtain ⟨default?, whole?, named?⟩ := c
  unfold clause? ImportClause.valueNames
  split
  · rename_i hempty
    simp [hempty]
  · rename_i hempty
    rw [ite_eq_left_iff]
    simp only [hempty, ne_eq, not_false_eq_true, true_and, reduceCtorEq, imp_false,
      Decidable.not_not, ImportClause.mk.injEq, ite_eq_left_iff, List.isEmpty_iff,
      Option.filter_eq_none_iff, List.filter_eq_nil_iff, List.mem_append, Option.mem_toList,
      List.mem_map, List.mem_filter]
    grind

/-! ## Programs -/

namespace Program

variable {p p' : Program} {j : JsxConfig} {path text x : String}

/-- The statements of a program without types, before its imports and exports of types are left
out. -/
def erased (p : Program) : List Stmt :=
  (eraseBody .top [] p.body (Compile.start (bodyMentions p.body ++ allMentions p.asides))).1

/-- What decides whether the names of a program are needed. -/
def needs (p : Program) : Needs :=
  ⟨.ofBody p.body, (bodyMentions p.body).contains .element, p.erased⟩

/-- The statement is left out of the compiled program: the program only declares what is somewhere
else, or the statement only says something about types. -/
def Drops (p : Program) (s : Stmt) : Prop :=
  p.dialect.hasTypes = true ∧ (p.dialect.isDefinition = true ∨ p.needs.elide s = none)

/-- The program imports by the specifier, and every declaration among its statements that does so is
left out. -/
structure LeavesOut (p : Program) (x : String) : Prop where
  /-- Some declaration imports by the specifier. -/
  imports : p.Imports x
  /-- None of those among the statements of the module stays. -/
  drops : ∀ s ∈ p.body, s.source? = some x → p.Drops s

/-- What is left out of the program when it is compiled is imported by bare specifiers. -/
def KeepsDeclarations (p : Program) : Prop := ∀ x, p.LeavesOut x → isBare x = true

instance (p : Program) (x : String) : Decidable (p.Imports x) :=
  inferInstanceAs (Decidable (_ ∈ _))

instance (p : Program) (s : Stmt) : Decidable (p.Drops s) :=
  inferInstanceAs (Decidable (_ ∧ (_ ∨ _)))

instance (p : Program) (x : String) : Decidable (p.LeavesOut x) :=
  decidable_of_iff (p.Imports x ∧ ∀ s ∈ p.body, s.source? = some x → p.Drops s)
    ⟨fun h => ⟨h.1, h.2⟩, fun h => ⟨h.imports, h.drops⟩⟩

instance (p : Program) : Decidable p.KeepsDeclarations :=
  decidable_of_iff
    (∀ r ∈ bodyReferences p.body, p.LeavesOut r.specifier → isBare r.specifier = true)
    ⟨fun h x hx => h ⟨x, false⟩ hx.imports hx, fun h r _ => h r.specifier⟩

/-- An import declaration of a program that declares values is left out just when it is one of
types, or binds names and none of those that may be values is needed. -/
theorem drops_importDecl_iff {phase : Phase} {isType : Bool} {clause : Option ImportClause}
    {source : StringLiteral} {attributes : Option Attributes} (htypes : p.dialect.hasTypes = true)
    (hvalues : p.dialect.isDefinition = false) :
    p.Drops (.importDecl phase isType clause source attributes) ↔
      isType = true ∨ ∃ c, clause = some c ∧ c ≠ ⟨none, none, some []⟩ ∧
        ∀ name ∈ c.valueNames, p.needs.keeps name = false := by
  simp only [Drops, htypes, hvalues, Bool.false_eq_true, false_or, true_and, Needs.elide]
  cases isType with
  | true => simp
  | false =>
    cases clause with
    | none => simp
    | some c => simp [Needs.clause?_eq_none_iff]

/-- A declaration that is not left out is there when types have been. -/
theorem exists_mem_eraseTypes {s : Stmt} (hs : s ∈ p.body) (h : s.source? = some x)
    (hkept : ¬ p.Drops s) :
    ∃ t ∈ (p.eraseTypes (Compile.start (bodyMentions p.body ++ allMentions p.asides))).1.1,
      t.source? = some x := by
  unfold eraseTypes
  split
  · exact ⟨s, hs, h⟩
  · rename_i htypes
    split
    · rename_i hdefinition
      exact absurd ⟨by simpa using htypes, .inl hdefinition⟩ hkept
    · cases ht : p.needs.elide s with
      | none => exact absurd ⟨by simpa using htypes, .inr ht⟩ hkept
      | some t =>
        exact ⟨t, List.mem_filterMap.2 ⟨s, mem_eraseBody_of_source? hs h _ _, ht⟩,
          Stmt.source?_of_elide h ht⟩

/-- A declaration that is there when types have been left out is in the compiled program. -/
theorem mem_compileStmts {t : Stmt} {o : ElementOptions} {mentions : List Mention}
    (ht : t ∈ (p.eraseTypes (Compile.start mentions)).1.1) (h : t.source? = some x) :
    t ∈ ((p.compileStmts o path).run (Compile.start mentions)).1 := by
  have hbody : t ∈ (compileBody o .ofModule (p.eraseTypes (Compile.start mentions)).1.1
      (p.eraseTypes (Compile.start mentions)).2).1 := mem_compileBody_of_source? ht h _
  have hplaced {b : Prop} [Decidable b] (declarations : List Stmt) {body : List Stmt}
      (hmem : t ∈ body) :
      t ∈ (if b then insertDeclarations declarations body ++ [moduleMarker]
        else insertDeclarations declarations body) := by
    split
    · exact List.mem_append_left _ (mem_insertDeclarations hmem declarations)
    · exact mem_insertDeclarations hmem declarations
  exact hplaced _ hbody

/-- A program imports by a specifier when it is compiled, too, unless the specifier is left out. -/
theorem imports_or_leavesOut (h : p.compile j path text = .ok p') (hx : p.Imports x) :
    p'.Imports x ∨ p.LeavesOut x := by
  by_cases hkept : ∃ s ∈ p.body, s.source? = some x ∧ ¬ p.Drops s
  · obtain ⟨s, hs, hsource, hkept⟩ := hkept
    obtain ⟨t, ht, htsource⟩ := exists_mem_eraseTypes hs hsource hkept
    refine .inl (static_mem_bodyReferences ?_ htsource)
    rw [body_of_compile h]
    exact mem_compileStmts ht htsource
  · exact .inr ⟨hx, fun s hs hsource =>
      Classical.byContradiction fun hdrops => hkept ⟨s, hs, hsource, hdrops⟩⟩

/-- What a compiled program imports by a declaration, its source does, or functions that make
elements come from there. -/
theorem imports_or_supplies (h : p.compile j path text = .ok p') (hx : p'.Imports x) :
    p.Imports x ∨ (p.elementOptions j text).Supplies x := by
  obtain hsource | ⟨hdynamic, -⟩ | ⟨-, hpackage⟩ := reference_of_compile h hx
  · exact .inl hsource
  · cases hdynamic
  · exact .inr hpackage

end Program

end ModuleLoader.Syntax
