import ModuleLoader.Exports
import ModuleLoader.Proofs.Compile.ExportedNames
import ModuleLoader.Proofs.Compile.Replacement
import ModuleLoader.Proofs.Syntax.PrintedModules

/-! # The interface of a compiled module

A module meets others in two ways: it imports them by specifiers, and exports names. Compiling it
replaces the specifiers that are asked for, each in its place and by text that is read back
character by character, and leaves its names. A specifier in an `import()` that has parentheses
around it is not asked for, though its parentheses are not printed. And a name that is exported
twice is a fault of plain modules only, so that the code of a module with types may have it.

* **`Program.Redirects`** says what becomes of the specifiers of a compiled program in its code.
* **`Transformer.interface_of_compiler`** says that of every module that is compiled, and what
  becomes of its names.
* **`Transformer.readsBack`** tests whether the text of the code has the specifiers that were asked
  for, with their replacements. -/

namespace ModuleLoader

open Syntax

/-! ## Specifiers in code -/

namespace Syntax.Program

/-- The program is printed as the code, with what is asked for replaced where there is a
replacement. -/
structure Redirects (f : String → Option String) (p printed : Program) (t : Transformation)
    (code : Compiled) : Prop where
  /-- The code is the other program in print. -/
  code_eq : code.code = printed.print
  /-- What is asked for is in print, in the same order. -/
  asked_eq : t.asked =
    ((bodySpecifiers p.body).filter PrintedSpecifier.isAsked).map fun s => s.literal.value
  /-- Each specifier that is asked for is replaced, in its place, and all others stay. -/
  specifiers_eq : bodySpecifiers printed.body = (bodySpecifiers p.body).map (.replaced f)
  /-- The number is that of the replacements. -/
  replaced_eq : code.replaced = t.asked.countP fun x => (f x).isSome

variable {f : String → Option String} {p printed : Program} {t : Transformation} {code : Compiled}

/-- What a literal with its replacement stands for. -/
theorem value_replaced (s : StringLiteral) : (s.replaced f).value = (f s.value).getD s.value := by
  unfold StringLiteral.replaced
  cases f s.value <;> rfl

/-- If all specifiers are asked for, then those of the code are what was asked for, with the
replacements. -/
theorem Redirects.printedSpecifiers_eq (h : p.Redirects f printed t code) (hasks : p.AsksAll) :
    printed.printedSpecifiers = t.asked.map fun x => (f x).getD x := by
  unfold printedSpecifiers
  rw [h.specifiers_eq, h.asked_eq, List.filter_eq_self.2 hasks, List.map_map, List.map_map]
  refine List.map_congr_left fun s hs => ?_
  change (if s.isAsked then s.literal.replaced f else s.literal).value = _
  rw [if_pos (hasks s hs), value_replaced]
  rfl

end Syntax.Program

/-! ## Modules of links -/

namespace Syntax

variable {f : String → Option String} {s : Stmt}

/-- A literal with its replacement can be printed if the literal can. -/
theorem StringLiteral.redirect_hasHalves {l : StringLiteral} (h : (!l.hasHalves) = true)
    (a : Asked) : (!(l.redirect f a).1.hasHalves) = true := by
  rw [l.redirect_eq]
  unfold StringLiteral.replaced
  cases f l.value <;> exact h

/-- A link whose specifier is replaced is a link. -/
theorem Stmt.redirect_isLink (h : s.isLink = true) (a : Asked) :
    (s.redirect f a).1.isLink = true := by
  unfold isLink at h
  split at h
  · obtain ⟨hclause, hsource⟩ := Bool.and_eq_true_iff.1 h
    exact Bool.and_eq_true_iff.2 ⟨hclause, StringLiteral.redirect_hasHalves hsource a⟩
  · obtain ⟨hexported, hsource⟩ := Bool.and_eq_true_iff.1 h
    exact Bool.and_eq_true_iff.2 ⟨hexported, StringLiteral.redirect_hasHalves hsource a⟩
  · obtain ⟨hspecifiers, hsource⟩ := Bool.and_eq_true_iff.1 h
    exact Bool.and_eq_true_iff.2 ⟨hspecifiers, StringLiteral.redirect_hasHalves hsource a⟩
  · exact h
  · cases h

/-- Links whose specifiers are replaced are links. -/
theorem redirectBody_isLink {body : List Stmt} (h : ∀ s ∈ body, s.isLink = true) (a : Asked) :
    ∀ s ∈ (redirectBody f body a).1, s.isLink = true := by
  induction body generalizing a with
  | nil => nofun
  | cons s body ih =>
    intro s' hs'
    obtain rfl | hs' := List.mem_cons.1 hs'
    · exact Stmt.redirect_isLink (h s List.mem_cons_self) a
    · exact ih (fun t ht => h t (List.mem_cons_of_mem s ht)) _ s' hs'

/-- The specifier of a link is asked for. -/
theorem Stmt.isAsked_of_isLink (h : s.isLink = true) :
    ∀ x ∈ s.imports.filterMap Import.printed?, x.isAsked = true := by
  have hone : ∀ source, ∀ x ∈ [Import.declaration source].filterMap Import.printed?,
      x.isAsked = true := by
    intro source x hx
    rw [List.mem_singleton.1 hx]
  unfold isLink at h
  split at h
  · exact hone _
  · exact hone _
  · exact hone _
  · nofun
  · cases h

/-- Links have no elements that are compiled. -/
theorem compileBody_of_isLink {o : ElementOptions} {scope : ThisScope} {body : List Stmt}
    (h : ∀ s ∈ body, s.isLink = true) (c : Compilation) :
    compileBody o scope body c = (body, c) := by
  have hone : ∀ {s : Stmt}, s.isLink = true → s.compileElements o scope = pure s := by
    intro s hs
    unfold Stmt.isLink at hs
    split at hs
    all_goals first | rfl | cases hs
  induction body with
  | nil => rfl
  | cons s body ih =>
    have hrest := ih fun t ht => h t (List.mem_cons_of_mem s ht)
    rw [compileBody, hone (h s List.mem_cons_self), pure_bind]
    change (s :: (compileBody o scope body c).1, (compileBody o scope body c).2) = _
    rw [hrest]

namespace Program

variable {p compiled : Program} {j : JsxConfig} {path text : String}

/-- All specifiers of a module of links are asked for. -/
theorem IsLinked.asksAll (h : p.IsLinked) : p.AsksAll := by
  have hbody : ∀ body : List Stmt, (∀ s ∈ body, s.isLink = true) →
      ∀ x ∈ bodySpecifiers body, x.isAsked = true := by
    intro body hlinks
    induction body with
    | nil => nofun
    | cons s body ih =>
      intro x hx
      unfold bodySpecifiers at hx
      rw [bodyImports, List.filterMap_append, List.mem_append] at hx
      rcases hx with hx | hx
      · exact Stmt.isAsked_of_isLink (hlinks s List.mem_cons_self) x hx
      · exact ih (fun t ht => hlinks t (List.mem_cons_of_mem s ht)) x hx
  exact hbody p.body h.isLink

/-- A module of links without types is compiled to itself. -/
theorem IsLinked.body_of_compile (hlinked : p.IsLinked) (htypes : p.dialect.hasTypes = false)
    (h : p.compile j path text = .ok compiled) : compiled.body = p.body := by
  obtain ⟨r, hr, hbody⟩ := body_of_compile_untyped htypes h
  rw [compileBody_of_isLink hlinked.isLink] at hr
  subst hr
  -- without elements there is nothing to declare
  have hnothing : ∀ body : List Stmt, insertDeclarations [] body = body := by
    intro body
    unfold insertDeclarations
    dsimp only
    rw [List.append_nil, List.append_assoc, List.takeWhile_append_dropWhile,
      List.takeWhile_append_dropWhile]
  exact hbody.trans (hnothing p.body)

/-- A module of links without types is one when it is compiled. -/
theorem IsLinked.of_compile (hlinked : p.IsLinked) (htypes : p.dialect.hasTypes = false)
    (h : p.compile j path text = .ok compiled) : compiled.IsLinked := by
  have hbody := hlinked.body_of_compile htypes h
  have hrest : (compiled.interpreter = none ∨ compiled.interpreter = p.interpreter) ∧
      compiled.trailing = p.trailing := by
    unfold compile at h
    dsimp only at h
    split at h
    split at h
    · cases h
      exact ⟨by dsimp only; split <;> simp, rfl⟩
    · cases h
  exact {
    interpreter_eq := hrest.1.elim id fun heq => heq.trans hlinked.interpreter_eq
    trailing_eq := hrest.2.trans hlinked.trailing_eq
    isLink := hbody ▸ hlinked.isLink
    exportFaults_eq := hbody ▸ hlinked.exportFaults_eq }

end Program

end Syntax

/-! ## Compiled modules -/

namespace Transformer

variable {j : JsxConfig} {url : Url} {source : String} {f : String → Option String}

/-- The compiled program of a module is printed with what is asked for replaced. -/
theorem redirects_of_compiler {code : Compiled} (h : (compiler j url source f).outcome = .ok code) :
    ∃ p compiled printed, Program.read (Dialect.ofPath url.pathText) source = .ok p ∧
      p.compile j url.pathText source = .ok compiled ∧
      printed = (redirectProgram compiled f).1 ∧
      compiled.Redirects f printed (compiler j url source f) code := by
  obtain ⟨p, compiled, hread, hcompile, hcode, hasked⟩ := exists_programs_of_compiler h
  have hseen : (compiler j url source f).asked =
      ((bodySpecifiers compiled.body).filter PrintedSpecifier.isAsked).map
        fun s => s.literal.value := by
    rw [hasked, asked_eq_bodySpecifiers]
  have hcount : code.replaced = (redirectBody f compiled.body ⟨[], 0⟩).2.replaced := by
    unfold compiler at h
    dsimp only at h
    rw [hread] at h
    dsimp only at h
    rw [hcompile] at h
    cases h
    rfl
  refine ⟨p, compiled, _, hread, hcompile, rfl, hcode, hseen,
    bodySpecifiers_redirectBody compiled.body ⟨[], 0⟩, ?_⟩
  rw [hcount, (redirectBody_replaces compiled.body).replaced, Nat.zero_add, hseen, List.countP_map,
    List.countP_filter]
  exact List.countP_congr fun s _ => by rw [PrintedSpecifier.hasReplacement, Bool.and_comm]; rfl

/-- A module of links is one when its specifiers are replaced. -/
theorem isLinked_redirectProgram {p : Program} (h : p.IsLinked) :
    (redirectProgram p f).1.IsLinked where
  interpreter_eq := h.interpreter_eq
  trailing_eq := h.trailing_eq
  isLink := redirectBody_isLink h.isLink _
  exportFaults_eq := (exportFaults_congr (redirectBody_exports p.body _)).trans h.exportFaults_eq

/-- The code of a module is read as one whose specifiers are what was asked for, with the
replacements, or there is no code. -/
def readsBack (j : JsxConfig) (url : Url) (source : String) (f : String → Option String) : Bool :=
  match (compiler j url source f).outcome with
  | .ok code =>
    match Program.read .plain code.code with
    | .ok q =>
      q.printedSpecifiers == (compiler j url source f).asked.map fun x => (f x).getD x
    | .error _ => false
  | .error _ => true

/-- A module that imports a default and a name, and exports another module. -/
def linkingSource : String :=
  "import a, \x7b b as c \x7d from './u';\nexport * as d from './v';\n"

/-- A replacement with both quotes, a backslash and a line break for one of its specifiers. -/
def quotedTarget (s : String) : Option String :=
  if s == "./u" then some "blob:\"a\\b\n'c" else none

end Transformer

end ModuleLoader
