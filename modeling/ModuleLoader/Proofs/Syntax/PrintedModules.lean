import ModuleLoader.Proofs.Syntax.LinkDeclarations
import ModuleLoader.Syntax.Printer.Program

/-! # Modules of links in print are read back

A module that does nothing but import and export is printed link by link, each on a line of its own.
Whatever strings are in it, the text is read as a plain module again, by the same specifiers and
with the same names.

* **`Parser.hasLine_of_isLink`** reads one link.
* **`Program.IsLinked.read_print`** reads a module of links, and
  **`Program.IsLinked.bodyExports_reread`** and **`Program.IsLinked.printedSpecifiers_reread`** say
  what has been read. -/

namespace ModuleLoader.Syntax

namespace Parser

open Lexer Printer

variable {cs mid rest ws line : List Char} {literal : StringLiteral} {c : Option ImportClause}
variable {r : Rules} {isAlone : Bool} {word : String} {s : Stmt}

/-! ## Reading statements -/

/-- A statement that starts with a word is read. -/
theorem parses_statementOf (hword : Lexes cs (.word word false) mid)
    (h : Parses (wordStatement r isAlone word) cs rest s) :
    Parses (statementOf r isAlone) cs rest s := by
  have hplain : Parses (plainStatement r isAlone) cs rest s := (parses_form hword).bind h
  unfold statementOf
  refine (parses_leadingComments hword).bind ?_
  refine Parses.seeThen State.token hword (fun _ => rfl) fun _ _ _ _ => ?_
  exact hplain.bind (.pure s rest)

/-- A word starts a line. -/
theorem lexes_startsLine (hws : StartsLine ws) (hword : Text.isIdentifierName word = true)
    (cs : List Char) :
    Lexes (ws ++ (word.toList ++ ' ' :: cs)) (.word word false) (' ' :: cs) := by
  refine lexes_word ws hws.isSpace hword ?_
  rintro _ ⟨⟩
  decide +kernel

/-- A statement on a line of its own that starts with a word is read. -/
theorem isLine_of_word {n : Nat} (hword : Text.isIdentifierName word = true)
    (h : ∀ ws, StartsLine ws → ∀ rest, Parses (wordStatement (rules n) false word)
      (ws ++ (word.toList ++ ' ' :: (line ++ rest))) rest s) :
    IsLine (rules (n + 1)) (word.toList ++ ' ' :: line) s := by
  constructor
  · intro ws hws rest
    have hlexes := lexes_startsLine hws hword (line ++ '\n' :: rest)
    rw [← List.cons_append] at hlexes
    rw [List.append_assoc]
    exact ⟨_, _, hlexes, rfl⟩
  · intro ws hws rest
    rw [List.append_assoc]
    exact parses_statementOf (lexes_startsLine hws hword _) (h ws hws ('\n' :: rest))

/-- An import on a line of its own is read. -/
theorem isLine_import {n : Nat} (h : literal.hasHalves = false)
    (hline : ∀ rest, ImportsAs literal c rest (' ' :: (line ++ rest))) :
    IsLine (rules (n + 1)) ("import".toList ++ ' ' :: line)
      (.importDecl .evaluation false c (reread literal) none) := by
  have hname : Text.isIdentifierName "import" = true := by decide +kernel
  refine isLine_of_word hname fun ws hws rest => ?_
  have hword := lexes_startsLine hws hname (line ++ rest)
  obtain ⟨f, mid, hlexes, hparen, hdot⟩ := (hline rest).exists_lexes
  have hno : Parses (do return !((← atSymbol "(") || (← atSymbol "."))) (' ' :: (line ++ rest))
      (' ' :: (line ++ rest)) true := by
    refine (parses_atSymbol hlexes).bind ((parses_atSymbol hlexes).bind ?_)
    rw [hparen, hdot]
    exact .pure true _
  have hahead : Parses atImportDeclaration _ _ true := ((parses_skip hword).bind hno).lookahead
  -- the words of other statements are tried first
  have himport : wordStatement (rules n) false "import" = (do
      if ← atImportDeclaration then
        advance
        importDeclaration
      else expressionStatement (rules n)) := by
    simp [wordStatement]
  rw [himport]
  exact hahead.bind ((parses_advance hword (by simp)).bind ((hline rest).parses h))

/-- An export on a line of its own is read. -/
theorem isLine_export {n : Nat}
    (h : ∀ rest, Parses (exportDeclaration (rules n) []) (' ' :: (line ++ rest)) rest s) :
    IsLine (rules (n + 1)) ("export".toList ++ ' ' :: line) s := by
  have hname : Text.isIdentifierName "export" = true := by decide +kernel
  refine isLine_of_word hname fun ws hws rest => ?_
  have hword := lexes_startsLine hws hname (line ++ rest)
  have hexport : wordStatement (rules n) false "export" = (do
      advance
      exportDeclaration (rules n) []) := by
    simp [wordStatement]
  rw [hexport]
  exact (parses_advance hword (by simp)).bind (h rest)

/-- Names in braces, or everything, behind `export` are read. -/
theorem parses_exportDeclaration_braces {texts : List String}
    (h : Parses (exportNames false) (' ' :: ((objectPatternText texts).toList ++ cs)) rest s) :
    Parses (exportDeclaration r []) (' ' :: ((objectPatternText texts).toList ++ cs)) rest s := by
  obtain ⟨mid, hbrace⟩ := exists_lexes_braces texts cs
  exact (parses_atSymbol hbrace).bind h

/-- Everything behind `export` is read. -/
theorem parses_exportDeclaration_star {exported : Option ModuleName}
    (h : Parses (exportEverything false) (' ' :: '*' :: wholeText exported (' ' :: cs)) rest s) :
    Parses (exportDeclaration r []) (' ' :: '*' :: wholeText exported (' ' :: cs)) rest s := by
  obtain ⟨tail, htail⟩ : ∃ tail, wholeText exported (' ' :: cs) = ' ' :: tail := by
    cases exported <;> exact ⟨_, rfl⟩
  rw [htail] at h ⊢
  have hstar := lexes_star tail
  exact (parses_atSymbol hstar).bind ((parses_atSymbol hstar).bind h)

/-! ## Links as lines -/

/-- The line starts as a link does. -/
def StartsAsLink (line : List Char) : Prop := line.head? = some 'i' ∨ line.head? = some 'e'

/-- The statement is printed as a line of its own, which starts as a link does and is read back. -/
def HasLine (s : Stmt) : Prop :=
  ∃ line, (s.print 0 .none .line).toList = line ++ ['\n'] ∧ StartsAsLink line ∧
    ∀ n, IsLine (rules (n + 1)) line s.reread

variable {isType : Bool} {specifiers : List ExportSpecifier}

/-- Statements of a module are not indented. -/
theorem text_line_zero : Lead.text 0 .line = "" := rfl

/-- An import is a line. -/
theorem hasLine_importDecl (hc : c.all ImportClause.isPrintable = true)
    (h : literal.hasHalves = false) : HasLine (.importDecl .evaluation isType c literal none) := by
  refine ⟨"import".toList ++ ' ' :: ((clauseText c).toList ++ ((quoted literal).toList ++ [';'])),
    ?_, .inl (by simp), fun n => isLine_import h fun rest => ?_⟩
  · cases c <;> simp [Stmt.print, text_line_zero, phaseWord?, attributesText, clauseText]
  · simpa using importsAs_of_isPrintable hc h rest

/-- An export of everything is a line. -/
theorem hasLine_exportAll {exported : Option ModuleName}
    (hexported : exported.all ModuleName.isPrintable = true) (h : literal.hasHalves = false) :
    HasLine (.exportAll isType exported literal none) := by
  refine ⟨"export".toList ++ ' ' :: '*' :: wholeText exported
      (' ' :: ("from".toList ++ ' ' :: ((quoted literal).toList ++ [';']))),
    ?_, .inr (by simp), fun n => isLine_export fun rest => ?_⟩
  · cases exported <;> simp [Stmt.print, text_line_zero, attributesText, wholeText]
  · have hread := parses_exportDeclaration_star (r := rules n)
      (parses_exportEverything hexported h rest)
    cases exported <;> simpa [Stmt.reread, wholeText] using hread

/-- An export of names of another module is a line. -/
theorem hasLine_exportNamed_from {attributes : Option Attributes}
    (hspecifiers : specifiers.all ExportSpecifier.isPrintable = true)
    (h : literal.hasHalves = false) :
    HasLine (.exportNamed isType specifiers (some literal) attributes) := by
  refine ⟨"export".toList ++
      ' ' :: ((objectPatternText (specifiers.map exportSpecifierText)).toList ++
        ' ' :: ("from".toList ++ ' ' :: ((quoted literal).toList ++ [';']))),
    ?_, .inr (by simp), fun n => isLine_export fun rest => ?_⟩
  · simp [Stmt.print, text_line_zero]
  · have hread := parses_exportDeclaration_braces (r := rules n)
      (parses_exportNames_from hspecifiers h rest)
    simpa [Stmt.reread] using hread

/-- An export of variables is a line. -/
theorem hasLine_exportNamed {attributes : Option Attributes}
    (hspecifiers : specifiers.all ExportSpecifier.isPrintable = true)
    (hlocal : specifiers.all ExportSpecifier.isLocal = true) :
    HasLine (.exportNamed isType specifiers none attributes) := by
  refine ⟨"export".toList ++
      ' ' :: ((objectPatternText (specifiers.map exportSpecifierText)).toList ++ [';']),
    ?_, .inr (by simp), fun n => isLine_export fun rest => ?_⟩
  · simp [Stmt.print, text_line_zero]
  · have hread := parses_exportDeclaration_braces (r := rules n)
      (parses_exportNames hspecifiers hlocal rest)
    simpa [Stmt.reread] using hread

/-- A link in print is a line of its own, which is read back. -/
theorem hasLine_of_isLink (h : s.isLink = true) : HasLine s := by
  have hwhole : ∀ {l : StringLiteral}, (!l.hasHalves) = true → l.hasHalves = false :=
    fun h => Bool.not_eq_true' _ ▸ h
  unfold Stmt.isLink at h
  split at h
  · exact hasLine_importDecl (Bool.and_eq_true_iff.1 h).1 (hwhole (Bool.and_eq_true_iff.1 h).2)
  · exact hasLine_exportAll (Bool.and_eq_true_iff.1 h).1 (hwhole (Bool.and_eq_true_iff.1 h).2)
  · exact hasLine_exportNamed_from (Bool.and_eq_true_iff.1 h).1
      (hwhole (Bool.and_eq_true_iff.1 h).2)
  · exact hasLine_exportNamed (Bool.and_eq_true_iff.1 h).1 (Bool.and_eq_true_iff.1 h).2
  · cases h

end Parser

/-! ## Modules of links -/

/-- No link is a directive, and none looks like one. -/
theorem Stmt.asDirective?_of_isLink {s : Stmt} (h : s.isLink = true) :
    Parser.asDirective? s.reread = none ∧ Printer.looksLikeDirective s = false := by
  unfold Stmt.isLink at h
  split at h
  all_goals first | exact ⟨rfl, rfl⟩ | cases h

/-- Links are printed as statements of any other place. -/
theorem printScript_of_isLink {body : List Stmt} (h : ∀ s ∈ body, s.isLink = true) :
    printScript 0 .none body = printBody 0 .none body := by
  cases body with
  | nil => rfl
  | cons s body =>
    rw [printScript, (Stmt.asDirective?_of_isLink (h s List.mem_cons_self)).2]
    rfl

/-- No directives are among links. -/
theorem markDirectives_of_isLink {body : List Stmt} (h : ∀ s ∈ body, s.isLink = true) :
    Parser.markDirectives (body.map Stmt.reread) = body.map Stmt.reread := by
  cases body with
  | nil => rfl
  | cons s body =>
    rw [List.map_cons, Parser.markDirectives,
      (Stmt.asDirective?_of_isLink (h s List.mem_cons_self)).1]

/-- Links in print are lines, which are read back. -/
theorem exists_lines {body : List Stmt} (h : ∀ s ∈ body, s.isLink = true) :
    ∃ lines, (printBody 0 .none body).toList = Parser.textOfLines lines ∧
      (∀ line ∈ lines, Parser.StartsAsLink line) ∧
      ∀ n, List.Forall₂ (Parser.IsLine (Parser.rules (n + 1))) lines (body.map Stmt.reread) := by
  induction body with
  | nil => exact ⟨[], by simp [printBody, Parser.textOfLines], by simp, fun _ => .nil⟩
  | cons s body ih =>
    obtain ⟨line, hprint, hhead, hline⟩ := Parser.hasLine_of_isLink (h s List.mem_cons_self)
    obtain ⟨lines, hprints, hheads, hlines⟩ := ih fun s' hs' => h s' (List.mem_cons_of_mem s hs')
    refine ⟨line :: lines, ?_, List.forall_mem_cons.2 ⟨hhead, hheads⟩,
      fun n => .cons (hline n) (hlines n)⟩
    rw [printBody, String.toList_append, hprint, hprints, List.append_assoc]
    rfl

/-- A text of links starts with no byte order mark, and names no interpreter. -/
theorem head_textOfLines {lines : List (List Char)}
    (h : ∀ line ∈ lines, Parser.StartsAsLink line) :
    ∀ c ∈ (Parser.textOfLines lines).head?, c ≠ '\uFEFF' ∧ c ≠ '#' := by
  intro c hc
  cases lines with
  | nil => cases hc
  | cons line lines =>
    rw [Parser.textOfLines, List.head?_append] at hc
    rcases h line List.mem_cons_self with hline | hline
    all_goals
      rw [hline] at hc
      cases hc
      decide

namespace Program

/-- The program is a module of links and nothing else, and exports no name twice. -/
structure IsLinked (p : Program) : Prop where
  /-- No interpreter is named. -/
  interpreter_eq : p.interpreter = none
  /-- There are no comments at its end. -/
  trailing_eq : p.trailing = []
  /-- All statements are links. -/
  isLink : ∀ s ∈ p.body, s.isLink = true
  /-- No name is exported twice. -/
  exportFaults_eq : Parser.exportFaults p.body = []

instance (p : Program) : Decidable p.IsLinked :=
  decidable_of_iff (p.interpreter = none ∧ p.trailing = [] ∧ (∀ s ∈ p.body, s.isLink = true) ∧
      Parser.exportFaults p.body = [])
    ⟨fun h => ⟨h.1, h.2.1, h.2.2.1, h.2.2.2⟩,
      fun h => ⟨h.interpreter_eq, h.trailing_eq, h.isLink, h.exportFaults_eq⟩⟩

/-- What is read back of a module of links. -/
def reread (p : Program) : Program := ⟨.plain, none, p.body.map Stmt.reread, [], [], []⟩

variable {p : Program}

/-- What is read back exports the same names. -/
theorem IsLinked.bodyExports_reread (h : p.IsLinked) :
    bodyExports p.reread.body = bodyExports p.body := by
  have hbody : ∀ body : List Stmt, (∀ s ∈ body, s.isLink = true) →
      bodyExports (body.map Stmt.reread) = bodyExports body := by
    intro body hlinks
    induction body with
    | nil => rfl
    | cons s body ih =>
      have hs := Stmt.exports_reread (hlinks s List.mem_cons_self)
      have hrest := ih fun s' hs' => hlinks s' (List.mem_cons_of_mem s hs')
      rw [List.map_cons, bodyExports, bodyExports, hs, hrest]
  exact hbody p.body h.isLink

/-- What is read back has the same specifiers. -/
theorem IsLinked.printedSpecifiers_reread (h : p.IsLinked) :
    p.reread.printedSpecifiers = p.printedSpecifiers := by
  have hbody : ∀ body : List Stmt, (∀ s ∈ body, s.isLink = true) →
      (bodySpecifiers (body.map Stmt.reread)).map (fun s => s.literal.value) =
        (bodySpecifiers body).map fun s => s.literal.value := by
    intro body hlinks
    induction body with
    | nil => rfl
    | cons s body ih =>
      have hs := Stmt.specifiers_reread (hlinks s List.mem_cons_self)
      have hrest := ih fun s' hs' => hlinks s' (List.mem_cons_of_mem s hs')
      unfold bodySpecifiers at hrest ⊢
      rw [List.map_cons, bodyImports, bodyImports, List.filterMap_append, List.filterMap_append,
        List.map_append, List.map_append, hs, hrest]
  exact hbody p.body h.isLink

/-- A module of links in print is read back. -/
theorem IsLinked.read_print (h : p.IsLinked) : read .plain p.print = .ok p.reread := by
  obtain ⟨lines, hprint, hheads, hlines⟩ := exists_lines h.isLink
  have htext : p.print.toList = Parser.textOfLines lines := by
    rw [print, h.interpreter_eq, h.trailing_eq, printScript_of_isLink h.isLink, ← hprint]
    simp [Printer.interpreterLine, Printer.leadingText]
  have hmark := markDirectives_of_isLink h.isLink
  have hfaults : Parser.exportFaults (Parser.markDirectives (p.body.map Stmt.reread)) = [] := by
    rw [hmark]
    exact (exportFaults_congr h.bodyExports_reread).trans h.exportFaults_eq
  have hread := read_textOfLines htext hlines (htext ▸ head_textOfLines hheads) hfaults
  rw [hmark] at hread
  exact hread

end Program

end ModuleLoader.Syntax
