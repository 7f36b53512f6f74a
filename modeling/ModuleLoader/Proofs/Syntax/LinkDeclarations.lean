import ModuleLoader.Proofs.Syntax.LinkNames

/-! # Links in print are read back

What stands behind the first word of a link in print is read token by token.

* **`Parser.parses_exportEverything`**, **`Parser.parses_exportNames`** and
  **`Parser.parses_exportNames_from`** read exports.
* **`Parser.ImportsAs`** is the text of an import, **`Parser.ImportsAs.parses`** reads it, and
  **`Parser.importsAs_of_isPrintable`** says which imports in print are such texts. -/

namespace ModuleLoader.Syntax.Parser

open Lexer Printer

variable {α : Type} {f : Form} {cs mid rest : List Char} {literal : StringLiteral}
variable {default? : Option String}

/-! ## Words and specifiers -/

/-- A text starts with the specifier behind the blank that it starts with. -/
theorem lexes_source (h : literal.hasHalves = false) (rest : List Char) :
    Lexes (' ' :: ((quoted literal).toList ++ rest)) (.string (reread literal)) rest :=
  lexes_quoted [' '] isSpace_blank h

/-- A text starts with the semicolon that it starts with. -/
theorem lexes_semicolon (rest : List Char) : Lexes (';' :: rest) (.symbol ";") rest :=
  lexes_of_head (by decide) rfl

/-- There are no attributes where a declaration ends. -/
theorem parses_attributes? (h : Lexes cs (.symbol ";") rest) : Parses attributes? cs cs none := by
  unfold attributes?
  refine Parses.bind (a := none) ((parses_atWord h).bind ?_) (.pure none cs)
  refine (parses_atWord h).bind (Parses.seeThen (fun s => s.token.afterBreak) h
    (fun _ => rfl) fun afterBreak start previous depth => ?_)
  exact .pure none cs

/-- The specifier of a declaration is read, up to its end. -/
theorem parses_source {k : StringLiteral → Option Attributes → α} (h : literal.hasHalves = false)
    (rest : List Char) :
    Parses (do
        let source ← stringLiteral
        let attributes ← attributes?
        endStatement
        return k source attributes)
      (' ' :: ((quoted literal).toList ++ ';' :: rest)) rest (k (reread literal) none) := by
  have hend := lexes_semicolon rest
  refine (parses_stringLiteral (lexes_source h _)).bind ((parses_attributes? hend).bind ?_)
  exact (parses_endStatement hend).bind (.pure _ rest)

/-- The word before a specifier is read. -/
theorem lexes_from (rest : List Char) :
    Lexes (' ' :: ("from".toList ++ ' ' :: rest)) (.word "from" false) (' ' :: rest) :=
  lexes_name (by decide +kernel) ⟨rest, .inr rfl⟩

/-- A text starts with the star behind the blank that it starts with. -/
theorem lexes_star (rest : List Char) :
    Lexes (' ' :: '*' :: ' ' :: rest) (.symbol "*") (' ' :: rest) :=
  lexes_of_blank (by decide) rfl

/-- A text starts with the word before a second name behind the blank that it starts with. -/
theorem lexes_as (rest : List Char) :
    Lexes (' ' :: ("as".toList ++ ' ' :: rest)) (.word "as" false) (' ' :: rest) :=
  lexes_name (by decide +kernel) ⟨rest, .inr rfl⟩

/-- The name of all that is exported, behind the star. -/
def wholeText : Option ModuleName → List Char → List Char
  | none, rest => rest
  | some name, rest => ' ' :: ("as".toList ++ ' ' :: ((moduleNameText name).toList ++ rest))

/-- What exports everything is read. -/
theorem parses_exportEverything {exported : Option ModuleName}
    (hexported : exported.all ModuleName.isPrintable = true) (h : literal.hasHalves = false)
    (rest : List Char) :
    Parses (exportEverything false) (' ' :: '*' :: wholeText exported
        (' ' :: ("from".toList ++ ' ' :: ((quoted literal).toList ++ ';' :: rest))))
      rest (.exportAll false (exported.map ModuleName.reread) (reread literal) none) := by
  have hfrom := lexes_from ((quoted literal).toList ++ ';' :: rest)
  have hsource := parses_source
    (k := Stmt.exportAll false (exported.map ModuleName.reread)) h rest
  unfold exportEverything
  cases exported with
  | none =>
    refine (parses_expect (lexes_star _)).bind ((parses_eatWord_not hfrom rfl).bind ?_)
    exact (Parses.pure none _).bind ((parses_expectWord hfrom).bind hsource)
  | some name =>
    refine (parses_expect (lexes_star _)).bind ((parses_eatWord (lexes_as _)).bind ?_)
    refine (Parses.map (parses_moduleName hexported ⟨_, .inr rfl⟩)).bind ?_
    exact (parses_expectWord hfrom).bind hsource

/-- The parts of a list that satisfy a condition are read one by one. -/
theorem forall₂_isPart {text : α → String} {p : Parse α} {reread : α → α} {test : α → Bool}
    (h : ∀ {a}, test a = true → IsPart p (' ' :: (text a).toList) (reread a)) {as : List α}
    (has : as.all test = true) :
    List.Forall₂ (fun text a => IsPart p (' ' :: text.toList) a) (as.map text) (as.map reread) := by
  rw [List.forall₂_map_left_iff, List.forall₂_map_right_iff, List.forall₂_same]
  exact fun a ha => h (List.all_eq_true.1 has a ha)

/-- Names in braces that another module exports are read. -/
theorem parses_exportNames_from {specifiers : List ExportSpecifier}
    (hspecifiers : specifiers.all ExportSpecifier.isPrintable = true)
    (h : literal.hasHalves = false) (rest : List Char) :
    Parses (exportNames false)
      (' ' :: ((objectPatternText (specifiers.map exportSpecifierText)).toList ++
        ' ' :: ("from".toList ++ ' ' :: ((quoted literal).toList ++ ';' :: rest))))
      rest (.exportNamed false (specifiers.map ExportSpecifier.reread) (some (reread literal))
        none) := by
  have hsource := parses_source
    (k := fun source =>
      Stmt.exportNamed false (specifiers.map ExportSpecifier.reread) (some source)) h rest
  unfold exportNames
  refine (parses_braces (forall₂_isPart isPart_exportSpecifier hspecifiers) _).bind ?_
  refine (parses_eatWord (lexes_from _)).bind ?_
  exact Parses.bind ((parses_form (lexes_source h _)).bind (.pure true _)) hsource

/-- A name of a variable gives no fault. -/
theorem parses_checkLocal {s : ExportSpecifier} (hs : s.isLocal = true) (cs : List Char) :
    Parses (checkLocal s.reread) cs cs () := by
  obtain ⟨bound, exported, isType⟩ := s
  cases bound with
  | string literal => cases hs
  | ident name =>
    have hfree : (isReserved name || (strictWords.contains name && name != "yield")) = false :=
      Bool.not_eq_true' _ ▸ hs
    change Parses (if _ = true then _ else _) cs cs ()
    rw [hfree]
    exact .pure () cs

/-- Names of variables give no faults. -/
theorem parses_forIn_checkLocal {specifiers : List ExportSpecifier}
    (h : specifiers.all ExportSpecifier.isLocal = true) (cs : List Char) :
    Parses (forIn (specifiers.map ExportSpecifier.reread) PUnit.unit fun s _ => do
        checkLocal s
        return ForInStep.yield PUnit.unit) cs cs PUnit.unit := by
  induction specifiers with
  | nil => exact .pure () cs
  | cons s specifiers ih =>
    rw [List.all_cons, Bool.and_eq_true] at h
    rw [List.map_cons, List.forIn_cons, bind_assoc]
    exact (parses_checkLocal h.1 cs).bind ((Parses.pure _ cs).bind (ih h.2))

/-- Names in braces of variables are read. -/
theorem parses_exportNames {specifiers : List ExportSpecifier}
    (hspecifiers : specifiers.all ExportSpecifier.isPrintable = true)
    (hlocal : specifiers.all ExportSpecifier.isLocal = true) (rest : List Char) :
    Parses (exportNames false)
      (' ' :: ((objectPatternText (specifiers.map exportSpecifierText)).toList ++ ';' :: rest))
      rest (.exportNamed false (specifiers.map ExportSpecifier.reread) none none) := by
  have hend := lexes_semicolon rest
  unfold exportNames
  refine (parses_braces (forall₂_isPart isPart_exportSpecifier hspecifiers) _).bind ?_
  refine (parses_eatWord_not hend rfl).bind ?_
  refine Parses.bind (a := false) ((parses_form hend).bind (.pure false (';' :: rest))) ?_
  exact (parses_forIn_checkLocal hlocal _).bind ((parses_endStatement hend).bind (.pure _ rest))

/-! ### Imports -/

/-- The default name of an import, behind its first word. -/
def defaultText : Option String → List Char → List Char
  | none, cs => cs
  | some name, cs => ' ' :: (name.toList ++ cs)

/-- A text may follow the default name of an import, or its first word if there is no such name. -/
structure FollowsDefault (default? : Option String) (cs : List Char) : Prop where
  /-- A name ends there. -/
  ends : ∀ name ∈ default?, EndsName cs
  /-- It starts with no other name, and with nothing that gives another meaning to the word or name
  before it. -/
  lexes : ∃ f mid, Lexes cs f mid ∧
    (default? = none → Form.isName f = false ∧ f.isSymbol "(" = false ∧ f.isSymbol "." = false) ∧
    ∀ name ∈ default?, f.isSymbol "*" = false ∧ f.isSymbol "=" = false
  /-- The default name does not say that the source of the module is imported. -/
  isNoSource : Parses atSourceImport cs cs false

/-- What starts with no name does not import the source of a module. -/
theorem parses_atSourceImport (h : Lexes cs f mid) (hf : Form.isName f = false) :
    Parses atSourceImport cs cs false := by
  unfold atSourceImport
  refine (parses_atName h).bind ?_
  rw [hf]
  exact .pure false cs

/-- The word before a specifier does not import the source of a module. -/
theorem parses_atSourceImport_from (h : literal.hasHalves = false) (rest : List Char) :
    Parses atSourceImport (' ' :: ("from".toList ++ ' ' :: ((quoted literal).toList ++ rest)))
      (' ' :: ("from".toList ++ ' ' :: ((quoted literal).toList ++ rest))) false := by
  have hfrom := lexes_from ((quoted literal).toList ++ rest)
  unfold atSourceImport
  refine (parses_atName hfrom).bind ((parses_atWord hfrom).bind ?_)
  rw [if_neg (by decide)]
  have hstring : Parses (do return !Form.isString (← form))
      (' ' :: ((quoted literal).toList ++ rest)) (' ' :: ((quoted literal).toList ++ rest)) false :=
    (parses_form (lexes_source h rest)).bind (.pure false _)
  exact ((parses_skip hfrom).bind hstring).lookahead

/-- The default name of an import is read. -/
theorem parses_default {default? : Option String} {k : Option String → Parse α} {a : α}
    (hdefault : default?.all isBindable = true) (hcs : FollowsDefault default? cs)
    (hk : Parses (k default?) cs rest a) :
    Parses (do
        if ← atName then
          let name ← some <$> bindingName
          k name
        else
          let name ← pure none
          k name)
      (defaultText default? cs) rest a := by
  obtain ⟨f, mid, hlexes, hname, -⟩ := hcs.lexes
  cases default? with
  | none =>
    refine (parses_atName hlexes).bind ?_
    rw [(hname rfl).1]
    exact (Parses.pure none cs).bind hk
  | some name =>
    have hends := hcs.ends name rfl
    refine (parses_atName (lexes_name (Bool.and_eq_true_iff.1 hdefault).1 hends)).bind ?_
    rw [isName_of_isBindable hdefault]
    exact (parses_bindingName hdefault hends).map.bind hk

/-- What an import binds, with its default name read, up to the specifier. -/
def clause? (default? : Option String) : Parse (Option ImportClause) := do
  let f ← form
  if default?.isNone && Form.isString f then return none
  return some (← importClause default?)

/-- A declaration behind `import` is read. -/
theorem parses_importDeclaration {c : Option ImportClause}
    (hdefault : default?.all isBindable = true) (hcs : FollowsDefault default? cs)
    (h : literal.hasHalves = false)
    (hclause : Parses (clause? default?) cs (' ' :: ((quoted literal).toList ++ ';' :: rest)) c) :
    Parses importDeclaration (defaultText default? cs) rest
      (.importDecl .evaluation false c (reread literal) none) := by
  obtain ⟨f, mid, hlexes, -, hsymbols⟩ := hcs.lexes
  have hsource := parses_source (k := Stmt.importDecl .evaluation false c) h rest
  unfold importDeclaration
  refine parses_default hdefault hcs ?_
  -- `type` is a word only where there are types, `defer` and `source` only before other tokens
  refine Parses.bind (a := (false, Phase.evaluation, default?)) (?_ : Parses _ cs cs _) ?_
  · have htype : Parses atTypeImport cs cs false := (parses_hasTypes hlexes).bind (.pure false cs)
    refine htype.bind ?_
    rw [Bool.and_false]
    refine (parses_atSymbol hlexes).bind ?_
    have hstar : (default? == some "defer" && f.isSymbol "*") = false := by
      cases default? with
      | none => rfl
      | some name => rw [(hsymbols name rfl).1, Bool.and_false]
    rw [hstar]
    refine hcs.isNoSource.bind ?_
    rw [Bool.and_false]
    exact .pure _ cs
  · cases default? with
    | none => exact hclause.bind hsource
    | some name =>
      refine (parses_atSymbol hlexes).bind ?_
      rw [(hsymbols name rfl).2]
      exact hclause.bind hsource

/-- The comma behind the default name of an import. -/
def separated : Option String → List Char → List Char
  | none, cs => cs
  | some _, cs => ',' :: cs

/-- The comma behind a default name is passed. -/
theorem parses_eat_separated (h : Lexes cs f mid) (hf : f.isSymbol "," = false) :
    Parses (eat ",") (separated default? cs) cs default?.isSome := by
  cases default? with
  | none => exact parses_eat_not h hf
  | some name => exact parses_eat (lexes_comma cs)

/-- What an import binds may follow the default name. -/
theorem followsDefault_separated (h : Lexes cs f mid)
    (hf : Form.isName f = false ∧ f.isSymbol "(" = false ∧ f.isSymbol "." = false) :
    FollowsDefault default? (separated default? cs) := by
  cases default? with
  | none =>
    exact ⟨nofun, ⟨f, mid, h, fun _ => hf, nofun⟩, parses_atSourceImport h hf.1⟩
  | some name =>
    have hcomma := lexes_comma cs
    exact ⟨fun _ _ => ⟨cs, .inl rfl⟩, ⟨_, _, hcomma, nofun, fun _ _ => ⟨rfl, rfl⟩⟩,
      parses_atSourceImport hcomma rfl⟩

/-- The specifier may follow the default name. -/
theorem followsDefault_from (name : String) (h : literal.hasHalves = false) (rest : List Char) :
    FollowsDefault (some name)
      (' ' :: ("from".toList ++ ' ' :: ((quoted literal).toList ++ rest))) :=
  ⟨fun _ _ => ⟨_, .inr rfl⟩, ⟨_, _, lexes_from _, nofun, fun _ _ => ⟨rfl, rfl⟩⟩,
    parses_atSourceImport_from h rest⟩

/-- An import that binds a default only is read up to its specifier. -/
theorem parses_importClause_default (name : String) (rest : List Char) :
    Parses (importClause (some name)) (' ' :: ("from".toList ++ ' ' :: rest)) (' ' :: rest)
      ⟨some name, none, none⟩ := by
  have hfrom := lexes_from rest
  unfold importClause
  refine Parses.bind ?_ ((parses_expectWord hfrom).bind (.pure _ (' ' :: rest)))
  exact (parses_eat_not hfrom rfl).bind (.pure _ _)

/-- An import that binds a whole module is read up to its specifier. -/
theorem parses_importClause_whole {name : String} (hname : isBindable name = true)
    (rest : List Char) :
    Parses (importClause default?) (separated default? (' ' :: '*' :: ' ' :: ("as".toList ++
        ' ' :: (name.toList ++ ' ' :: ("from".toList ++ ' ' :: rest)))))
      (' ' :: rest) ⟨default?, some name, none⟩ := by
  have hstar := lexes_star
    ("as".toList ++ ' ' :: (name.toList ++ ' ' :: ("from".toList ++ ' ' :: rest)))
  unfold importClause
  refine Parses.bind ?_ ((parses_expectWord (lexes_from rest)).bind (.pure _ (' ' :: rest)))
  refine (parses_eat_separated hstar rfl).bind ?_
  rw [Bool.and_not_self]
  refine (parses_atSymbol hstar).bind ?_
  have hwhole : Parses importedNamespace _ (' ' :: ("from".toList ++ ' ' :: rest)) name :=
    (parses_expect hstar).bind ((parses_expectWord (lexes_as _)).bind
      (parses_bindingName hname ⟨_, .inr rfl⟩))
  exact hwhole.bind (.pure _ _)

/-- An import that binds names is read up to its specifier. -/
theorem parses_importClause_named {named : List ImportSpecifier}
    (hnamed : named.all ImportSpecifier.isPrintable = true) (rest : List Char) :
    Parses (importClause default?) (separated default?
        (' ' :: ((objectPatternText (named.map importSpecifierText)).toList ++
          ' ' :: ("from".toList ++ ' ' :: rest))))
      (' ' :: rest) ⟨default?, none, some (named.map ImportSpecifier.reread)⟩ := by
  obtain ⟨mid, hbrace⟩ := exists_lexes_braces (named.map importSpecifierText)
    (' ' :: ("from".toList ++ ' ' :: rest))
  unfold importClause
  refine Parses.bind ?_ ((parses_expectWord (lexes_from rest)).bind (.pure _ (' ' :: rest)))
  refine (parses_eat_separated hbrace rfl).bind ?_
  rw [Bool.and_not_self]
  refine (parses_atSymbol hbrace).bind ((parses_atSymbol hbrace).bind ?_)
  exact (parses_braces (forall₂_isPart isPart_importSpecifier hnamed) _).bind (.pure _ _)

/-- A clause is read behind the default name if there is a token that is no string. -/
theorem parses_clause {clause : ImportClause} (h : Lexes cs f mid)
    (hf : default? = none → Form.isString f = false)
    (hclause : Parses (importClause default?) cs rest clause) :
    Parses (clause? default?) cs rest (some clause) := by
  refine (parses_form h).bind ?_
  have hnone : (default?.isNone && Form.isString f) = false := by
    cases default? with
    | none => exact hf rfl
    | some name => rfl
  rw [hnone]
  exact hclause.bind (.pure _ rest)

/-- The text is that of an import behind its first word, which binds what the clause says. -/
def ImportsAs (literal : StringLiteral) (c : Option ImportClause) (rest cs : List Char) : Prop :=
  ∃ default? cs', cs = defaultText default? cs' ∧ default?.all isBindable = true ∧
    FollowsDefault default? cs' ∧
    Parses (clause? default?) cs' (' ' :: ((quoted literal).toList ++ ';' :: rest)) c

variable {c : Option ImportClause}

/-- An import is read. -/
theorem ImportsAs.parses (hcs : ImportsAs literal c rest cs) (h : literal.hasHalves = false) :
    Parses importDeclaration cs rest (.importDecl .evaluation false c (reread literal) none) := by
  obtain ⟨default?, cs', rfl, hdefault, hfollows, hclause⟩ := hcs
  exact parses_importDeclaration hdefault hfollows h hclause

/-- An import is no expression. -/
theorem ImportsAs.exists_lexes (hcs : ImportsAs literal c rest cs) :
    ∃ f mid, Lexes cs f mid ∧ f.isSymbol "(" = false ∧ f.isSymbol "." = false := by
  obtain ⟨default?, cs', rfl, hdefault, hfollows, -⟩ := hcs
  cases default? with
  | none =>
    obtain ⟨f, mid, hlexes, hf, -⟩ := hfollows.lexes
    exact ⟨f, mid, hlexes, (hf rfl).2⟩
  | some name =>
    exact ⟨_, _, lexes_name (Bool.and_eq_true_iff.1 hdefault).1 (hfollows.ends name rfl), rfl, rfl⟩

/-- An import that binds nothing. -/
theorem importsAs_bare (h : literal.hasHalves = false) (rest : List Char) :
    ImportsAs literal none rest (' ' :: ((quoted literal).toList ++ ';' :: rest)) := by
  have hsource := lexes_source h (';' :: rest)
  refine ⟨none, _, rfl, rfl, followsDefault_separated hsource ⟨rfl, rfl, rfl⟩, ?_⟩
  exact (parses_form hsource).bind (.pure none _)

/-- An import that binds a default only. -/
theorem importsAs_default {name : String} (hname : isBindable name = true)
    (h : literal.hasHalves = false) (rest : List Char) :
    ImportsAs literal (some ⟨some name, none, none⟩) rest (defaultText (some name)
      (' ' :: ("from".toList ++ ' ' :: ((quoted literal).toList ++ ';' :: rest)))) :=
  ⟨some name, _, rfl, hname, followsDefault_from name h _,
    parses_clause (lexes_from _) nofun (parses_importClause_default name _)⟩

/-- An import that binds a whole module or names, and a default if there is one. -/
theorem importsAs_separated {clause : ImportClause} (hdefault : default?.all isBindable = true)
    (hlexes : Lexes cs f mid) (hf : ∃ text, f = .symbol text)
    (hname : f.isSymbol "(" = false ∧ f.isSymbol "." = false)
    (hclause : Parses (importClause default?) (separated default? cs)
      (' ' :: ((quoted literal).toList ++ ';' :: rest)) clause) :
    ImportsAs literal (some clause) rest (defaultText default? (separated default? cs)) := by
  obtain ⟨text, rfl⟩ := hf
  refine ⟨default?, _, rfl, hdefault, followsDefault_separated hlexes ⟨rfl, hname⟩, ?_⟩
  cases default? with
  | none => exact parses_clause hlexes (fun _ => rfl) hclause
  | some name => exact parses_clause (lexes_comma cs) nofun hclause

/-- An import that binds a whole module, and a default if there is one. -/
theorem importsAs_whole {name : String} (hdefault : default?.all isBindable = true)
    (hname : isBindable name = true) (rest : List Char) :
    ImportsAs literal (some ⟨default?, some name, none⟩) rest
      (' ' :: ((importClauseText ⟨default?, some name, none⟩).toList ++
        ((quoted literal).toList ++ ';' :: rest))) := by
  have himports := importsAs_separated hdefault (lexes_star _) ⟨_, rfl⟩ ⟨rfl, rfl⟩
    (parses_importClause_whole hname ((quoted literal).toList ++ ';' :: rest))
  cases default? <;> simpa [importClauseText, commaList, defaultText, separated] using himports

/-- An import that binds names, and a default if there is one. -/
theorem importsAs_named {named : List ImportSpecifier}
    (hdefault : default?.all isBindable = true)
    (hnamed : named.all ImportSpecifier.isPrintable = true)
    (hsome : (named.isEmpty && default?.isSome) = false) (rest : List Char) :
    ImportsAs literal (some ⟨default?, none, some (named.map ImportSpecifier.reread)⟩) rest
      (' ' :: ((importClauseText ⟨default?, none, some named⟩).toList ++
        ((quoted literal).toList ++ ';' :: rest))) := by
  obtain ⟨mid, hbrace⟩ := exists_lexes_braces (named.map importSpecifierText)
    (' ' :: ("from".toList ++ ' ' :: ((quoted literal).toList ++ ';' :: rest)))
  have himports := importsAs_separated hdefault hbrace ⟨_, rfl⟩ ⟨rfl, rfl⟩
    (parses_importClause_named hnamed ((quoted literal).toList ++ ';' :: rest))
  cases default? with
  | none => simpa [importClauseText, commaList, defaultText, separated] using himports
  | some name =>
    have hne : named ≠ [] := by simpa using hsome
    simpa [importClauseText, commaList, defaultText, separated, hne] using himports

/-- The clause of an import in print. -/
def clauseText : Option ImportClause → String
  | some clause => importClauseText clause
  | none => ""

/-- An import that can be printed is such a text in print. -/
theorem importsAs_of_isPrintable (hc : c.all ImportClause.isPrintable = true)
    (h : literal.hasHalves = false) (rest : List Char) :
    ImportsAs literal (c.map ImportClause.reread) rest
      (' ' :: ((clauseText c).toList ++ ((quoted literal).toList ++ ';' :: rest))) := by
  cases c with
  | none => simpa [clauseText] using importsAs_bare h rest
  | some clause =>
    obtain ⟨default?, whole?, named?⟩ := clause
    obtain ⟨hdefault, hrest⟩ := Bool.and_eq_true_iff.1 hc
    -- a default only, names, a whole module, or both, which no import binds
    rcases whole? with _ | whole <;> rcases named? with _ | named
    · obtain ⟨name, rfl⟩ := Option.isSome_iff_exists.1 hrest
      simpa [clauseText, importClauseText, commaList, defaultText, ImportClause.reread] using
        importsAs_default hdefault h rest
    · cases hsome : named.isEmpty && default?.isSome with
      | false =>
        have hreread : ImportClause.reread ⟨default?, none, some named⟩ =
            ⟨default?, none, some (named.map ImportSpecifier.reread)⟩ := by
          simp only [ImportClause.reread, Option.bind_some, hsome]
          rfl
        rw [Option.map_some, hreread]
        exact importsAs_named hdefault hrest hsome rest
      | true =>
        obtain ⟨hempty, hdefault?⟩ := Bool.and_eq_true_iff.1 hsome
        obtain rfl := List.isEmpty_iff.1 hempty
        obtain ⟨name, rfl⟩ := Option.isSome_iff_exists.1 hdefault?
        simpa [clauseText, importClauseText, commaList, defaultText, ImportClause.reread] using
          importsAs_default hdefault h rest
    · simpa [clauseText, ImportClause.reread] using importsAs_whole hdefault hrest rest
    · cases hrest

end ModuleLoader.Syntax.Parser
