import ModuleLoader.Proofs.Syntax.Links
import ModuleLoader.Proofs.Syntax.Reading

/-! # Names in print are read back

Imports and exports name what they bind by words and strings. Each name in print stands behind a
blank, and ends where a comma or a blank follows.

* **`Parser.parses_moduleName`** and **`Parser.parses_bindingName`** read one name.
* **`Parser.isPart_exportSpecifier`** and **`Parser.isPart_importSpecifier`** read one or two of
  them in a list.
* **`Parser.parses_braces`** reads a list in braces. -/

namespace ModuleLoader.Syntax.Parser

open Lexer Printer

variable {α : Type} {f : Form} {cs mid rest : List Char} {name : String} {m : ModuleName}

/-! ## Names -/

/-- What follows a name: a comma or a blank. -/
def EndsName (cs : List Char) : Prop := ∃ tail, cs = ',' :: tail ∨ cs = ' ' :: tail

/-- A name may end where a part of a list does. -/
theorem EndsPart.endsName (h : EndsPart cs) : EndsName cs := by
  obtain ⟨tail, rfl | rfl⟩ := h
  · exact ⟨tail, .inl rfl⟩
  · exact ⟨_, .inr rfl⟩

/-- A text starts with the word behind the blank that it starts with. -/
theorem lexes_name (hname : Text.isIdentifierName name = true) (h : EndsName rest) :
    Lexes (' ' :: (name.toList ++ rest)) (.word name false) rest := by
  refine lexes_word [' '] isSpace_blank hname ?_
  obtain ⟨tail, rfl | rfl⟩ := h
  all_goals
    rintro _ ⟨⟩
    decide +kernel

/-- The token that a name is. -/
def ModuleName.form : ModuleName → Form
  | .ident name => .word name false
  | .string literal => .string (Lexer.reread literal)

/-- A text starts with the name behind the blank that it starts with. -/
theorem lexes_moduleName (hm : m.isPrintable = true) (h : EndsName rest) :
    Lexes (' ' :: ((moduleNameText m).toList ++ rest)) (ModuleName.form m) rest := by
  cases m with
  | ident name => exact lexes_name hm h
  | string literal =>
    refine lexes_quoted [' '] isSpace_blank ?_
    exact Bool.not_eq_true' _ ▸ hm

/-- A name is read. -/
theorem parses_moduleName (hm : m.isPrintable = true) (h : EndsName rest) :
    Parses moduleName (' ' :: ((moduleNameText m).toList ++ rest)) rest m.reread := by
  have hlexes := lexes_moduleName hm h
  unfold moduleName
  refine (parses_form hlexes).bind ?_
  cases m with
  | ident name =>
    exact ((parses_form hlexes).bind ((parses_skip hlexes).bind (.pure name rest))).bind
      (.pure (ModuleName.ident name) rest)
  | string literal => exact (parses_skip hlexes).bind (.pure _ rest)

/-- The context of a parser is that of a module. -/
theorem parses_context (h : Lexes cs f rest) : Parses context cs cs (moduleContext .plain) :=
  .see h fun _ _ _ _ => rfl

/-- A name that is bound is read. -/
theorem parses_bindingName (hname : isBindable name = true) (h : EndsName rest) :
    Parses bindingName (' ' :: (name.toList ++ rest)) rest name := by
  obtain ⟨hword, hfree⟩ := Bool.and_eq_true_iff.1 hname
  have hlexes := lexes_name hword h
  have hawait : (name == "await") = false := by
    refine beq_false_of_ne ?_
    rintro rfl
    exact absurd hfree (by decide)
  have hcheck : checkName name (moduleContext .plain) = pure () := by
    unfold checkName
    rw [hawait, Bool.and_false]
    rfl
  unfold bindingName
  refine (parses_form hlexes).bind ?_
  change Parses (if isNameWord name = true then _ else _) _ _ _
  rw [if_pos (by rw [isNameWord, hfree, Bool.true_or])]
  refine (parses_context hlexes).bind ?_
  rw [hcheck]
  exact (Parses.pure () _).bind ((parses_skip hlexes).bind (.pure name rest))

/-- A word that is bound is a name. -/
theorem isName_of_isBindable (hname : isBindable name = true) :
    Form.isName (.word name false) = true := by
  change (!isReserved name || name == "await") = true
  rw [(Bool.and_eq_true_iff.1 hname).2, Bool.true_or]

/-! ## Names in braces -/

/-- A part of a list ends before a token that is no word. -/
theorem EndsPart.exists_lexes (h : EndsPart rest) :
    ∃ f mid, Lexes rest f mid ∧ f.isWord "as" = false := by
  obtain ⟨tail, rfl | rfl⟩ := h
  · exact ⟨_, _, lexes_comma tail, rfl⟩
  · exact ⟨_, _, lexes_closingBrace tail, rfl⟩

/-- No second name is read where the first one is the last. -/
theorem parses_secondName?_none {second : Parse ModuleName} (h : EndsPart rest) :
    Parses (secondName? second) rest rest none := by
  obtain ⟨f, mid, hlexes, hf⟩ := h.exists_lexes
  unfold secondName?
  exact (parses_eatWord_not hlexes hf).bind (.pure none rest)

/-- A second name is read behind its word. -/
theorem parses_secondName? {second : Parse ModuleName}
    (h : Parses second (' ' :: cs) rest m) :
    Parses (secondName? second) (' ' :: ("as".toList ++ ' ' :: cs)) rest (some m) := by
  unfold secondName?
  exact (parses_eatWord (lexes_name (by decide +kernel) ⟨cs, .inr rfl⟩)).bind
    (h.bind (.pure (some m) rest))

/-- The names of a specifier are read one after the other. -/
theorem parses_specifierNames {second : Parse ModuleName} {second? : Option ModuleName}
    (hm : m.isPrintable = true) (hmid : EndsName mid) (hlexes : Lexes mid f cs)
    (h : Parses (secondName? second) mid rest second?) :
    Parses (specifierNames second) (' ' :: ((moduleNameText m).toList ++ mid)) rest
      ⟨false, m.reread, second?⟩ := by
  unfold specifierNames
  refine (parses_moduleName hm hmid).bind ((parses_hasTypes hlexes).bind ?_)
  exact h.bind (.pure _ rest)

/-- Two names in print, of which the second one is left out if it is the same. -/
def twoNames (m m' : ModuleName) (isSame : Bool) : String :=
  moduleNameText m ++ if isSame then "" else " as " ++ moduleNameText m'

variable {m' m'' : ModuleName} {isSame : Bool}

/-- Behind the first of two names comes the second one with its word, or nothing. -/
theorem toList_twoNames (m m' : ModuleName) (isSame : Bool) (rest : List Char) :
    (twoNames m m' isSame).toList ++ rest = (moduleNameText m).toList ++ if isSame then rest
      else ' ' :: ("as".toList ++ ' ' :: ((moduleNameText m').toList ++ rest)) := by
  cases isSame <;> simp [twoNames]

/-- Two names are a part of a list if they are read. -/
theorem isPart_twoNames {p : Parse α} {a : α} (hm : m.isPrintable = true)
    (h : ∀ rest, EndsPart rest →
      Parses p (' ' :: ((twoNames m m' isSame).toList ++ rest)) rest a) :
    IsPart p (' ' :: (twoNames m m' isSame).toList) a := by
  refine ⟨fun rest hrest => ?_, h⟩
  rw [List.cons_append, toList_twoNames]
  refine ⟨ModuleName.form m, _, lexes_moduleName hm ?_, ?_⟩
  · cases isSame with
    | true => exact hrest.endsName
    | false => exact ⟨_, .inr rfl⟩
  · cases m <;> exact ⟨rfl, rfl⟩

/-- Two names are read. -/
theorem parses_twoNames {second : Parse ModuleName} (hm : m.isPrintable = true)
    (h : EndsPart rest) (hsecond : isSame = false →
      Parses second (' ' :: ((moduleNameText m').toList ++ rest)) rest m'') :
    Parses (specifierNames second) (' ' :: ((twoNames m m' isSame).toList ++ rest)) rest
      ⟨false, m.reread, if isSame then none else some m''⟩ := by
  rw [toList_twoNames]
  cases isSame with
  | true =>
    obtain ⟨f, mid, hlexes, -⟩ := h.exists_lexes
    exact parses_specifierNames hm h.endsName hlexes (parses_secondName?_none h)
  | false =>
    exact parses_specifierNames hm ⟨_, .inr rfl⟩ (lexes_name (by decide +kernel) ⟨_, .inr rfl⟩)
      (parses_secondName? (hsecond rfl))

/-- A name in the braces of an export is read. -/
theorem isPart_exportSpecifier {s : ExportSpecifier} (hs : s.isPrintable = true) :
    IsPart exportSpecifier (' ' :: (exportSpecifierText s).toList) s.reread := by
  obtain ⟨hbound, hexported⟩ := Bool.and_eq_true_iff.1 hs
  have htext : exportSpecifierText s =
      twoNames s.bound s.exported (s.bound.text == s.exported.text) := rfl
  rw [htext]
  refine isPart_twoNames hbound fun rest h => ?_
  refine (parses_twoNames hbound h fun _ => parses_moduleName hexported h.endsName).bind ?_
  unfold ExportSpecifier.reread
  cases s.bound.text == s.exported.text with
  | true => exact .pure _ rest
  | false => exact .pure _ rest

/-- A name in the braces of an import is read. -/
theorem isPart_importSpecifier {s : ImportSpecifier} (hs : s.isPrintable = true) :
    IsPart importSpecifier (' ' :: (importSpecifierText s).toList) s.reread := by
  -- where the names are the same only the first is printed, so that it has to be a word
  obtain ⟨himported, hbound, hsame⟩ : s.imported.isPrintable = true ∧ isBindable s.bound = true ∧
      (s.imported.text == s.bound → s.imported = .ident s.bound) := by
    unfold ImportSpecifier.isPrintable at hs
    simp only [Bool.and_eq_true, Bool.or_eq_true, bne_iff_ne, beq_iff_eq] at hs
    exact ⟨hs.1.1, hs.1.2, fun h => hs.2.resolve_left fun hne => hne (eq_of_beq h)⟩
  have hfree : isReserved s.bound = false := by
    simpa using (Bool.and_eq_true_iff.1 hbound).2
  have htext : importSpecifierText s =
      twoNames s.imported (.ident s.bound) (s.imported.text == s.bound) := rfl
  rw [htext]
  refine isPart_twoNames himported fun rest h => ?_
  have hbinding : Parses (ModuleName.ident <$> bindingName)
      (' ' :: ((moduleNameText (.ident s.bound)).toList ++ rest)) rest (.ident s.bound) :=
    (parses_bindingName hbound h.endsName).map
  unfold importSpecifier
  refine (parses_twoNames himported h fun _ => hbinding).bind ?_
  unfold ImportSpecifier.reread
  cases hcase : s.imported.text == s.bound with
  | false => exact .pure _ rest
  | true =>
    rw [hsame hcase]
    change Parses (if isReserved s.bound = true then _ else _) _ _ _
    rw [hfree]
    exact .pure _ rest

/-- The names of a list in braces are separated by commas and blanks. -/
theorem toList_commaList (text : String) (texts : List String) :
    (commaList (text :: texts)).toList =
      text.toList ++ listTail (texts.map fun text => ' ' :: text.toList) := by
  induction texts generalizing text with
  | nil => simp [commaList, listTail]
  | cons text' texts ih =>
    have hcons : commaList (text :: text' :: texts) =
        text ++ ", " ++ commaList (text' :: texts) := by
      simp [commaList, String.intercalate_cons_cons]
    rw [hcons, String.toList_append, String.toList_append, ih, List.append_assoc]
    simp [listTail]

/-- A text starts with the brace behind the blank that it starts with. -/
theorem lexes_openingBrace (rest : List Char) :
    Lexes (' ' :: '\x7b' :: rest) (.symbol "\x7b") rest :=
  lexes_of_blank (by decide) rfl

/-- A text in braces starts with the opening one. -/
theorem exists_lexes_braces (texts : List String) (rest : List Char) :
    ∃ mid, Lexes (' ' :: ((objectPatternText texts).toList ++ rest)) (.symbol "\x7b") mid := by
  obtain ⟨tail, htail⟩ : ∃ tail, (objectPatternText texts).toList = '\x7b' :: tail := by
    unfold objectPatternText
    cases texts <;> simp
  rw [htail]
  exact ⟨_, lexes_openingBrace _⟩

/-- A list in braces is read. -/
theorem parses_braces {p : Parse α} {texts : List String} {as : List α}
    (h : List.Forall₂ (fun text a => IsPart p (' ' :: text.toList) a) texts as) (rest : List Char) :
    Parses (listBetween "\x7b" "," "\x7d" p) (' ' :: ((objectPatternText texts).toList ++ rest))
      rest as := by
  cases h with
  | nil =>
    have htext : (objectPatternText []).toList = ['\x7b', '\x7d'] := by simp [objectPatternText]
    rw [htext]
    exact parses_listBetween_nil (lexes_openingBrace _)
      (lexes_of_head (by decide) rfl)
  | @cons text a texts as hpart hparts =>
    have htext : (objectPatternText (text :: texts)).toList ++ rest =
        '\x7b' :: ((' ' :: text.toList) ++
          (listTail (texts.map fun text => ' ' :: text.toList) ++ ' ' :: '\x7d' :: rest)) := by
      simp [objectPatternText, toList_commaList]
    rw [htext]
    exact parses_listBetween hpart (List.forall₂_map_left_iff.2 hparts) (lexes_openingBrace _)

end ModuleLoader.Syntax.Parser
