import Mathlib.Data.List.Forall2
import ModuleLoader.Proofs.Syntax.Literals
import ModuleLoader.Syntax.Program

/-! # Reading token by token

What a parser does with a text whose next tokens are known, as long as no comment and no fault is
among them.

* **`Lexer.Lexes`** is a text that starts with a token.
* **`Parser.At`** is a parser at some text, **`Parser.Parses`** says what it reads from there.
* **`Parser.parses_listBetween`** reads a list, **`Parser.parses_programBody`** the statements of a
  module. -/

namespace ModuleLoader.Syntax

/-! ## Texts that start with a token -/

namespace Lexer

/-- The text starts with a token of the form and goes on with the rest. Nothing but blanks and line
breaks lies before the token. -/
def Lexes (cs : List Char) (f : Form) (rest : List Char) : Prop :=
  ∀ isFirst before, ∃ afterBreak start,
    nextToken isFirst before cs = ⟨⟨f, afterBreak, [], false, false, start⟩, rest, [], []⟩

/-- The character lies between tokens. -/
def isSpace (c : Char) : Bool := Text.isLineTerminator c || Text.isBlank c

variable {ws cs rest : List Char} {f : Form}

/-- Reading between tokens passes blanks and line breaks up to the first other character, if that
starts no comment. -/
theorem readTriviaFrom_spaces (isOpening : Bool) (hws : ∀ c ∈ ws, isSpace c = true)
    (hcs : ∀ c ∈ cs.head?, isSpace c = false ∧ c ≠ '/') {fuel : Nat} (hfuel : ws.length < fuel)
    (s : TriviaState) (hpending : s.pending = []) (hcomments : s.comments = []) :
    ∃ hasBreak, readTriviaFrom isOpening fuel s (ws ++ cs) = ⟨hasBreak, [], [], [], cs⟩ := by
  -- a step for each blank, and one for what stops the reading
  obtain ⟨fuel, rfl⟩ := Nat.exists_eq_add_one_of_ne_zero (Nat.ne_of_gt (Nat.zero_lt_of_lt hfuel))
  induction ws generalizing s fuel with
  | nil =>
    refine ⟨s.hasBreak, ?_⟩
    cases cs with
    | nil =>
      simp [readTriviaFrom, TriviaState.finish, hpending, hcomments]
    | cons c cs =>
      obtain ⟨hspace, hslash⟩ := hcs c rfl
      rw [isSpace, Bool.or_eq_false_iff] at hspace
      rw [List.nil_append, readTriviaFrom, hspace.1, hspace.2]
      · simp [TriviaState.finish, hpending, hcomments]
      · exact fun _ h => absurd h hslash
      · exact fun _ h => absurd h hslash
  | cons w ws ih =>
    have hw := hws w List.mem_cons_self
    have hslash : w ≠ '/' := by
      rintro rfl
      exact absurd hw (by decide)
    rw [List.length_cons] at hfuel
    obtain ⟨fuel, rfl⟩ := Nat.exists_eq_add_one_of_ne_zero (n := fuel) (by omega)
    rw [List.cons_append, readTriviaFrom]
    · split
      · have hnewline : s.newline.pending = [] := by rw [TriviaState.newline, hpending]
        exact ih (fun c hc => hws c (List.mem_cons_of_mem _ hc)) s.newline hnewline hcomments _
          (by omega)
      · next hbreak =>
        rw [isSpace, Bool.or_eq_true] at hw
        rw [if_pos (hw.resolve_left hbreak)]
        exact ih (fun c hc => hws c (List.mem_cons_of_mem _ hc)) s hpending hcomments _ (by omega)
    · exact fun _ h => absurd h hslash
    · exact fun _ h => absurd h hslash

/-- A text starts with the token that is read behind the blanks and line breaks at its start. -/
theorem lexes_of_readForm (ws : List Char) (hws : ∀ c ∈ ws, isSpace c = true)
    (hcs : ∀ c ∈ cs.head?, isSpace c = false ∧ c ≠ '/') (h : readForm cs = .sound f rest) :
    Lexes (ws ++ cs) f rest := by
  intro isFirst before
  have hfuel : ws.length < (ws ++ cs).length + 1 := by
    rw [List.length_append]
    omega
  obtain ⟨hasBreak, htrivia⟩ := readTriviaFrom_spaces
    (before.isSymbol "=" || before.isSymbol "(") hws hcs hfuel ⟨isFirst, false, [], []⟩ rfl rfl
  refine ⟨hasBreak, cs, ?_⟩
  unfold nextToken readTrivia
  dsimp only
  rw [htrivia, h]
  rfl

/-- A text starts with the token that is read at its start. -/
theorem lexes_of_head {c : Char} (hc : isSpace c = false ∧ c ≠ '/')
    (h : readForm (c :: cs) = .sound f rest) : Lexes (c :: cs) f rest := by
  refine lexes_of_readForm [] nofun ?_ h
  rintro _ ⟨⟩
  exact hc

/-- Blanks lie between tokens. -/
theorem isSpace_blank : ∀ c ∈ [' '], isSpace c = true := by
  intro c hc
  rw [List.mem_singleton.1 hc]
  decide

/-- A text starts with the token that is read behind the blank at its start. -/
theorem lexes_of_blank {c : Char} (hc : isSpace c = false ∧ c ≠ '/')
    (h : readForm (c :: cs) = .sound f rest) : Lexes (' ' :: c :: cs) f rest := by
  refine lexes_of_readForm [' '] isSpace_blank ?_ h
  rintro _ ⟨⟩
  exact hc

/-- No word starts with a blank, a line break or a slash. -/
theorem isSpace_of_isIdentifierStart {c : Char} (h : Text.isIdentifierStart c = true) :
    isSpace c = false ∧ c ≠ '/' := by
  -- the codes of all blanks and line breaks
  have hcodes : ∀ n ∈ [9, 10, 11, 12, 13, 32, 0x85, 0xA0, 0x1680, 0x2028, 0x2029, 0x202F, 0x205F,
      0x3000, 0xFEFF] ++ List.range' 0x2000 12, Text.isIdentifierStart (Char.ofNat n) = false := by
    decide +kernel
  constructor
  · cases hspace : isSpace c with
    | false => rfl
    | true =>
      have hcode := hcodes c.toNat (by
        simp only [isSpace, Text.isLineTerminator, Text.isBlank, Bool.or_eq_true, beq_iff_eq,
          Bool.and_eq_true, decide_eq_true_eq] at hspace
        simp only [List.mem_append, List.mem_cons, List.mem_range'_1, List.not_mem_nil, or_false]
        rcases hspace with ((((rfl | rfl) | rfl) | rfl)) | hblank
        · decide
        · decide
        · decide
        · decide
        · omega)
      rw [Char.ofNat_toNat, h] at hcode
      cases hcode
  · rintro rfl
    exact absurd h (by decide +kernel)

/-- Reading on in a word takes what may be in it, up to a character that may not. -/
theorem readWordFrom_append {w : List Char} (hw : w.all Text.isIdentifierPart = true)
    (hrest : ∀ c ∈ rest.head?, Text.isIdentifierPart c = false ∧ c ≠ '\\') {fuel : Nat}
    (hfuel : w.length < fuel) (reversed : List Char) :
    readWordFrom fuel false ⟨reversed, false, [], w ++ rest⟩ =
      ⟨w.reverse ++ reversed, false, [], rest⟩ := by
  have hpart : ∀ (c : Char) (cs reversed : List Char) (fuel : Nat), c ≠ '\\' →
      readWordFrom (fuel + 1) false ⟨reversed, false, [], c :: cs⟩ =
        if Text.isIdentifierPart c = true then
          readWordFrom fuel false ⟨c :: reversed, false, [], cs⟩
        else ⟨reversed, false, [], c :: cs⟩ := by
    intro c cs reversed fuel hbackslash
    rw [readWordFrom]
    simp
  obtain ⟨fuel, rfl⟩ := Nat.exists_eq_add_one_of_ne_zero (Nat.ne_of_gt (Nat.zero_lt_of_lt hfuel))
  induction w generalizing fuel reversed with
  | nil =>
    cases rest with
    | nil => rfl
    | cons c rest =>
      obtain ⟨hend, hbackslash⟩ := hrest c rfl
      rw [List.nil_append, hpart c rest reversed fuel hbackslash, hend]
      rfl
  | cons c w ih =>
    rw [List.all_cons, Bool.and_eq_true] at hw
    rw [List.length_cons] at hfuel
    obtain ⟨fuel, rfl⟩ := Nat.exists_eq_add_one_of_ne_zero (n := fuel) (by omega)
    have hbackslash : c ≠ '\\' := by
      rintro rfl
      exact absurd hw.1 (by decide +kernel)
    rw [List.cons_append, hpart c _ reversed _ hbackslash, if_pos hw.1,
      ih hw.2 _ _ (by omega), List.reverse_cons, List.append_assoc]
    rfl

/-- A text starts with the word that it starts with. -/
theorem lexes_word {name : String} (ws : List Char) (hws : ∀ c ∈ ws, isSpace c = true)
    (hname : Text.isIdentifierName name = true)
    (hrest : ∀ c ∈ rest.head?, Text.isIdentifierPart c = false ∧ c ≠ '\\') :
    Lexes (ws ++ (name.toList ++ rest)) (.word name false) rest := by
  unfold Text.isIdentifierName at hname
  cases hcs : name.toList with
  | nil =>
    rw [hcs] at hname
    cases hname
  | cons c w =>
    rw [hcs] at hname
    obtain ⟨hstart, hw⟩ := Bool.and_eq_true_iff.1 hname
    refine lexes_of_readForm ws hws ?_ ?_
    · rintro _ ⟨⟩
      exact isSpace_of_isIdentifierStart hstart
    · have hbackslash : c ≠ '\\' := by
        rintro rfl
        exact absurd hstart (by decide +kernel)
      have hfirst : readWord (c :: w ++ rest) =
          readWordFrom (c :: w ++ rest).length false ⟨[c], false, [], w ++ rest⟩ := by
        unfold readWord
        rw [List.cons_append, readWordFrom]
        simp [hstart]
      have hword : readWord (c :: w ++ rest) = ⟨w.reverse ++ [c], false, [], rest⟩ := by
        have hfuel : w.length < (c :: w ++ rest).length := by
          rw [List.length_append, List.length_cons]
          omega
        rw [hfirst, readWordFrom_append hw hrest hfuel]
      have hname : String.ofList (c :: w) = name := by rw [← hcs, String.ofList_toList]
      unfold readForm
      rw [List.cons_append]
      dsimp only
      rw [if_pos (by simp [hstart]), ← List.cons_append, hword]
      simp [Word.text, Piece.sound, hname]

/-- A text starts with the string that is in print at its start. -/
theorem lexes_quoted {l : StringLiteral} (ws : List Char) (hws : ∀ c ∈ ws, isSpace c = true)
    (hl : l.hasHalves = false) :
    Lexes (ws ++ ((Printer.quoted l).toList ++ rest)) (.string (reread l)) rest := by
  refine lexes_of_readForm ws hws ?_ (readForm_quoted hl rest)
  have hquote : ((Printer.quoted l).toList ++ rest).head? = some '"' := by
    simp [Printer.quoted]
  rw [hquote]
  rintro _ ⟨⟩
  decide

/-- Nothing but blanks and line breaks is the end of a text. -/
theorem lexes_end (hws : ∀ c ∈ ws, isSpace c = true) : Lexes ws .eof [] := by
  have hlexes : Lexes (ws ++ []) .eof [] := lexes_of_readForm ws hws (by simp) rfl
  rwa [List.append_nil] at hlexes

end Lexer

/-! ## Parsers that know what follows -/

namespace Parser

open Lexer

/-- A token behind no comments. -/
def plainToken (f : Form) (afterBreak : Bool) (start : List Char) : Token :=
  ⟨f, afterBreak, [], false, false, start⟩

/-- A parser at a token, in a module without types, that has met no comment and no fault. -/
def stateAt (token : Token) (rest : List Char) (previous : Token) (depth : Nat) : State :=
  ⟨.plain, moduleContext .plain, token, rest, previous, depth, [], [], 0, [], []⟩

/-- The parser is at a text, in a module without types, and has met no comment and no fault. -/
def At (s : State) (cs : List Char) : Prop :=
  ∃ isFirst before previous depth, s = ⟨.plain, moduleContext .plain,
    (nextToken isFirst before cs).token, (nextToken isFirst before cs).rest, previous, depth,
    (nextToken isFirst before cs).faults.reverse, [], 0,
    (nextToken isFirst before cs).comments.reverse, []⟩

/-- Wherever the parser is at one text, it reads something and is at the other text then. -/
def Parses {α : Type} (p : Parse α) (cs rest : List Char) (a : α) : Prop :=
  ∀ s, At s cs → ∃ s', p s = .ok a s' ∧ At s' rest

variable {α β : Type} {p : Parse α} {k : α → Parse β} {cs mid rest : List Char} {a : α} {b : β}
variable {f : Form} {text : String} {word : String}

/-! ### Steps -/

/-- Nothing is read by giving something back. -/
theorem Parses.pure (a : α) (cs : List Char) : Parses (Pure.pure a) cs cs a :=
  fun s hs => ⟨s, rfl, hs⟩

/-- One thing is read after the other. -/
theorem Parses.bind (h : Parses p cs mid a) (h' : Parses (k a) mid rest b) :
    Parses (p >>= k) cs rest b := by
  intro s hs
  obtain ⟨s', hp, hs'⟩ := h s hs
  obtain ⟨s'', hk, hs''⟩ := h' s' hs'
  refine ⟨s'', ?_, hs''⟩
  change EStateM.bind p k s = _
  unfold EStateM.bind
  rw [hp]
  exact hk

/-- What is read is changed. -/
theorem Parses.map {g : α → β} (h : Parses p cs rest a) : Parses (g <$> p) cs rest (g a) := by
  rw [map_eq_pure_bind]
  exact h.bind (.pure _ _)

/-- Looking ahead says what is read, and reads nothing. -/
theorem Parses.lookahead {p : Parse Bool} {b : Bool} (h : Parses p cs rest b) :
    Parses (lookahead p) cs cs b := by
  intro s hs
  obtain ⟨s', hp, -⟩ := h s hs
  refine ⟨s, ?_, hs⟩
  unfold Parser.lookahead
  rw [hp]

/-- The state at a text that starts with a token. -/
theorem At.exists_token {s : State} (hs : At s cs) (h : Lexes cs f rest) :
    ∃ afterBreak start previous depth,
      s = stateAt (plainToken f afterBreak start) rest previous depth := by
  obtain ⟨isFirst, before, previous, depth, rfl⟩ := hs
  obtain ⟨afterBreak, start, hscan⟩ := h isFirst before
  rw [hscan]
  exact ⟨afterBreak, start, previous, depth, rfl⟩

/-- What a parser sees of the current token, it reads. -/
theorem Parses.see {g : State → α} (h : Lexes cs f rest)
    (hg : ∀ afterBreak start previous depth,
      g (stateAt (plainToken f afterBreak start) rest previous depth) = a) :
    Parses (fun s => .ok (g s) s) cs cs a := by
  intro s hs
  refine ⟨s, ?_, hs⟩
  obtain ⟨afterBreak, start, previous, depth, rfl⟩ := hs.exists_token h
  exact congrArg (EStateM.Result.ok · _) (hg afterBreak start previous depth)

/-- What a parser sees besides the current token, it may go on with. -/
theorem Parses.seeThen {p : Parse α} (view : State → α) (h : Lexes cs f mid)
    (hp : ∀ s, p s = .ok (view s) s)
    (hk : ∀ afterBreak start previous depth,
      Parses (k (view (stateAt (plainToken f afterBreak start) mid previous depth))) cs rest b) :
    Parses (p >>= k) cs rest b := by
  intro s hs
  obtain ⟨afterBreak, start, previous, depth, rfl⟩ := hs.exists_token h
  obtain ⟨s', hread, hs'⟩ := hk afterBreak start previous depth _ hs
  refine ⟨s', ?_, hs'⟩
  change EStateM.bind p k _ = _
  unfold EStateM.bind
  rw [hp]
  exact hread

/-- The current token is passed. -/
theorem parses_skip (h : Lexes cs f rest) : Parses skip cs rest () := by
  intro s hs
  obtain ⟨afterBreak, start, previous, depth, rfl⟩ := hs.exists_token h
  refine ⟨_, rfl, false, f, plainToken f afterBreak start, depth, ?_⟩
  rw [State.next]
  simp [stateAt, plainToken]

/-! ### Tokens -/

/-- The form of the current token. -/
theorem parses_form (h : Lexes cs f rest) : Parses form cs cs f :=
  .see h fun _ _ _ _ => rfl

/-- The current token is a symbol or not. -/
theorem parses_atSymbol (h : Lexes cs f rest) : Parses (atSymbol text) cs cs (f.isSymbol text) :=
  .see h fun _ _ _ _ => rfl

/-- The current token is a word or not. -/
theorem parses_atWord (h : Lexes cs f rest) : Parses (atWord word) cs cs (f.isWord word) :=
  .see h fun _ _ _ _ => rfl

/-- The current token is the end of the text or not. -/
theorem parses_atEnd (h : Lexes cs f rest) : Parses atEnd cs cs (f == .eof) :=
  .see h fun _ _ _ _ => rfl

/-- The current token names a variable or not. -/
theorem parses_atName (h : Lexes cs f rest) : Parses atName cs cs (Form.isName f) :=
  .see h fun _ _ _ _ => rfl

/-- There are no types. -/
theorem parses_hasTypes (h : Lexes cs f rest) : Parses hasTypes cs cs false :=
  .see h fun _ _ _ _ => rfl

/-- The current token has no comments. -/
theorem parses_leadingComments (h : Lexes cs f rest) : Parses leadingComments cs cs [] :=
  .see h fun _ _ _ _ => rfl

/-- The number that bounds lists is that of the characters behind the current token, and two. -/
theorem parses_remaining (h : Lexes cs f rest) : Parses remaining cs cs (rest.length + 2) :=
  .see h fun _ _ _ _ => rfl

/-- A token that is no word with an escape in it is passed. -/
theorem parses_advance (h : Lexes cs f rest) (hf : ∀ w, f ≠ .word w true) :
    Parses advance cs rest () := by
  unfold advance
  refine (parses_form h).bind ?_
  split
  · exact absurd rfl (hf _)
  · exact parses_skip h

/-- A symbol that is there is passed. -/
theorem parses_eat (h : Lexes cs (.symbol text) rest) : Parses (eat text) cs rest true := by
  unfold eat
  refine (parses_atSymbol h).bind ?_
  rw [if_pos (by simp [Form.isSymbol])]
  exact (parses_advance h (by simp)).bind (.pure true rest)

/-- A symbol that is not there is not passed. -/
theorem parses_eat_not (h : Lexes cs f rest) (hf : f.isSymbol text = false) :
    Parses (eat text) cs cs false := by
  unfold eat
  refine (parses_atSymbol h).bind ?_
  rw [if_neg (by simp [hf])]
  exact .pure false cs

/-- A word that is there is passed. -/
theorem parses_eatWord (h : Lexes cs (.word word false) rest) :
    Parses (eatWord word) cs rest true := by
  unfold eatWord
  refine (parses_atWord h).bind ?_
  rw [if_pos (by simp [Form.isWord])]
  exact (parses_advance h (by simp)).bind (.pure true rest)

/-- A word that is not there is not passed. -/
theorem parses_eatWord_not (h : Lexes cs f rest) (hf : f.isWord word = false) :
    Parses (eatWord word) cs cs false := by
  unfold eatWord
  refine (parses_atWord h).bind ?_
  rw [if_neg (by simp [hf])]
  exact .pure false cs

/-- A symbol that has to be there is passed. -/
theorem parses_expect (h : Lexes cs (.symbol text) rest) : Parses (expect text) cs rest () := by
  unfold expect
  refine (parses_atSymbol h).bind ?_
  rw [if_pos (by simp [Form.isSymbol])]
  exact parses_advance h (by simp)

/-- A word that has to be there is passed. -/
theorem parses_expectWord (h : Lexes cs (.word word false) rest) :
    Parses (expectWord word) cs rest () := by
  unfold expectWord
  refine (parses_atWord h).bind ?_
  rw [if_pos (by simp [Form.isWord])]
  exact parses_advance h (by simp)

/-- A string is read. -/
theorem parses_stringLiteral {l : StringLiteral} (h : Lexes cs (.string l) rest) :
    Parses stringLiteral cs rest l := by
  unfold stringLiteral
  exact (parses_form h).bind ((parses_skip h).bind (.pure l rest))

/-- A statement ends with a semicolon. -/
theorem parses_endStatement (h : Lexes cs (.symbol ";") rest) :
    Parses endStatement cs rest () := by
  unfold endStatement
  exact (parses_eat h).bind (.pure () rest)

/-- What has to be closed around a text does not matter. -/
theorem Parses.inside (h : Parses p cs rest a) : Parses (inside p) cs rest a := by
  rintro _ ⟨isFirst, before, previous, depth, rfl⟩
  obtain ⟨s', hp, isFirst', before', previous', depth', rfl⟩ :=
    h _ ⟨isFirst, before, previous, depth + 1, rfl⟩
  refine ⟨_, ?_, isFirst', before', previous', depth' - 1, rfl⟩
  change EStateM.bind p _ _ = _
  unfold EStateM.bind
  rw [hp]
  rfl

/-- What is between two symbols is read. -/
theorem Parses.between {opening closing : String} {cs' rest' : List Char}
    (h : Lexes cs (.symbol opening) cs') (h' : Parses p cs' rest a)
    (h'' : Lexes rest (.symbol closing) rest') :
    Parses (between opening closing p) cs rest' a := by
  unfold Parser.between
  exact (parses_expect h).bind (h'.inside.bind ((parses_expect h'').bind (.pure a rest')))

/-! ### Lists in braces -/

/-- What follows a part of a list in braces: a comma, or a blank and the closing brace. -/
def EndsPart (cs : List Char) : Prop := ∃ tail, cs = ',' :: tail ∨ cs = ' ' :: '\x7d' :: tail

/-- A part of a list in braces, with the blank before it. It does not start with a brace, and is
read wherever a part of a list may end behind it. -/
structure IsPart (p : Parse α) (part : List Char) (a : α) : Prop where
  /-- It starts with another token than a closing brace. -/
  starts : ∀ rest, EndsPart rest → ∃ f mid, Lexes (part ++ rest) f mid ∧
    f.isSymbol "\x7d" = false ∧ (f == .eof) = false
  /-- It is read. -/
  parses : ∀ rest, EndsPart rest → Parses p (part ++ rest) rest a

/-- The parts behind the first one, each behind a comma. -/
def listTail : List (List Char) → List Char
  | [] => []
  | part :: parts => ',' :: (part ++ listTail parts)

/-- A text starts with the comma that it starts with. -/
theorem lexes_comma (rest : List Char) : Lexes (',' :: rest) (.symbol ",") rest :=
  lexes_of_head (by decide) rfl

/-- A text starts with the brace behind the blank that it starts with. -/
theorem lexes_closingBrace (rest : List Char) :
    Lexes (' ' :: '\x7d' :: rest) (.symbol "\x7d") rest :=
  lexes_of_blank (by decide) rfl

/-- A part of a list ends where the next one or the closing brace is. -/
theorem endsPart_listTail (parts : List (List Char)) (rest : List Char) :
    EndsPart (listTail parts ++ ' ' :: '\x7d' :: rest) := by
  cases parts with
  | nil => exact ⟨rest, .inr rfl⟩
  | cons part parts => exact ⟨_, .inl rfl⟩

/-- There are as many commas as parts behind the first one. -/
theorem length_le_length_listTail (parts : List (List Char)) :
    parts.length ≤ (listTail parts).length := by
  induction parts with
  | nil => exact Nat.zero_le _
  | cons part parts ih =>
    rw [listTail, List.length_cons, List.length_cons, List.length_append]
    omega

/-- The parts of a list behind the first one are read, if the number allows for them. -/
theorem parses_listRest {parts : List (List Char)} {as : List α}
    (h : List.Forall₂ (IsPart p) parts as) {fuel : Nat} (hfuel : parts.length ≤ fuel)
    (acc : List α) (rest : List Char) :
    Parses (listRest "," "\x7d" p fuel acc) (listTail parts ++ ' ' :: '\x7d' :: rest)
      (' ' :: '\x7d' :: rest) (acc.reverse ++ as, false) := by
  induction h generalizing fuel acc with
  | nil =>
    rw [List.append_nil]
    cases fuel with
    | zero => exact .pure _ _
    | succ fuel =>
      have hbrace := lexes_closingBrace rest
      exact (parses_atSymbol hbrace).bind ((parses_atEnd hbrace).bind (.pure _ _))
  | @cons part a parts as hpart hparts ih =>
    obtain ⟨fuel, rfl⟩ := Nat.exists_eq_add_one_of_ne_zero (n := fuel) (by
      rw [List.length_cons] at hfuel
      omega)
    rw [List.length_cons, Nat.add_le_add_iff_right] at hfuel
    have hends := endsPart_listTail parts rest
    obtain ⟨f, mid, hlexes, hbrace, -⟩ := hpart.starts _ hends
    have htext : listTail (part :: parts) ++ ' ' :: '\x7d' :: rest =
        ',' :: (part ++ (listTail parts ++ ' ' :: '\x7d' :: rest)) := by
      simp [listTail]
    rw [htext]
    have hcomma := lexes_comma (part ++ (listTail parts ++ ' ' :: '\x7d' :: rest))
    refine (parses_atSymbol hcomma).bind ((parses_atEnd hcomma).bind ?_)
    refine (parses_eat hcomma).bind ((parses_atSymbol hlexes).bind ?_)
    rw [hbrace]
    refine (hpart.parses _ hends).bind ?_
    have hread := ih hfuel (a :: acc)
    rwa [List.reverse_cons, List.append_assoc] at hread

/-- A list in braces is read. -/
theorem parses_listBetween {part : List Char} {parts : List (List Char)} {a : α} {as : List α}
    (hpart : IsPart p part a) (hparts : List.Forall₂ (IsPart p) parts as)
    (h : Lexes cs (.symbol "\x7b") (part ++ (listTail parts ++ ' ' :: '\x7d' :: rest))) :
    Parses (listBetween "\x7b" "," "\x7d" p) cs rest (a :: as) := by
  have hends := endsPart_listTail parts rest
  obtain ⟨f, mid, hlexes, hbrace, heof⟩ := hpart.starts _ hends
  refine .between h ?_ (lexes_closingBrace rest)
  refine Parses.map (g := Prod.fst) (a := (a :: as, false)) ?_
  unfold listAndComma
  refine (parses_atSymbol hlexes).bind ((parses_atEnd hlexes).bind ?_)
  rw [hbrace, heof]
  refine (hpart.parses _ hends).bind ?_
  -- each part behind the first one has its comma behind the current token, or is at it
  obtain ⟨fuel, hfuel, hremaining⟩ : ∃ fuel, parts.length ≤ fuel ∧
      Parses remaining (listTail parts ++ ' ' :: '\x7d' :: rest)
        (listTail parts ++ ' ' :: '\x7d' :: rest) fuel := by
    cases parts with
    | nil => exact ⟨_, Nat.zero_le _, parses_remaining (lexes_closingBrace rest)⟩
    | cons part parts =>
      refine ⟨_, ?_, parses_remaining (lexes_comma _)⟩
      have hlength := length_le_length_listTail parts
      change parts.length + 1 ≤ ((part ++ listTail parts) ++ ' ' :: '\x7d' :: rest).length + 2
      rw [List.length_append, List.length_append]
      omega
  exact hremaining.bind (parses_listRest hparts hfuel [a] rest)

/-- An empty list in braces is read. -/
theorem parses_listBetween_nil (h : Lexes cs (.symbol "\x7b") mid)
    (h' : Lexes mid (.symbol "\x7d") rest) :
    Parses (listBetween "\x7b" "," "\x7d" p) cs rest [] := by
  refine .between h ?_ h'
  refine Parses.map (g := Prod.fst) (a := ([], false)) ?_
  exact (parses_atSymbol h').bind ((parses_atEnd h').bind (.pure _ _))

/-! ### The statements of a module -/

/-- What lies before a statement: nothing, or the line break behind the one before. -/
def StartsLine (ws : List Char) : Prop := ws = [] ∨ ws = ['\n']

/-- A text that is a statement on a line of its own. It is read wherever it stands. -/
structure IsLine (r : Rules) (line : List Char) (s : Stmt) : Prop where
  /-- It starts with a token. -/
  starts : ∀ ws, StartsLine ws → ∀ rest, ∃ f mid,
    Lexes (ws ++ (line ++ '\n' :: rest)) f (mid ++ '\n' :: rest) ∧ (f == .eof) = false
  /-- It is read. -/
  parses : ∀ ws, StartsLine ws → ∀ rest,
    Parses (r.statement false) (ws ++ (line ++ '\n' :: rest)) ('\n' :: rest) s

/-- The lines of a text. -/
def textOfLines : List (List Char) → List Char
  | [] => []
  | line :: lines => line ++ '\n' :: textOfLines lines

/-- There are as many line breaks as lines. -/
theorem length_le_length_textOfLines (lines : List (List Char)) :
    lines.length ≤ (textOfLines lines).length := by
  induction lines with
  | nil => exact Nat.zero_le _
  | cons line lines ih =>
    rw [textOfLines, List.length_append, List.length_cons, List.length_cons]
    omega

/-- What lies between statements lies between tokens. -/
theorem StartsLine.isSpace {ws : List Char} (h : StartsLine ws) :
    ∀ c ∈ ws, Lexer.isSpace c = true := by
  intro c hc
  obtain rfl | rfl := h
  · cases hc
  · rw [List.mem_singleton.1 hc]
    decide

/-- What lies between statements is the end of a text. -/
theorem StartsLine.lexes_end {ws : List Char} (h : StartsLine ws) : Lexes ws .eof [] :=
  Lexer.lexes_end h.isSpace

variable {r : Rules} {lines : List (List Char)} {ss : List Stmt} {ws : List Char}

/-- The statements of a text are read line by line, if the number allows for them. -/
theorem parses_repeatFrom (h : List.Forall₂ (IsLine r) lines ss) {fuel : Nat}
    (hfuel : lines.length ≤ fuel) (acc : List Stmt) (hws : StartsLine ws) :
    ∃ ws', StartsLine ws' ∧ Parses (repeatFrom (do
        if ← atEnd then return none
        return some (← r.statement false)) fuel acc)
      (ws ++ textOfLines lines) ws' (acc.reverse ++ ss) := by
  induction h generalizing fuel acc ws with
  | nil =>
    refine ⟨ws, hws, ?_⟩
    rw [textOfLines, List.append_nil, List.append_nil]
    cases fuel with
    | zero => exact .pure _ _
    | succ fuel =>
      exact ((parses_atEnd hws.lexes_end).bind (.pure none ws)).bind (.pure _ ws)
  | @cons line s lines ss hline hlines ih =>
    obtain ⟨fuel, rfl⟩ := Nat.exists_eq_add_one_of_ne_zero (n := fuel) (by
      rw [List.length_cons] at hfuel
      omega)
    rw [List.length_cons, Nat.add_le_add_iff_right] at hfuel
    have hbreak : StartsLine ['\n'] := .inr rfl
    -- the line break behind this statement is passed with the first token of the next one
    obtain ⟨ws', hws', hread⟩ := ih hfuel (s :: acc) hbreak
    obtain ⟨f, mid, hlexes, heof⟩ := hline.starts ws hws (textOfLines lines)
    refine ⟨ws', hws', ?_⟩
    rw [List.reverse_cons, List.append_assoc] at hread
    refine Parses.bind (a := some s) ((parses_atEnd hlexes).bind ?_) hread
    rw [heof]
    exact (hline.parses ws hws _).bind (.pure (some s) _)

/-- The statements of a module are read line by line. -/
theorem parses_programBody (h : List.Forall₂ (IsLine r) lines ss) :
    ∃ ws, StartsLine ws ∧
      Parses (programBody r) (textOfLines lines) ws (markDirectives ss) := by
  -- the line break behind the first statement and those behind the others are still to be read
  obtain ⟨fuel, hfuel, hremaining⟩ : ∃ fuel, lines.length ≤ fuel ∧
      Parses remaining (textOfLines lines) (textOfLines lines) fuel := by
    cases h with
    | nil => exact ⟨_, Nat.zero_le _, parses_remaining (StartsLine.lexes_end (.inl rfl))⟩
    | @cons line s lines ss hline hlines =>
      obtain ⟨f, mid, hlexes, -⟩ := hline.starts [] (.inl rfl) (textOfLines lines)
      refine ⟨_, ?_, parses_remaining hlexes⟩
      have hlength := length_le_length_textOfLines lines
      rw [List.length_append, List.length_cons, List.length_cons]
      omega
  have hstart : StartsLine [] := .inl rfl
  obtain ⟨ws, hws, hread⟩ := parses_repeatFrom h hfuel [] hstart
  exact ⟨ws, hws, (hremaining.bind hread).bind (.pure _ ws)⟩

end Parser

/-! ## Programs -/

/-- A text whose lines are statements is read as a module of these, if no name is exported twice. -/
theorem Program.read_textOfLines {text : String} {lines : List (List Char)} {ss : List Stmt}
    (htext : text.toList = Parser.textOfLines lines)
    (h : ∀ n, List.Forall₂ (Parser.IsLine (Parser.rules (n + 1))) lines ss)
    (hstart : ∀ c ∈ text.toList.head?, c ≠ '\uFEFF' ∧ c ≠ '#')
    (hfaults : Parser.exportFaults (Parser.markDirectives ss) = []) :
    Program.read .plain text = .ok ⟨.plain, none, Parser.markDirectives ss, [], [], []⟩ := by
  have hcs : Parser.splitInterpreter (Parser.dropByteOrderMark text.toList) =
      (none, text.toList) := by
    cases hcs : text.toList with
    | nil => rfl
    | cons c cs =>
      obtain ⟨hmark, hhash⟩ := hstart c (by rw [hcs]; rfl)
      rw [Parser.dropByteOrderMark, if_neg (by simpa using hmark), Parser.splitInterpreter]
      exact fun _ heq => absurd (List.cons.inj heq).1 hhash
  obtain ⟨depth, hdepth⟩ : ∃ n, Program.depth text.toList = n + 1 :=
    ⟨16 * (text.toList.length + 4) - 1, by rw [Program.depth]; omega⟩
  obtain ⟨ws, hws, hread⟩ := Parser.parses_programBody (h depth)
  obtain ⟨s, hs, hat⟩ := hread (Parser.start .plain true text.toList)
    ⟨true, .eof, .bare .eof [], 0, by rw [htext]; rfl⟩
  obtain ⟨afterBreak, start, previous, depth', rfl⟩ := hat.exists_token hws.lexes_end
  unfold Program.read
  rw [hcs]
  dsimp only
  rw [hdepth, show (none : Option String).isNone = true from rfl, hs]
  have hnone : (Parser.stateAt (Parser.plainToken .eof afterBreak start) [] previous
        depth').allFaults ++ Parser.coverFaults 0 ++
      (if Dialect.plain.hasTypes then [] else Parser.exportFaults (Parser.markDirectives ss)) =
        [] := by
    rw [hfaults]
    rfl
  exact if_pos (List.isEmpty_iff.2 hnone)

end ModuleLoader.Syntax
