import ModuleLoader.Text.Character
import ModuleLoader.Syntax.Token

/-! # Between tokens

Blanks, line breaks and comments. A comment belongs to the token behind it unless it trails: a
line comment on the line of the token before it, or block comments that a line break follows and
none precedes.

* **`Trivia`** is what lies before a token.
* **`readTrivia`** reads it. -/

namespace ModuleLoader.Syntax.Lexer

/-- What lies before a token. -/
structure Trivia where
  /-- A line break is in it. -/
  hasBreak : Bool
  /-- The comments that belong to the token behind. -/
  leading : List Comment
  /-- All comments. -/
  comments : List Comment
  /-- The faults in it. -/
  faults : List String
  /-- The text behind it. -/
  rest : List Char
deriving Inhabited

/-! ## Comments -/

/-- Splits the text of a block comment from what follows its end; `none` without an end. -/
def splitBlock : List Char → Option (List Char × List Char)
  | '*' :: '/' :: rest => some (['*', '/'], rest)
  | c :: rest => (splitBlock rest).map fun p => (c :: p.1, p.2)
  | [] => none

/-- Splitting off a block comment leaves fewer characters. -/
theorem length_splitBlock_lt {cs text rest : List Char} (h : splitBlock cs = some (text, rest)) :
    rest.length < cs.length := by
  induction cs generalizing text rest with
  | nil => simp [splitBlock] at h
  | cons c cs ih =>
    unfold splitBlock at h
    split at h
    · rename_i heq
      simp only [Option.some.injEq, Prod.mk.injEq] at h
      rw [heq, ← h.2]
      simp only [List.length_cons]
      omega
    · rename_i heq
      simp only [List.cons.injEq] at heq
      obtain ⟨rfl, rfl⟩ := heq
      obtain ⟨⟨t, r⟩, hp, hq⟩ := Option.map_eq_some_iff.1 h
      have := ih hp
      simp only [Prod.mk.injEq] at hq
      rw [← hq.2]
      simp only [List.length_cons]
      omega
    · simp at h

/-- The text of a comment without its delimiters and leading blanks. -/
def contentOf (c : Comment) : List Char :=
  let inner := c.text.toList.drop 2
  inner.dropWhile fun x => x == ' ' || x == '\t' || x == '\n' || x == '\r'

/-- The comment says that the call behind it has no effect. -/
def saysPure (c : Comment) : Bool :=
  match contentOf c with
  | '@' :: rest | '#' :: rest => "__PURE__".toList.isPrefixOf rest
  | _ => false

/-- The comment says that the function behind it has no effect when called. -/
def saysNoSideEffects (c : Comment) : Bool :=
  match contentOf c with
  | '@' :: rest | '#' :: rest => "__NO_SIDE_EFFECTS__".toList.isPrefixOf rest
  | _ => false

/-! ## Reading -/

/-- How far the reading between two tokens has come. -/
structure TriviaState where
  /-- A line break lies behind the token before, or there is no such token. -/
  sawBreak : Bool
  /-- A line break lies before the token to come. -/
  hasBreak : Bool
  /-- Comments that may still belong to the token behind, last one first. -/
  pending : List Comment
  /-- All comments, last one first. -/
  comments : List Comment
deriving Inhabited

/-- A line break follows the last pending comment; without a break before, all of them trail. -/
def TriviaState.newline (s : TriviaState) : TriviaState :=
  let pending := match s.pending with
    | [] => []
    | c :: rest => if s.sawBreak then { c with beforeBreak := true } :: rest else []
  { s with sawBreak := true, hasBreak := true, pending }

/-- Adds a line comment. It trails on the line of the token before, unless that token is `opening`:
an equals sign or a parenthesis. -/
def TriviaState.line (s : TriviaState) (isOpening : Bool) (text : String) : TriviaState :=
  let c : Comment := ⟨text, true, s.sawBreak, true⟩
  let pending := if !s.sawBreak && !isOpening then [] else c :: s.pending
  { s with sawBreak := true, pending, comments := c :: s.comments }

/-- Adds a block comment; one with a line break in it counts as a line break before the token. -/
def TriviaState.block (s : TriviaState) (text : List Char) : TriviaState :=
  let c : Comment := ⟨String.ofList text, false, s.sawBreak, false⟩
  { s with
    hasBreak := s.hasBreak || text.any Text.isLineTerminator
    pending := c :: s.pending
    comments := c :: s.comments }

/-- The end of what lies before a token. -/
def TriviaState.finish (s : TriviaState) (faults : List String) (rest : List Char) : Trivia :=
  ⟨s.hasBreak, s.pending.reverse, s.comments.reverse, faults, rest⟩

/-- Reads on between two tokens; the number bounds the steps. -/
def readTriviaFrom (isOpening : Bool) : Nat → TriviaState → List Char → Trivia
  | 0, s, cs => s.finish [] cs
  | _ + 1, s, [] => s.finish [] []
  | fuel + 1, s, '/' :: '/' :: rest =>
    let text := rest.takeWhile fun c => !Text.isLineTerminator c
    let s := s.line isOpening (String.ofList ('/' :: '/' :: text))
    readTriviaFrom isOpening fuel s (rest.dropWhile fun c => !Text.isLineTerminator c)
  | fuel + 1, s, '/' :: '*' :: rest =>
    match splitBlock rest with
    | some (text, rest) => readTriviaFrom isOpening fuel (s.block ('/' :: '*' :: text)) rest
    | none => s.finish ["Unterminated multiline comment"] []
  | fuel + 1, s, c :: rest =>
    if Text.isLineTerminator c then readTriviaFrom isOpening fuel s.newline rest
    else if Text.isBlank c then readTriviaFrom isOpening fuel s rest
    else s.finish [] (c :: rest)

/-- Reads what lies between a token and the next. -/
def readTrivia (isFirst isOpening : Bool) (cs : List Char) : Trivia :=
  readTriviaFrom isOpening (cs.length + 1) ⟨isFirst, false, [], []⟩ cs

end ModuleLoader.Syntax.Lexer
