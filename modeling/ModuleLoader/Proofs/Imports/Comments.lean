import Mathlib.Data.List.TakeWhile
import ModuleLoader.Imports.TextScan

/-! # Taking out comments

The scan that knows no grammar takes comments out by two patterns, one behind the other. What they
do to a text whose comments are known is said here, for texts in which the patterns meet nothing
that only looks like a comment.

* **`Piece`** is a character outside of comments, or a comment; a text is a list of them.
* **`Unblocks`** says what the first pattern leaves of a text, if it takes out no part of a comment
  without the rest.
* **`LinesTidy`** are texts of which the second pattern takes out just the comments.
* **`withoutComments_textOf`** says what is left. -/

namespace ModuleLoader.TextScan

/-! ## Texts with their comments -/

/-- A piece of a text. The text of a comment is what follows its first two characters. -/
inductive Piece
  /-- A character outside of comments. -/
  | code (c : Char)
  /-- A comment that ends with its line. -/
  | line (text : List Char)
  /-- A comment with an end of its own, which is in its text. -/
  | block (text : List Char)
deriving DecidableEq, Repr

/-- The characters of a piece. -/
def Piece.chars : Piece → List Char
  | .code c => [c]
  | .line text => '/' :: '/' :: text
  | .block text => '/' :: '*' :: text

/-- The text that is made of pieces. -/
def textOf (r : List Piece) : List Char := r.flatMap Piece.chars

/-- Characters outside of comments as pieces. -/
def codeOf (cs : List Char) : List Piece := cs.map .code

@[simp] theorem textOf_nil : textOf [] = [] := rfl

@[simp] theorem textOf_cons (p : Piece) (r : List Piece) :
    textOf (p :: r) = p.chars ++ textOf r := List.flatMap_cons

@[simp] theorem textOf_append (r r' : List Piece) : textOf (r ++ r') = textOf r ++ textOf r' :=
  List.flatMap_append

@[simp] theorem codeOf_append (x y : List Char) : codeOf (x ++ y) = codeOf x ++ codeOf y :=
  List.map_append

@[simp] theorem textOf_codeOf (cs : List Char) : textOf (codeOf cs) = cs := by
  induction cs with
  | nil => rfl
  | cons c cs ih => rw [codeOf, List.map_cons, textOf_cons, ← codeOf, ih]; rfl

/-- The character that stands first, if that is outside of comments. -/
def nextCode : List Piece → Option Char
  | .code c :: _ => some c
  | _ => none

/-- A line ends here. -/
def endsLine : List Piece → Bool
  | [] => true
  | .code c :: _ => Text.isLineTerminator c
  | _ => false

/-- The comments in a text are as the language delimits them: one that ends with its line reaches up
to the end of it, and any other up to the first asterisk before a slash. -/
def Delimited : List Piece → Prop
  | [] => True
  | .code _ :: r => Delimited r
  | .line text :: r =>
    (∀ c ∈ text, Text.isLineTerminator c = false) ∧ endsLine r = true ∧ Delimited r
  | .block text :: r => behindBlock text = some [] ∧ Delimited r

instance decidableDelimited : (r : List Piece) → Decidable (Delimited r)
  | [] => isTrue trivial
  | .code _ :: r => decidableDelimited r
  | .line _ :: r =>
    @instDecidableAnd _ _ (List.decidableBAll _ _) (@instDecidableAnd _ _ _ (decidableDelimited r))
  | .block _ :: r => @instDecidableAnd _ _ _ (decidableDelimited r)

@[simp] theorem delimited_codeOf_append (cs : List Char) (r : List Piece) :
    Delimited (codeOf cs ++ r) ↔ Delimited r := by
  induction cs with
  | nil => exact Iff.rfl
  | cons c cs ih => exact ih

/-! ## The first pattern -/

/-- The text starts a block comment. -/
def opensBlock : List Char → Bool
  | c :: d :: _ => c == '/' && d == '*'
  | _ => false

/-- A character that starts no block comment stays. -/
theorem withoutBlocks_cons {c : Char} {cs : List Char} (h : opensBlock (c :: cs) = false) :
    withoutBlocks (c :: cs) = c :: withoutBlocks cs := by
  rw [withoutBlocks.eq_def]
  cases cs with
  | nil => rw [withoutBlocks.eq_def]
  | cons d cs =>
    have hne : (c == '/' && d == '*') = false := h
    simp only [hne, Bool.false_eq_true, if_false]

/-- A text in which no block comment starts stays. -/
theorem withoutBlocks_eq_self {cs : List Char}
    (h : ∀ n < cs.length, opensBlock (cs.drop n) = false) : withoutBlocks cs = cs := by
  induction cs with
  | nil => exact withoutBlocks.eq_def []
  | cons c cs ih =>
    rw [withoutBlocks_cons (h 0 (Nat.zero_lt_succ _)),
      ih fun n hn => h (n + 1) (Nat.succ_lt_succ hn)]

/-- A block comment that ends is a blank. -/
theorem withoutBlocks_block {cs after : List Char} (h : behindBlock cs = some after) :
    withoutBlocks ('/' :: '*' :: cs) = ' ' :: withoutBlocks after := by
  rw [withoutBlocks.eq_def]
  simp only [beq_self_eq_true, Bool.and_self, if_true]
  split
  · next after' heq => rw [Option.some.inj (heq.symm.trans h)]
  · next heq => cases heq.symm.trans h

/-- The end of a block comment is found before what follows it. -/
theorem behindBlock_append {cs after : List Char} (h : behindBlock cs = some after)
    (rest : List Char) : behindBlock (cs ++ rest) = some (after ++ rest) := by
  fun_induction behindBlock cs with
  | case1 after' =>
    cases h
    rfl
  | case2 c cs hne ih =>
    rw [List.cons_append, behindBlock]
    · exact ih h
    · intro after' hc heq
      cases cs with
      | nil => cases h
      | cons d cs =>
        rw [List.cons_append, List.cons.injEq] at heq
        exact hne cs hc (by rw [heq.1])
  | case3 => cases h

/-- Every block comment that a text starts ends in it. -/
inductive ClosesBlocks : List Char → Prop
  | nil : ClosesBlocks []
  | char {c : Char} {cs : List Char} (h : opensBlock (c :: cs) = false) (hcs : ClosesBlocks cs) :
    ClosesBlocks (c :: cs)
  | block {cs after : List Char} (h : behindBlock cs = some after) (hafter : ClosesBlocks after) :
    ClosesBlocks ('/' :: '*' :: cs)

/-- A text in which no block comment starts is such a text. -/
theorem ClosesBlocks.of_opensBlock {cs : List Char}
    (h : ∀ n < cs.length, opensBlock (cs.drop n) = false) : ClosesBlocks cs := by
  induction cs with
  | nil => exact .nil
  | cons c cs ih =>
    exact .char (h 0 (Nat.zero_lt_succ _)) (ih fun n hn => h (n + 1) (Nat.succ_lt_succ hn))

/-- Where block comments end in a text, what follows it is not touched. -/
theorem ClosesBlocks.withoutBlocks_append {cs rest : List Char} (h : ClosesBlocks cs)
    (hrest : rest.head? ≠ some '*') :
    withoutBlocks (cs ++ rest) = withoutBlocks cs ++ withoutBlocks rest := by
  induction h with
  | nil => rw [List.nil_append, withoutBlocks.eq_def []]; rfl
  | @char c cs hopens _ ih =>
    have hopens' : opensBlock (c :: (cs ++ rest)) = false := by
      cases cs with
      | cons d cs => exact hopens
      | nil =>
        cases rest with
        | nil => rfl
        | cons d rest =>
          have hd : (d == '*') = false := beq_false_of_ne fun h => hrest (congrArg some h)
          rw [List.nil_append, opensBlock, hd, Bool.and_false]
    rw [List.cons_append, withoutBlocks_cons hopens', withoutBlocks_cons hopens, ih,
      List.cons_append]
  | @block cs after hend _ ih =>
    rw [List.cons_append, List.cons_append, withoutBlocks_block (behindBlock_append hend rest), ih,
      withoutBlocks_block hend, List.cons_append]

/-- The first pattern takes a text to another. A block comment may also be in a comment that ends
with its line, or outside of comments where a string or something like it looks like one; then it
has to end there. -/
inductive Unblocks : List Piece → List Piece → Prop
  | nil : Unblocks [] []
  | code {c : Char} {r u : List Piece} (h : ¬ (c = '/' ∧ nextCode r = some '*'))
    (hr : Unblocks r u) : Unblocks (.code c :: r) (.code c :: u)
  | hidden {cs : List Char} {r u : List Piece} (h : behindBlock cs = some []) (hr : Unblocks r u) :
    Unblocks (codeOf ('/' :: '*' :: cs) ++ r) (.code ' ' :: u)
  | block {text : List Char} {r u : List Piece} (hr : Unblocks r u) :
    Unblocks (.block text :: r) (.code ' ' :: u)
  | line {text : List Char} {r u : List Piece} (hstart : text.head? ≠ some '*')
    (h : ClosesBlocks text) (hr : Unblocks r u) :
    Unblocks (.line text :: r) (.line (withoutBlocks text) :: u)

/-- A text starts with an asterisk only if that is outside of comments. -/
theorem opensBlock_textOf {c : Char} {r : List Piece} (h : ¬ (c = '/' ∧ nextCode r = some '*')) :
    opensBlock (c :: textOf r) = false := by
  cases r with
  | nil => rfl
  | cons p r =>
    cases p with
    | code d =>
      rw [textOf_cons, Piece.chars, List.singleton_append, opensBlock, Bool.and_eq_false_imp]
      exact fun hc => beq_false_of_ne fun hd => h ⟨beq_iff_eq.1 hc, congrArg some hd⟩
    | line text => exact Bool.and_false _
    | block text => exact Bool.and_false _

/-- No asterisk follows a comment that ends with its line. -/
theorem head?_textOf_of_endsLine {r : List Piece} (h : endsLine r = true) :
    (textOf r).head? ≠ some '*' := by
  cases r with
  | nil => exact nofun
  | cons p r =>
    cases p with
    | code c =>
      intro hc
      obtain rfl : c = '*' := Option.some.inj hc
      exact nomatch h
    | line text => exact nomatch h
    | block text => exact nomatch h

/-- What the first pattern leaves. -/
theorem withoutBlocks_textOf {r u : List Piece} (hr : Delimited r) (h : Unblocks r u) :
    withoutBlocks (textOf r) = textOf u := by
  induction h with
  | nil => exact withoutBlocks.eq_def []
  | @code c r u hne _ ih =>
    rw [textOf_cons, textOf_cons, Piece.chars, List.singleton_append, List.singleton_append,
      withoutBlocks_cons (opensBlock_textOf hne), ih hr]
  | @hidden cs r u hend _ ih =>
    rw [textOf_append, textOf_codeOf, List.cons_append, List.cons_append,
      withoutBlocks_block (behindBlock_append hend (textOf r)), List.nil_append,
      ih ((delimited_codeOf_append _ _).1 hr)]
    rfl
  | @block text r u _ ih =>
    rw [textOf_cons, Piece.chars, List.cons_append, List.cons_append,
      withoutBlocks_block (behindBlock_append hr.1 (textOf r)), List.nil_append, ih hr.2]
    rfl
  | @line text r u hstart hcloses _ ih =>
    have hbehind := head?_textOf_of_endsLine hr.2.1
    -- neither slash of a line comment opens a block
    have hopens : opensBlock ('/' :: (text ++ textOf r)) = false := by
      cases text with
      | nil =>
        cases hrest : textOf r with
        | nil => rfl
        | cons c cs => exact beq_false_of_ne fun hc => hbehind (hrest ▸ hc ▸ rfl)
      | cons c cs => exact beq_false_of_ne fun hc => hstart (congrArg some hc)
    rw [textOf_cons, textOf_cons, Piece.chars, Piece.chars, List.cons_append, List.cons_append,
      withoutBlocks_cons rfl, withoutBlocks_cons hopens, hcloses.withoutBlocks_append hbehind,
      ih hr.2.2]
    rfl

/-- The first pattern is at two texts one behind the other each for itself, unless a slash before an
asterisk is between them. -/
theorem Unblocks.append {r' u' : List Piece} (h : Unblocks r u) (h' : Unblocks r' u')
    (hnext : nextCode r' ≠ some '*') : Unblocks (r ++ r') (u ++ u') := by
  induction h with
  | nil => exact h'
  | @code c r u hslash _ ih =>
    refine .code ?_ ih
    rintro ⟨hc, hstar⟩
    cases r with
    | nil => exact hnext hstar
    | cons p r => cases p <;> exact hslash ⟨hc, hstar⟩
  | @hidden cs r u hend _ ih =>
    rw [List.append_assoc]
    exact .hidden hend ih
  | block _ ih => exact .block ih
  | line hstart hcloses _ ih => exact .line hstart hcloses ih

/-- The first pattern is at no characters without slashes. -/
theorem Unblocks.codes {cs : List Char} (hcs : '/' ∉ cs) (h : Unblocks r u) :
    Unblocks (codeOf cs ++ r) (codeOf cs ++ u) := by
  induction cs with
  | nil => exact h
  | cons c cs ih =>
    refine .code ?_ (ih fun hmem => hcs (List.mem_cons_of_mem c hmem))
    rintro ⟨rfl, -⟩
    exact hcs List.mem_cons_self

/-- A piece that a comment becomes when the first pattern has been at it. -/
def IsRest (p q : Piece) : Prop :=
  (∃ text, p = .block text) ∧ q = .code ' ' ∨ (∃ text, p = .line text) ∧ ∃ text, q = .line text

/-- A comment behind characters outside of comments is in what follows them. -/
theorem exists_of_codeOf_append {p : Piece} {before after r : List Piece} {cs : List Char}
    (hp : ∀ c, p ≠ .code c)
    (h : before ++ p :: after = codeOf cs ++ r) :
    ∃ m, before = codeOf cs ++ m ∧ r = m ++ p :: after := by
  induction cs generalizing before with
  | nil => exact ⟨before, rfl, h.symm⟩
  | cons c cs ih =>
    cases before with
    | nil => exact absurd (List.cons.inj h).1 (hp c)
    | cons d before =>
      obtain ⟨rfl, hbehind⟩ := List.cons.inj h
      obtain ⟨m, rfl, hr⟩ := ih hbehind
      exact ⟨m, rfl, hr⟩

/-- The first pattern is at a comment and at what is before and behind it each for itself. -/
theorem Unblocks.split {p : Piece} {before after u : List Piece} (hp : ∀ c, p ≠ .code c)
    (h : Unblocks (before ++ p :: after) u) :
    ∃ u₁ q u₂, u = u₁ ++ q :: u₂ ∧ IsRest p q ∧ Unblocks before u₁ ∧ Unblocks after u₂ := by
  generalize hr : before ++ p :: after = r at h
  induction h generalizing before with
  | nil => exact absurd hr (by simp)
  | @code c r u hslash _ ih =>
    cases before with
    | nil => exact absurd (List.cons.inj hr).1 (hp c)
    | cons d before =>
      obtain ⟨rfl, rfl⟩ := List.cons.inj hr
      obtain ⟨u₁, q, u₂, rfl, hq, h₁, h₂⟩ := ih rfl
      refine ⟨.code c :: u₁, q, u₂, rfl, hq, .code ?_ h₁, h₂⟩
      rintro ⟨hc, hnext⟩
      cases before with
      | nil => exact nomatch hnext
      | cons e before => cases e <;> exact hslash ⟨hc, hnext⟩
  | @hidden cs r u hend _ ih =>
    obtain ⟨m, rfl, hm⟩ := exists_of_codeOf_append hp hr
    obtain ⟨u₁, q, u₂, rfl, hq, h₁, h₂⟩ := ih hm.symm
    exact ⟨.code ' ' :: u₁, q, u₂, rfl, hq, .hidden hend h₁, h₂⟩
  | @block text r u _ ih =>
    cases before with
    | nil =>
      obtain ⟨rfl, rfl⟩ := List.cons.inj hr
      exact ⟨[], _, u, rfl, .inl ⟨⟨text, rfl⟩, rfl⟩, .nil, ‹_›⟩
    | cons d before =>
      obtain ⟨rfl, rfl⟩ := List.cons.inj hr
      obtain ⟨u₁, q, u₂, rfl, hq, h₁, h₂⟩ := ih rfl
      exact ⟨.code ' ' :: u₁, q, u₂, rfl, hq, .block h₁, h₂⟩
  | @line text r u hstart hcloses _ ih =>
    cases before with
    | nil =>
      obtain ⟨rfl, rfl⟩ := List.cons.inj hr
      exact ⟨[], _, u, rfl, .inr ⟨⟨text, rfl⟩, _, rfl⟩, .nil, ‹_›⟩
    | cons d before =>
      obtain ⟨rfl, rfl⟩ := List.cons.inj hr
      obtain ⟨u₁, q, u₂, rfl, hq, h₁, h₂⟩ := ih rfl
      exact ⟨.line _ :: u₁, q, u₂, rfl, hq, .line hstart hcloses h₁, h₂⟩

/-! ## The second pattern -/

/-- A line ends here by a newline, or the text ends. -/
def endsByNewline : List Piece → Bool
  | [] => true
  | .code c :: r => c == '\n' || c == '\r' && nextCode r == some '\n'
  | _ => false

/-- A text without block comments of which the second pattern takes out just the comments, if it
stands behind the given character: two slashes outside of comments are behind a colon or a
backslash, no line comment is behind one of these or a slash, and each is on one line that ends by a
newline or with the text. -/
def LinesTidy (last : Option Char) : List Piece → Prop
  | [] => True
  | .code c :: r =>
    (c = '/' → nextCode r = some '/' → last = some ':' ∨ last = some '\\') ∧ LinesTidy (some c) r
  | .line text :: r =>
    (last ≠ some ':' ∧ last ≠ some '\\' ∧ last ≠ some '/') ∧ '\n' ∉ text ∧
      endsByNewline r = true ∧ LinesTidy none r
  | .block _ :: _ => False

/-- No newline is first where no line ends. -/
theorem nextCode_ne_newline {r : List Piece} (h : endsByNewline r = false) :
    nextCode r ≠ some '\n' := by
  cases r with
  | nil => exact nofun
  | cons p r =>
    cases p with
    | code c =>
      intro hc
      obtain rfl : c = '\n' := Option.some.inj hc
      exact nomatch h
    | line text => exact nofun
    | block text => exact nofun

instance decidableLinesTidy : (last : Option Char) → (u : List Piece) → Decidable (LinesTidy last u)
  | _, [] => isTrue trivial
  | _, .code c :: r => @instDecidableAnd _ _ _ (decidableLinesTidy (some c) r)
  | _, .line _ :: r =>
    @instDecidableAnd _ _ _ (@instDecidableAnd _ _ _ (@instDecidableAnd _ _ _
      (decidableLinesTidy none r)))
  | _, .block _ :: _ => isFalse id

/-- What the second pattern leaves of such a text. A carriage return behind a comment goes with
it. -/
def stripped : List Piece → List Char
  | [] => []
  | .code c :: r => c :: stripped r
  | .line _ :: r => restOfLine (stripped r)
  | .block text :: r => '/' :: '*' :: text ++ stripped r

/-- Nothing up to the end of the line is left. -/
theorem restOfLine_append {cs : List Char} (h : '\n' ∉ cs) (rest : List Char) :
    restOfLine (cs ++ rest) = restOfLine rest := by
  induction cs with
  | nil => rfl
  | cons c cs ih =>
    have hc : (c != '\n') = true := bne_iff_ne.2 fun hc => h (hc ▸ List.mem_cons_self)
    rw [restOfLine, List.cons_append, List.dropWhile_cons, if_pos hc, ← restOfLine,
      ih fun hmem => h (List.mem_cons_of_mem c hmem)]

/-- A text starts a line comment by two slashes. -/
theorem startsLineComment_iff {cs : List Char} :
    startsLineComment cs = true ↔ ∃ rest, cs = '/' :: '/' :: rest := by
  unfold startsLineComment
  split
  · next rest => exact ⟨fun _ => ⟨rest, rfl⟩, fun _ => rfl⟩
  · next hne => exact ⟨nofun, fun ⟨rest, hcs⟩ => absurd hcs (hne rest)⟩

/-! ## Texts one behind the other -/

/-- A line that ends before a text that starts with no end of a line ends there whatever follows. -/
theorem endsByNewline_append {r r' : List Piece} (hr' : endsByNewline r' = false)
    (h : endsByNewline (r ++ r') = true) (y : List Piece) :
    endsByNewline (r ++ y) = true ∧ '\n' ∈ stripped r := by
  cases r with
  | nil => exact nomatch hr'.symm.trans h
  | cons p r =>
    cases p with
    | line text => exact nomatch h
    | block text => exact nomatch h
    | code c =>
      simp only [List.cons_append, endsByNewline, Bool.or_eq_true, Bool.and_eq_true, beq_iff_eq]
        at h ⊢
      obtain rfl | ⟨rfl, hnext⟩ := h
      · exact ⟨.inl rfl, List.mem_cons_self⟩
      · cases r with
        | nil => exact absurd hnext (nextCode_ne_newline hr')
        | cons p r =>
          cases p with
          | code c =>
            obtain rfl : c = '\n' := Option.some.inj hnext
            exact ⟨.inr ⟨rfl, rfl⟩, List.mem_cons_of_mem _ List.mem_cons_self⟩
          | line text => exact nomatch hnext
          | block text => exact nomatch hnext

/-- The rest of a line that ends in a text is in it. -/
theorem restOfLine_append_of_mem {x : List Char} (h : '\n' ∈ x) (y : List Char) :
    restOfLine (x ++ y) = restOfLine x ++ y := by
  have hnonempty : ¬ (x.dropWhile (· != '\n')).isEmpty = true := by
    rw [List.isEmpty_iff, List.dropWhile_eq_nil_iff]
    intro hall
    exact absurd (hall _ h) (by decide)
  rw [restOfLine, List.dropWhile_append, if_neg hnonempty, restOfLine]

/-- What the second pattern leaves before a text that starts with no end of a line does not depend
on what follows. -/
theorem stripped_append {last : Option Char} {r r' : List Piece} (hr' : endsByNewline r' = false)
    (h : LinesTidy last (r ++ r')) (y : List Piece) :
    stripped (r ++ y) = stripped r ++ stripped y := by
  induction r generalizing last with
  | nil => rfl
  | cons p r ih =>
    cases p with
    | code c => exact congrArg (c :: ·) (ih h.2)
    | block text => exact h.elim
    | line text =>
      obtain ⟨-, -, hends, hr⟩ := h
      exact (congrArg restOfLine (ih hr)).trans
        (restOfLine_append_of_mem (endsByNewline_append hr' hends y).2 _)

/-- What comes for a text that starts with no end of a line is no more for the second pattern, if it
is tidy behind anything and does not start with a slash. -/
theorem LinesTidy.replace {last : Option Char} {r r' r'' : List Piece}
    (hr' : endsByNewline r' = false) (h : LinesTidy last (r ++ r'))
    (hr'' : ∀ last, LinesTidy last r'') (hnext : nextCode r'' ≠ some '/') :
    LinesTidy last (r ++ r'') := by
  induction r generalizing last with
  | nil => exact hr'' last
  | cons p r ih =>
    cases p with
    | code c =>
      refine ⟨fun hc hslash => h.1 hc ?_, ih h.2⟩
      cases r with
      | nil => exact absurd hslash hnext
      | cons p r => cases p <;> exact hslash
    | block text => exact h.elim
    | line text =>
      obtain ⟨hlast, htext, hends, hr⟩ := h
      exact ⟨hlast, htext, (endsByNewline_append hr' hends _).1, ih hr⟩

/-- What is behind a tidy text is tidy. -/
theorem LinesTidy.right {last : Option Char} {r r' : List Piece} (h : LinesTidy last (r ++ r')) :
    ∃ last', LinesTidy last' r' := by
  induction r generalizing last with
  | nil => exact ⟨last, h⟩
  | cons p r ih =>
    cases p with
    | code c => exact ih h.2
    | block text => exact h.elim
    | line text => exact ih h.2.2.2

/-! ## What is left -/

/-- A text starts with two slashes only as its pieces do. -/
theorem startsLineComment_textOf {last : Option Char} {r : List Piece} (hr : LinesTidy last r)
    (h : startsLineComment (textOf r) = true) :
    (∃ text r', r = .line text :: r') ∨ (∃ r', r = .code '/' :: .code '/' :: r') ∨
      ∃ text r', r = .code '/' :: .line text :: r' := by
  obtain ⟨rest, hrest⟩ := startsLineComment_iff.1 h
  match r with
  | [] => exact nomatch hrest
  | .line text :: r' => exact .inl ⟨text, r', rfl⟩
  | .block text :: r' => exact hr.elim
  | [.code c] => exact nomatch (List.cons.inj hrest).2
  | .code c :: .code d :: r' =>
    obtain ⟨hc, hrest⟩ := List.cons.inj hrest
    exact .inr (.inl ⟨r', by rw [hc, (List.cons.inj hrest).1]⟩)
  | .code c :: .line text :: r' =>
    exact .inr (.inr ⟨text, r', by rw [(List.cons.inj hrest).1]⟩)
  | .code c :: .block text :: r' => exact hr.2.elim

/-- The second pattern finds no comment at a character of the code where a line starts. -/
theorem not_startsLineComment_code {c : Char} {last : Option Char} {r : List Piece}
    (hu : LinesTidy last (.code c :: r)) (hlast : last = none ∨ last = some '\n') :
    ¬ startsLineComment (textOf (.code c :: r)) = true := by
  intro h
  have ⟨hslashes, hr⟩ := hu
  obtain ⟨text, r', h⟩ | ⟨r', h⟩ | ⟨text, r', h⟩ := startsLineComment_textOf hu h
  · exact nomatch h
  · obtain ⟨hc, rfl⟩ := List.cons.inj h
    obtain rfl := Piece.code.inj hc
    obtain hbefore | hbefore := hslashes rfl rfl <;> obtain hlast | hlast := hlast <;>
      exact absurd (hbefore.symm.trans hlast) (by decide)
  · obtain ⟨hc, rfl⟩ := List.cons.inj h
    exact hr.1.2.2 (congrArg some (Piece.code.inj hc))

/-- The second pattern finds no comment behind a character of the code where none stands. -/
theorem not_startsLineComment_behind {c : Char} {r : List Piece} (hr : LinesTidy (some c) r)
    (hcomment : ¬ ∃ text r', r = .line text :: r') :
    ¬ (c != ':' && c != '\\' && startsLineComment (textOf r)) = true := by
  intro h
  simp only [Bool.and_eq_true, bne_iff_ne] at h
  obtain ⟨⟨hcolon, hbackslash⟩, hstarts⟩ := h
  obtain ⟨text, r', h⟩ | ⟨r', rfl⟩ | ⟨text, r', rfl⟩ := startsLineComment_textOf hr hstarts
  · exact hcomment ⟨text, r', h⟩
  · obtain hlast | hlast := hr.1 rfl rfl
    · exact hcolon (Option.some.inj hlast)
    · exact hbackslash (Option.some.inj hlast)
  · exact hr.2.1.2.2 rfl

/-- What is left behind a comment that the second pattern takes out, if it leaves what it should of
the pieces behind it. -/
theorem withoutLinesFrom_restOfLine {fuel : Nat}
    (ih : ∀ {last : Option Char} {u : List Piece}, LinesTidy last u →
      (∀ text u', u ≠ .line text :: u') → (textOf u).length < fuel →
      withoutLinesFrom fuel false (textOf u) = stripped u)
    {last : Option Char} {text : List Char} {r : List Piece}
    (hr : LinesTidy last (.line text :: r)) (hfuel : (textOf r).length < fuel) :
    withoutLinesFrom fuel false (restOfLine (textOf (.line text :: r))) =
      restOfLine (stripped r) := by
  obtain ⟨-, htext, hends, hr⟩ := hr
  have htext : '\n' ∉ '/' :: '/' :: text := by simp [htext]
  rw [textOf_cons, Piece.chars, restOfLine_append htext]
  match r with
  | [] =>
    cases fuel with
    | zero => exact absurd hfuel (Nat.not_lt_zero _)
    | succ fuel => rfl
  | .code c :: r =>
    rw [endsByNewline, Bool.or_eq_true, Bool.and_eq_true, beq_iff_eq, beq_iff_eq,
      beq_iff_eq] at hends
    obtain rfl | ⟨rfl, hnext⟩ := hends
    · exact ih hr nofun hfuel
    · -- the carriage return goes with the comment
      cases r with
      | nil => exact nomatch hnext
      | cons p r =>
        cases p with
        | code c =>
          obtain rfl := Option.some.inj hnext
          exact ih hr.2 nofun (Nat.lt_of_succ_lt hfuel)
        | line text => exact nomatch hnext
        | block text => exact nomatch hnext
  | .line text :: r => exact nomatch hends
  | .block text :: r => exact nomatch hends

/-- What comes behind a comment is shorter than the text that starts with it. -/
theorem length_textOf_behind {text : List Char} {r : List Piece} {n : Nat}
    (h : (textOf (.line text :: r)).length ≤ n) : (textOf r).length < n := by
  rw [textOf_cons, Piece.chars, List.cons_append, List.length_cons, List.length_append] at h
  omega

/-- What the second pattern leaves of such a text, from any of its pieces on. The flag says truly
that a line starts, and if it does not say so, no comment comes next. -/
theorem withoutLinesFrom_textOf {fuel : Nat} {lineStart : Bool} {last : Option Char}
    {u : List Piece} (hu : LinesTidy last u)
    (hstart : lineStart = true → last = none ∨ last = some '\n')
    (hline : ∀ text u', u = .line text :: u' → lineStart = true)
    (hfuel : (textOf u).length < fuel) :
    withoutLinesFrom fuel lineStart (textOf u) = stripped u := by
  induction fuel generalizing lineStart last u with
  | zero => exact absurd hfuel (Nat.not_lt_zero _)
  | succ fuel ih =>
    have hbehind {last : Option Char} {text : List Char} {r : List Piece}
        (hr : LinesTidy last (.line text :: r)) (hfuel : (textOf r).length < fuel) :=
      withoutLinesFrom_restOfLine
        (fun hu hline => ih hu nofun fun text u' h => absurd h (hline text u')) hr hfuel
    match u with
    | [] => rfl
    | .block text :: r => exact hu.elim
    | .line text :: r =>
      have hstarts : (lineStart && startsLineComment (textOf (.line text :: r))) = true := by
        rw [hline text r rfl]
        rfl
      exact (if_pos hstarts).trans
        (hbehind hu (length_textOf_behind (Nat.le_of_lt_succ hfuel)))
    | .code c :: r =>
      have hr := hu.2
      have hfuel' : (textOf r).length < fuel := Nat.lt_of_succ_lt_succ hfuel
      have hhere : ¬ (lineStart && startsLineComment (textOf (.code c :: r))) = true := fun h =>
        have ⟨hflag, hstarts⟩ := Bool.and_eq_true_iff.1 h
        not_startsLineComment_code hu (hstart hflag) hstarts
      by_cases hcomment : ∃ text r', r = .line text :: r'
      · -- the comment behind this character goes
        obtain ⟨text, r', rfl⟩ := hcomment
        have hnext : (c != ':' && c != '\\' && startsLineComment (textOf (.line text :: r'))) =
            true := by
          rw [bne_iff_ne.2 fun h => hr.1.1 (congrArg some h),
            bne_iff_ne.2 fun h => hr.1.2.1 (congrArg some h)]
          rfl
        exact (if_neg hhere).trans ((if_pos hnext).trans
          (congrArg (c :: ·) (hbehind hr (length_textOf_behind hfuel'.le))))
      · have hstart' : (c == '\n') = true → some c = none ∨ some c = some '\n' :=
          fun h => .inr (congrArg some (beq_iff_eq.1 h))
        exact (if_neg hhere).trans ((if_neg (not_startsLineComment_behind hr hcomment)).trans
          (congrArg (c :: ·)
            (ih hr hstart' (fun text r' h => absurd ⟨text, r', h⟩ hcomment) hfuel')))

/-- What the second pattern leaves of such a text. -/
theorem withoutLines_textOf {u : List Piece} (hu : LinesTidy none u) :
    withoutLines (textOf u) = stripped u :=
  withoutLinesFrom_textOf hu (fun _ => .inl rfl) (fun _ _ _ => rfl) (Nat.lt_succ_self _)

/-- What is left of a text without its comments. -/
theorem withoutComments_textOf {r u : List Piece} (hr : Delimited r) (h : Unblocks r u)
    (hu : LinesTidy none u) : withoutComments (textOf r) = stripped u := by
  rw [withoutComments, withoutBlocks_textOf hr h, withoutLines_textOf hu]

end ModuleLoader.TextScan
