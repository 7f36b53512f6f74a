import ModuleLoader.Imports.Scan
import ModuleLoader.Proofs.Imports.Comments
import ModuleLoader.Proofs.Imports.Exchange

/-! # Comments are not read

The scan that knows no grammar finds the same in a text when each comment in it is replaced by
blanks with the same line breaks, if the two patterns that take out comments meet nothing that only
looks like one.

* **`Blanked`** is a text with blanks for its comments.
* **`Tidy`** says what the patterns must not meet.
* **`scanText_blanked`** says that the scan finds the same. -/

namespace ModuleLoader.TextScan

/-! ## Texts with blanks for comments -/

/-- A text with blanks for its comments: as many line breaks are in them, and in place of a comment
that has an end of its own there is at least one. -/
inductive Blanked : List Piece → List Char → Prop
  | nil : Blanked [] []
  | code {c : Char} {r : List Piece} {cs : List Char} (hr : Blanked r cs) :
    Blanked (.code c :: r) (c :: cs)
  | line {text b : List Char} {r : List Piece} {cs : List Char}
    (hb : ∀ c ∈ b, Text.isWhiteSpace c = true) (hbreaks : ∀ c ∈ b, Text.isLineTerminator c = false)
    (hr : Blanked r cs) : Blanked (.line text :: r) (b ++ cs)
  | block {text b : List Char} {r : List Piece} {cs : List Char}
    (hb : ∀ c ∈ b, Text.isWhiteSpace c = true) (hnonempty : b ≠ [])
    (hbreaks : b.filter Text.isLineTerminator = text.filter Text.isLineTerminator)
    (hr : Blanked r cs) : Blanked (.block text :: r) (b ++ cs)

/-- A text without comments stays as it is. -/
theorem Blanked.codes {r : List Piece} {t : List Char} (h : Blanked r t) (cs : List Char) :
    Blanked (codeOf cs ++ r) (cs ++ t) := by
  induction cs with
  | nil => exact h
  | cons c cs ih => exact .code ih

/-- The piece is a comment with an end of its own. -/
def Piece.isBlock : Piece → Bool
  | .block _ => true
  | _ => false

/-- The patterns that take out comments meet nothing that only looks like one, and no comment with
an end of its own stands where they take a specifier to be open. -/
structure Tidy (r : List Piece) : Prop where
  /-- The comments are what the patterns take out. -/
  unblocks : ∃ u, Unblocks r u ∧ LinesTidy none u
  /-- No specifier is open before a comment with an end of its own. -/
  closed : ∀ n < r.length, r[n]?.any Piece.isBlock = true →
    Closed (withoutComments (textOf (r.take n)))

variable {before r u : List Piece} {p : Piece} {x y b : List Char}

/-! ## One comment -/

/-- No blank is a slash. -/
theorem ne_slash_of_isWhiteSpace {c : Char} (h : Text.isWhiteSpace c = true) : c ≠ '/' := by
  rintro rfl
  exact absurd h (by decide)

/-- A comment in a text is in what stands before characters outside of comments. -/
theorem lt_length_of_isBlock {n : Nat} (h : (before ++ codeOf x)[n]?.any Piece.isBlock = true) :
    n < before.length := by
  rw [← Nat.not_le]
  intro hn
  rw [List.getElem?_append_right hn, codeOf, List.getElem?_map] at h
  cases hc : x[n - before.length]? <;> rw [hc] at h <;> exact Bool.false_ne_true h

/-- What is behind all comments stays so. -/
theorem Unblocks.exists_codeOf (h : Unblocks (codeOf x) u) : ∃ y, u = codeOf y := by
  generalize hr : codeOf x = r at h
  induction h generalizing x with
  | nil => exact ⟨[], rfl⟩
  | @code c r u _ _ ih =>
    cases x with
    | nil => exact nomatch hr
    | cons d x =>
      obtain ⟨y, rfl⟩ := ih (List.cons.inj hr).2
      exact ⟨c :: y, rfl⟩
  | @hidden cs r u _ _ ih =>
    obtain ⟨x₁, x₂, rfl, -, rfl⟩ := List.map_eq_append_iff.1 hr
    obtain ⟨y, rfl⟩ := ih rfl
    exact ⟨' ' :: y, rfl⟩
  | block =>
    cases x with
    | nil => exact nomatch hr
    | cons d x => exact nomatch (List.cons.inj hr).1
  | line =>
    cases x with
    | nil => exact nomatch hr
    | cons d x => exact nomatch (List.cons.inj hr).1

/-! ## The second pattern at one comment -/

/-- No line ends where the second pattern comes to a comment or the blank of one. -/
theorem IsRest.endsByNewline_eq {q : Piece} (hq : IsRest p q) (r : List Piece) :
    endsByNewline (q :: r) = false := by
  obtain ⟨-, rfl⟩ | ⟨-, text, rfl⟩ := hq <;> rfl

/-- Behind a character that does nothing to two slashes a text without comments is tidy only if it
is so behind any. -/
theorem LinesTidy.behind {last : Option Char} (h : LinesTidy last (codeOf x))
    (hlast : last ≠ some ':' ∧ last ≠ some '\\') (last' : Option Char) :
    LinesTidy last' (codeOf x) := by
  cases x with
  | nil => trivial
  | cons c x => exact ⟨fun hc hnext => ((h.1 hc hnext).elim hlast.1 hlast.2).elim, h.2⟩

/-- Blanks before a text without comments are tidy. -/
theorem LinesTidy.blanks {last : Option Char} (h : ∀ last, LinesTidy last (codeOf x))
    (hb : ∀ c ∈ b, Text.isWhiteSpace c = true) : LinesTidy last (codeOf b ++ codeOf x) := by
  induction b generalizing last with
  | nil => exact h last
  | cons c b ih =>
    exact ⟨fun hc => absurd hc (ne_slash_of_isWhiteSpace (hb c List.mem_cons_self)),
      ih fun d hd => hb d (List.mem_cons_of_mem c hd)⟩

/-- A text without comments behind a comment is tidy behind anything, and a line ends before it if
the comment ends with its line. -/
theorem LinesTidy.behind_comment {last : Option Char} {q : Piece} (hq : IsRest p q)
    (h : LinesTidy last (r ++ q :: codeOf x)) :
    (∀ last, LinesTidy last (codeOf x)) ∧
      ((∃ text, p = .line text) → endsByNewline (codeOf x) = true) := by
  induction r generalizing last with
  | nil =>
    obtain ⟨⟨text, rfl⟩, rfl⟩ | ⟨-, text, rfl⟩ := hq
    · exact ⟨h.2.behind (by decide), nofun⟩
    · exact ⟨h.2.2.2.behind (by decide), fun _ => h.2.2.1⟩
  | cons p r ih =>
    cases p with
    | code c => exact ih h.2
    | block text => exact h.elim
    | line text => exact ih h.2.2.2

/-! ## A text with one comment less -/

/-- The blanks that stand for a comment. -/
structure IsBlank (p : Piece) (b : List Char) : Prop where
  /-- They are blanks, -/
  blank : ∀ c ∈ b, Text.isWhiteSpace c = true
  /-- and there are some if the comment has an end of its own. -/
  comment : (∃ text, p = .block text) ∧ b ≠ [] ∨ ∃ text, p = .line text

theorem IsBlank.ne_code (h : IsBlank p b) (c : Char) : p ≠ .code c := by
  rintro rfl
  obtain ⟨⟨text, h⟩, -⟩ | ⟨text, h⟩ := h.comment <;> exact nomatch h

/-- What stands for a comment starts with no character that could be part of one. -/
theorem IsBlank.next (h : IsBlank p b)
    (hends : (∃ text, p = .line text) → endsLine (codeOf x) = true) {c : Char}
    (hc : c = '*' ∨ c = '/') : nextCode (codeOf b ++ codeOf x) ≠ some c := by
  intro hnext
  have hblank : Text.isWhiteSpace c = false ∧ Text.isLineTerminator c = false := by
    obtain rfl | rfl := hc <;> decide
  cases b with
  | nil =>
    have hends := hends (h.comment.resolve_left fun h => h.2 rfl)
    cases x with
    | nil => exact nomatch hnext
    | cons d x =>
      obtain rfl : d = c := Option.some.inj hnext
      exact Bool.false_ne_true (hblank.2.symm.trans hends)
  | cons d b =>
    obtain rfl : d = c := Option.some.inj hnext
    exact Bool.false_ne_true (hblank.1.symm.trans (h.blank d List.mem_cons_self))

/-- A line that ends by a newline ends as the language says. -/
theorem endsLine_of_endsByNewline (h : endsByNewline r = true) : endsLine r = true := by
  cases r with
  | nil => rfl
  | cons p r =>
    cases p with
    | code c =>
      rw [endsByNewline, Bool.or_eq_true, Bool.and_eq_true, beq_iff_eq, beq_iff_eq] at h
      obtain rfl | ⟨rfl, -⟩ := h <;> rfl
    | line text => exact absurd h Bool.false_ne_true
    | block text => exact absurd h Bool.false_ne_true

/-- The comments before another one are as the language delimits them whatever comes for that. -/
theorem Delimited.replace {r' r'' : List Piece} (h : Delimited (r ++ p :: r'))
    (hp : ∀ c, p ≠ .code c) (hr'' : Delimited r'') : Delimited (r ++ r'') := by
  induction r with
  | nil => exact hr''
  | cons p' r ih =>
    cases p' with
    | code c => exact ih h
    | block text => exact ⟨h.1, ih h.2⟩
    | line text =>
      obtain ⟨htext, hends, hr⟩ := h
      refine ⟨htext, ?_, ih hr⟩
      cases r with
      | nil =>
        cases p with
        | code c => exact absurd rfl (hp c)
        | line text => exact nomatch hends
        | block text => exact nomatch hends
      | cons p r => cases p <;> exact hends

theorem Delimited.right {r' : List Piece} (h : Delimited (r ++ r')) : Delimited r' := by
  induction r with
  | nil => exact h
  | cons p r ih =>
    cases p with
    | code c => exact ih h
    | block text => exact ih h.2
    | line text => exact ih h.2.2

theorem delimited_codeOf (x : List Char) : Delimited (codeOf x) := by
  simpa using (delimited_codeOf_append x []).2 trivial

@[simp] theorem stripped_codeOf (x : List Char) : stripped (codeOf x) = x := by
  induction x with
  | nil => rfl
  | cons c x ih => exact congrArg (c :: ·) ih

/-- The references do not change when blanks come for a comment at the end of a line. -/
theorem referencesIn_restOfLine (hb : ∀ c ∈ b, Text.isWhiteSpace c = true)
    (hends : endsByNewline (codeOf y) = true) (u : List Char) :
    referencesIn (u ++ restOfLine y) = referencesIn (u ++ (b ++ y)) := by
  -- the newline goes to the blanks
  have hnewline {z : List Char} (hz : ∀ c ∈ z, Text.isWhiteSpace c = true) (hz' : '\n' ∈ z)
      (y : List Char) :
      referencesIn (u ++ '\n' :: y) = referencesIn (u ++ (b ++ (z ++ y))) := by
    have e : Exchangeable ['\n'] (b ++ z) y := by
      refine ⟨forall_mem_of_all rfl, ?_, .inr ⟨by simp, ?_⟩⟩
      · exact fun c hc => (List.mem_append.1 hc).elim (hb c) (hz c)
      · exact List.append_ne_nil_of_right_ne_nil b (List.ne_nil_of_mem hz')
    have hsame := referencesIn_exchange e (u := u)
      (.inr (.inr ⟨List.mem_cons_self, List.mem_append_right b hz'⟩))
    rwa [List.append_assoc b] at hsame
  cases y with
  | nil =>
    have e : Exchangeable [] b [] := ⟨nofun, hb, .inl rfl⟩
    exact referencesIn_exchange e (.inr (.inl rfl))
  | cons c y =>
    simp only [codeOf, List.map_cons, endsByNewline, Bool.or_eq_true, Bool.and_eq_true,
      beq_iff_eq] at hends
    obtain rfl | ⟨rfl, hnext⟩ := hends
    · exact hnewline (z := ['\n']) (forall_mem_of_all rfl) (by decide) y
    · cases y with
      | nil => cases hnext
      | cons c y =>
        obtain rfl := Option.some.inj hnext
        exact hnewline (z := ['\r', '\n']) (forall_mem_of_all rfl) (by decide) y

/-- Without comments, the part of a text before a comment is what the patterns leave of it. -/
theorem withoutComments_before {u₁ u₂ : List Piece} {q : Piece} (hp : ∀ c, p ≠ .code c)
    (hr : Delimited (before ++ p :: r)) (h : Unblocks before u₁) (hq : IsRest p q)
    (hlines : LinesTidy none (u₁ ++ q :: u₂)) :
    withoutComments (textOf before) = stripped u₁ := by
  have hleft : LinesTidy none (u₁ ++ []) :=
    hlines.replace (hq.endsByNewline_eq _) (fun _ => trivial) nofun
  rw [List.append_nil] at hleft
  have hdelimited : Delimited (before ++ []) := hr.replace hp trivial
  rw [List.append_nil] at hdelimited
  exact withoutComments_textOf hdelimited h hleft

/-- No specifier is open before the comments of a text when blanks come for its last one. -/
theorem Tidy.closed_replace (ht : Tidy (before ++ p :: r)) (x : List Char) (n : Nat)
    (hn : (before ++ codeOf x)[n]?.any Piece.isBlock = true) :
    Closed (withoutComments (textOf ((before ++ codeOf x).take n))) := by
  -- a comment with an end of its own is before the blanks, where the text is as it was
  have hlt := lt_length_of_isBlock hn
  rw [List.getElem?_append_left hlt] at hn
  have hclosed := ht.closed n (by rw [List.length_append]; omega)
    (by rwa [List.getElem?_append_left hlt])
  rwa [List.take_append_of_le_length (Nat.le_of_lt hlt)] at hclosed ⊢

/-- What is left of the last comment of a text gives the same references as blanks in its place. -/
theorem referencesIn_rest {u₁ : List Piece} {q : Piece} (hb : IsBlank p b) (hq : IsRest p q)
    (hends : (∃ text, p = .line text) → endsByNewline (codeOf y) = true)
    (hy : (∃ text, p = .block text) → Closed (stripped u₁)) :
    referencesIn (stripped u₁ ++ stripped (q :: codeOf y)) =
      referencesIn (stripped u₁ ++ (b ++ y)) := by
  obtain ⟨⟨text, rfl⟩, rfl⟩ | ⟨hp, text, rfl⟩ := hq
  · -- the first pattern has put a blank there, and blanks can be exchanged where none is open
    have hnonempty : b ≠ [] := (hb.comment.resolve_right nofun).2
    have e : Exchangeable [' '] b y :=
      ⟨forall_mem_of_all rfl, hb.blank, .inr ⟨by simp, hnonempty⟩⟩
    have hsame := referencesIn_exchange e (.inl (hy ⟨text, rfl⟩))
    rwa [List.singleton_append, ← stripped_codeOf y, ← stripped, stripped_codeOf] at hsame
  · -- the second pattern has taken out the rest of the line
    rw [stripped, stripped_codeOf]
    exact referencesIn_restOfLine hb.blank (hends hp) (stripped u₁)

/-- The references of a text do not change when blanks come for its last comment. -/
theorem referencesIn_replace (hr : Delimited (before ++ p :: codeOf x))
    (ht : Tidy (before ++ p :: codeOf x)) (hb : IsBlank p b) :
    referencesIn (withoutComments (textOf (before ++ p :: codeOf x))) =
        referencesIn (withoutComments (textOf (before ++ codeOf (b ++ x)))) ∧
      Delimited (before ++ codeOf (b ++ x)) ∧ Tidy (before ++ codeOf (b ++ x)) := by
  obtain ⟨u, hu, hlines⟩ := ht.unblocks
  obtain ⟨u₁, q, u₂, rfl, hq, h₁, h₂⟩ := hu.split hb.ne_code
  obtain ⟨y, rfl⟩ := h₂.exists_codeOf
  obtain ⟨hy, hends⟩ := hlines.behind_comment hq
  have hr' : Delimited (before ++ codeOf (b ++ x)) := hr.replace hb.ne_code (delimited_codeOf _)
  have hends' : (∃ text, p = .line text) → endsLine (codeOf x) = true := by
    rintro ⟨text, rfl⟩
    exact hr.right.2.1
  rw [codeOf_append] at hr' ⊢
  -- the patterns do before and behind the blanks what they do before and behind the comment
  have hu' : Unblocks (before ++ (codeOf b ++ codeOf x)) (u₁ ++ (codeOf b ++ codeOf y)) :=
    h₁.append (h₂.codes fun hmem => ne_slash_of_isWhiteSpace (hb.blank _ hmem) rfl)
      (hb.next hends' (.inl rfl))
  have hlines' : LinesTidy none (u₁ ++ (codeOf b ++ codeOf y)) :=
    hlines.replace (hq.endsByNewline_eq _) (fun _ => LinesTidy.blanks hy hb.blank)
      (hb.next (fun h => endsLine_of_endsByNewline (hends h)) (.inr rfl))
  refine ⟨?_, hr', ⟨_, hu', hlines'⟩, fun n _ hn => ?_⟩
  · rw [withoutComments_textOf hr hu hlines, withoutComments_textOf hr' hu' hlines',
      stripped_append (hq.endsByNewline_eq _) hlines,
      stripped_append (hq.endsByNewline_eq _) hlines, ← codeOf_append, stripped_codeOf]
    refine referencesIn_rest hb hq hends ?_
    rintro ⟨text, rfl⟩
    have hclosed := ht.closed before.length (by simp) (by simp [Piece.isBlock])
    rwa [List.take_left, withoutComments_before hb.ne_code hr h₁ hq hlines] at hclosed
  · rw [← codeOf_append] at hn ⊢
    exact ht.closed_replace (b ++ x) n hn

/-- The references of a text do not change when blanks come for its comments. -/
theorem referencesIn_blanked {t : List Char} (hblanked : Blanked r t) (before : List Piece)
    (hr : Delimited (before ++ r)) (ht : Tidy (before ++ r)) :
    referencesIn (withoutComments (textOf (before ++ r))) =
        referencesIn (withoutComments (textOf (before ++ codeOf t))) ∧
      Delimited (before ++ codeOf t) ∧ Tidy (before ++ codeOf t) := by
  -- the last comment goes first, so those before it are still in the text
  have hcomment {p : Piece} {b cs : List Char} {r : List Piece} (hb : IsBlank p b)
      {before : List Piece} (ih : Delimited (before ++ [p] ++ r) → Tidy (before ++ [p] ++ r) →
        referencesIn (withoutComments (textOf (before ++ [p] ++ r))) =
            referencesIn (withoutComments (textOf (before ++ [p] ++ codeOf cs))) ∧
          Delimited (before ++ [p] ++ codeOf cs) ∧ Tidy (before ++ [p] ++ codeOf cs))
      (hr : Delimited (before ++ p :: r)) (ht : Tidy (before ++ p :: r)) :
      referencesIn (withoutComments (textOf (before ++ p :: r))) =
          referencesIn (withoutComments (textOf (before ++ codeOf (b ++ cs)))) ∧
        Delimited (before ++ codeOf (b ++ cs)) ∧ Tidy (before ++ codeOf (b ++ cs)) := by
    simp only [List.append_assoc, List.singleton_append] at ih
    obtain ⟨hsame, hr', ht'⟩ := ih hr ht
    obtain ⟨hsame', hdone⟩ := referencesIn_replace hr' ht' hb
    exact ⟨hsame.trans hsame', hdone⟩
  induction hblanked generalizing before with
  | nil => exact ⟨rfl, hr, ht⟩
  | @code c r cs _ ih =>
    have hmove (r' : List Piece) : before ++ .code c :: r' = before ++ [.code c] ++ r' := by
      rw [List.append_assoc, List.singleton_append]
    have hcode : codeOf (c :: cs) = .code c :: codeOf cs := rfl
    rw [hcode, hmove r, hmove (codeOf cs)]
    rw [hmove r] at hr ht
    exact ih _ hr ht
  | line hb _ _ ih => exact hcomment ⟨hb, .inr ⟨_, rfl⟩⟩ (ih _) hr ht
  | block hb hnonempty _ _ ih => exact hcomment ⟨hb, .inl ⟨⟨_, rfl⟩, hnonempty⟩⟩ (ih _) hr ht

/-- Comments are not read: the scan finds the same in a text with blanks for its comments. -/
theorem scanText_blanked {t : List Char} (hr : Delimited r) (ht : Tidy r) (hblanked : Blanked r t) :
    scanText (String.ofList t) = scanText (String.ofList (textOf r)) := by
  have hsame := (referencesIn_blanked hblanked [] hr ht).1
  rw [List.nil_append, List.nil_append, textOf_codeOf] at hsame
  rw [scanText_eq, scanText_eq, String.toList_ofList, String.toList_ofList, hsame]

/-- A text with a comment of each kind. -/
def commentedImports : List Piece :=
  codeOf "import \"a\"; ".toList ++ .line " import \"b\"".toList ::
    (codeOf "\nf(); ".toList ++ .block " import('c')\n*/".toList ::
      (codeOf " import(\"d\");".toList ++ []))

/-- The same text with blanks for its comments. -/
def blankedImports : List Char :=
  "import \"a\"; ".toList ++ ("   ".toList ++ ("\nf(); ".toList ++ (" \n ".toList ++
    (" import(\"d\");".toList ++ []))))

theorem scanText_blanked_commentedImports :
    Delimited commentedImports ∧ Tidy commentedImports ∧ Blanked commentedImports blankedImports ∧
      scanText (String.ofList blankedImports) = scanText (String.ofList (textOf commentedImports)) ∧
      scanText (String.ofList blankedImports) = [⟨"a", false⟩, ⟨"d", true⟩] := by
  have hr : Delimited commentedImports := by decide +kernel
  have hunblocks : Unblocks commentedImports (codeOf "import \"a\"; ".toList ++
      .line (withoutBlocks " import \"b\"".toList) :: (codeOf "\nf(); ".toList ++ .code ' ' ::
        (codeOf " import(\"d\");".toList ++ []))) :=
    .codes (by decide) (.line (by decide) (.of_opensBlock (by decide))
      (.codes (by decide) (.block (.codes (by decide) .nil))))
  rw [withoutBlocks_eq_self (by decide)] at hunblocks
  have ht : Tidy commentedImports := ⟨⟨_, hunblocks, by decide +kernel⟩, by decide +kernel⟩
  have hblanked : Blanked commentedImports blankedImports :=
    .codes (.line (forall_mem_of_all rfl) (forall_mem_of_all rfl)
      (.codes (.block (forall_mem_of_all rfl) (by decide) (by decide) (.codes .nil _)) _)) _
  refine ⟨hr, ht, hblanked, scanText_blanked hr ht hblanked, ?_⟩
  have hblocks : withoutBlocks blankedImports = blankedImports :=
    withoutBlocks_eq_self (by decide +kernel)
  have hlines : withoutLines blankedImports = blankedImports := by decide +kernel
  rw [scanText_eq, String.toList_ofList, withoutComments, hblocks, hlines,
    referencesIn_of_pairwise (by decide +kernel)]
  decide +kernel

/-- A label that a comment follows at once. -/
def labelledComment : List Piece :=
  codeOf "a:".toList ++ .line " import \"b\"".toList :: (codeOf "\nc;".toList ++ [])

/-- The colon of a label keeps the second pattern from a comment right behind it, which is then read
as if it were none. -/
theorem scanText_labelledComment :
    Delimited labelledComment ∧
      (Syntax.Program.read (Syntax.Dialect.ofPath "/m.js")
        (String.ofList (textOf labelledComment))).toOption.map
          (fun p => p.comments.map fun c => c.text) = some ["// import \"b\""] ∧
      Blanked labelledComment "a:  \nc;".toList ∧
      scanText (String.ofList (textOf labelledComment)) = [⟨"b", false⟩] ∧
      scanText "a:  \nc;" = [] := by
  have hscan (cs : List Char) (hcs : ∀ n < cs.length, opensBlock (cs.drop n) = false) :
      scanText (String.ofList cs) = referencesIn (withoutLines cs) := by
    rw [scanText_eq, String.toList_ofList, withoutComments, withoutBlocks_eq_self hcs]
  refine ⟨by decide +kernel, by decide +kernel, ?_, ?_, ?_⟩
  · exact .codes (.line (b := "  ".toList) (forall_mem_of_all rfl) (forall_mem_of_all rfl)
      (.codes .nil _)) _
  · rw [hscan _ (by decide +kernel), referencesIn_of_pairwise (by decide +kernel)]
    decide +kernel
  · rw [← String.ofList_toList (s := "a:  \nc;"), hscan _ (by decide +kernel),
      referencesIn_of_pairwise (by decide +kernel)]
    decide +kernel

end ModuleLoader.TextScan
