import ModuleLoader.Proofs.Imports.Blanks
import ModuleLoader.Proofs.Imports.Comments

/-! # Imports as they are written

An import that is plainly written, with blanks and comments wherever they may stand, has the shape
that a text scan looks for once comments are taken out.

* **`Written`** are the plain forms of imports.
* **`shape_of_written`** says that what is left of them has the shape. -/

namespace ModuleLoader.TextScan

/-! ## Kinds of imports -/

/-- A kind of imports, each of which is looked for by a shape of its own. -/
inductive Kind
  /-- An import declaration. -/
  | declaration
  /-- An `import()`. -/
  | call
  /-- An export from another module. -/
  | reexport
deriving DecidableEq, Repr

/-- What may stand before the first word. -/
def Kind.before : Kind → Char → Bool
  | .declaration | .reexport => beforeDeclaration
  | .call => beforeCall

/-- The shape of the kind. -/
def Kind.shape : Kind → List Char → Option Match
  | .declaration => staticImport?
  | .call => dynamicImport?
  | .reexport => exportFrom?

/-- It is only reached by `import()`. -/
def Kind.isDynamic : Kind → Bool
  | .call => true
  | .declaration | .reexport => false

/-! ## Plain forms -/

/-- Outside of comments there are only characters of a sort. -/
def Among (sort : Char → Bool) (w : List Piece) : Prop := ∀ c, .code c ∈ w → sort c = true

/-- A piece that is a comment or of the sort. -/
def Piece.isAmong (sort : Char → Bool) : Piece → Bool
  | .code c => sort c
  | .block _ | .line _ => true

instance (sort : Char → Bool) (w : List Piece) : Decidable (Among sort w) :=
  decidable_of_iff (w.all (Piece.isAmong sort) = true) <| by
    rw [List.all_eq_true]
    constructor
    · exact fun h c hc => h _ hc
    · intro h p hp
      cases p with
      | code c => exact h c hp
      | block text => rfl
      | line text => rfl

/-- A specifier in its quotes, which is not empty, is on one line, has no quotes in it and nothing
that starts a block comment. -/
structure Quoted (x w : List Char) : Prop where
  /-- The quotes around it. -/
  quotes : ∃ q q', isQuote q = true ∧ isQuote q' = true ∧ w = q :: (x ++ [q'])
  /-- There is something in it, -/
  nonempty : x ≠ []
  /-- but no quote and no newline, -/
  chars : x.all isSpecifierChar = true
  /-- and nothing that looks like a block comment. -/
  noBlock : ∀ n < x.length, opensBlock (x.drop n) = false

/-- A character that may stand in the braces of an export. -/
def isNameListChar (c : Char) : Bool := isClauseChar c && c != '\x7d'

/-- An import that is plainly written. -/
inductive Written (x : List Char) : Kind → List Piece → Prop
  /-- `import "x"` -/
  | bare {g : List Piece} {w : List Char} (hg : Among Text.isWhiteSpace g) (hw : Quoted x w) :
    Written x .declaration (codeOf "import".toList ++ (g ++ codeOf w))
  /-- `import a from "x"` -/
  | clause {k g : List Piece} {w : List Char} (hk : Among isClauseChar k) (hne : k ≠ [])
    (hg : Among Text.isWhiteSpace g) (hw : Quoted x w) :
    Written x .declaration
      (codeOf "import".toList ++ (k ++ (codeOf "from".toList ++ (g ++ codeOf w))))
  /-- `import("x")` -/
  | call {g₁ g₂ g₃ : List Piece} {w : List Char} (h₁ : Among Text.isWhiteSpace g₁)
    (h₂ : Among Text.isWhiteSpace g₂) (h₃ : Among Text.isWhiteSpace g₃) (hw : Quoted x w) :
    Written x .call (codeOf "import".toList ++ (g₁ ++ (codeOf "(".toList ++ (g₂ ++ (codeOf w ++
      (g₃ ++ codeOf ")".toList))))))
  /-- `export * from "x"` -/
  | star {g₁ g₂ g₃ : List Piece} {w : List Char} (h₁ : Among Text.isWhiteSpace g₁)
    (h₂ : Among Text.isWhiteSpace g₂) (h₃ : Among Text.isWhiteSpace g₃) (hw : Quoted x w) :
    Written x .reexport (codeOf "export".toList ++ (g₁ ++ (codeOf "*".toList ++ (g₂ ++
      (codeOf "from".toList ++ (g₃ ++ codeOf w))))))
  /-- `export * as a from "x"` -/
  | whole {g₁ g₂ g₃ g₄ g₅ : List Piece} {a w : List Char} (h₁ : Among Text.isWhiteSpace g₁)
    (h₂ : Among Text.isWhiteSpace g₂) (h₃ : Among Text.isWhiteSpace g₃) (hne₃ : g₃ ≠ [])
    (ha : a.all isNameChar = true) (hne : a ≠ []) (h₄ : Among Text.isWhiteSpace g₄) (hne₄ : g₄ ≠ [])
    (h₅ : Among Text.isWhiteSpace g₅) (hw : Quoted x w) :
    Written x .reexport (codeOf "export".toList ++ (g₁ ++ (codeOf "*".toList ++ (g₂ ++
      (codeOf "as".toList ++ (g₃ ++ (codeOf a ++ (g₄ ++ (codeOf "from".toList ++ (g₅ ++
        codeOf w))))))))))
  /-- `export { a, b } from "x"` -/
  | named {g₁ k g₂ g₃ : List Piece} {w : List Char} (h₁ : Among Text.isWhiteSpace g₁)
    (hk : Among isNameListChar k) (h₂ : Among Text.isWhiteSpace g₂)
    (h₃ : Among Text.isWhiteSpace g₃) (hw : Quoted x w) :
    Written x .reexport (codeOf "export".toList ++ (g₁ ++ (codeOf "\x7b".toList ++ (k ++
      (codeOf "\x7d".toList ++ (g₂ ++ (codeOf "from".toList ++ (g₃ ++ codeOf w))))))))

/-! ## What is left of them -/

variable {after r u : List Piece} {last : Option Char} {sort : Char → Bool}

/-- A character that starts no comment and ends no line. -/
def isPlainChar (c : Char) : Bool := c != '/' && c != '\n' && c != '\r'

/-- Characters that the patterns leave as they are, and that stop what they take out before them: the
first one is plain, no block comment starts in them, and none can start with the last one. -/
structure IsToken (x : List Char) : Prop where
  /-- The first one starts no comment and ends no line. -/
  head : ∃ c y, x = c :: y ∧ isPlainChar c = true
  /-- Nothing looks like a block comment. -/
  noBlock : ∀ n < x.length, opensBlock (x.drop n) = false
  /-- The last one is no slash. -/
  last : x.getLast? ≠ some '/'

/-- Plain characters are a token. -/
theorem IsToken.of_all {x : List Char} (hx : x.all isPlainChar = true) (hne : x ≠ []) :
    IsToken x := by
  have hall := List.all_eq_true.1 hx
  have hslash : '/' ∉ x := fun h => absurd (hall _ h) (by decide)
  obtain ⟨c, y, rfl⟩ := List.exists_cons_of_ne_nil hne
  refine ⟨⟨c, y, rfl, hall c List.mem_cons_self⟩, fun n _ => ?_,
    fun hlast => hslash (List.mem_of_getLast? hlast)⟩
  cases hdrop : (c :: y).drop n with
  | nil => rfl
  | cons d z =>
    have hd : d ≠ '/' := by
      rintro rfl
      exact hslash ((List.drop_suffix n _).subset (hdrop ▸ List.mem_cons_self))
    cases z <;> simp [opensBlock, hd]

/-- Of a character that is no slash the first pattern takes nothing. -/
theorem Unblocks.exists_of_code {c : Char} (hc : c ≠ '/' ∨ nextCode after ≠ some '*')
    (h : Unblocks (.code c :: after) u) : ∃ u', u = .code c :: u' ∧ Unblocks after u' := by
  generalize hr : Piece.code c :: after = r at h
  cases h with
  | nil => exact nomatch hr
  | code _ hrest =>
    obtain ⟨hcode, rfl⟩ := List.cons.inj hr
    obtain rfl := Piece.code.inj hcode
    exact ⟨_, rfl, hrest⟩
  | @hidden cs =>
    obtain ⟨hcode, rfl⟩ := List.cons.inj hr
    obtain rfl := Piece.code.inj hcode
    exact absurd rfl (hc.resolve_right fun h => h rfl)
  | block => exact nomatch (List.cons.inj hr).1
  | line => exact nomatch (List.cons.inj hr).1

/-- A comment is nothing or a blank for the first pattern. -/
theorem Unblocks.exists_of_comment {p : Piece} (hp : ∀ c, p ≠ .code c)
    (h : Unblocks (p :: after) u) : ∃ q u', u = q :: u' ∧ IsRest p q ∧ Unblocks after u' := by
  have h : Unblocks ([] ++ p :: after) u := h
  obtain ⟨u₁, q, u₂, rfl, hq, h₁, h₂⟩ := h.split hp
  generalize hnil : ([] : List Piece) = r at h₁
  cases h₁ with
  | nil => exact ⟨q, u₂, rfl, hq, h₂⟩
  | code => exact nomatch hnil
  | hidden => exact nomatch hnil
  | block => exact nomatch hnil
  | line => exact nomatch hnil

/-- Of blanks and comments, and of other characters among which there are no slashes, the first
pattern leaves blanks in place of block comments. -/
theorem Unblocks.exists_of_among {g : List Piece} (hg : Among sort g) (hslash : sort '/' = false)
    (hblank : sort ' ' = true) (h : Unblocks (g ++ after) u) :
    ∃ g' u', u = g' ++ u' ∧ Unblocks after u' ∧ Among sort g' ∧ (g ≠ [] → g' ≠ []) := by
  induction g generalizing u with
  | nil => exact ⟨[], u, rfl, h, nofun, fun h => absurd rfl h⟩
  | cons p g ih =>
    have hg' : Among sort g := fun c hc => hg c (List.mem_cons_of_mem p hc)
    have hcons {q : Piece} (hq : ∀ c, q = .code c → sort c = true) {u : List Piece}
        (h : Unblocks (g ++ after) u) : ∃ g' u', q :: u = g' ++ u' ∧ Unblocks after u' ∧
          Among sort g' ∧ (p :: g ≠ [] → g' ≠ []) := by
      obtain ⟨g', u', rfl, hu', hamong, -⟩ := ih hg' h
      refine ⟨q :: g', u', rfl, hu', fun c hc => ?_, fun _ => List.cons_ne_nil q g'⟩
      exact (List.mem_cons.1 hc).elim (fun hc => hq c hc.symm) (hamong c)
    have hcomment (hp : ∀ c, p ≠ .code c) : ∃ g' u', u = g' ++ u' ∧ Unblocks after u' ∧
        Among sort g' ∧ (p :: g ≠ [] → g' ≠ []) := by
      obtain ⟨q, u', rfl, hq, hu'⟩ := h.exists_of_comment hp
      refine hcons (fun c hc => ?_) hu'
      obtain ⟨-, rfl⟩ | ⟨-, text, rfl⟩ := hq
      · exact Piece.code.inj hc ▸ hblank
      · exact nomatch hc
    cases p with
    | code c =>
      have hc : sort c = true := hg c List.mem_cons_self
      have hne : c ≠ '/' := by
        rintro rfl
        exact Bool.false_ne_true (hslash.symm.trans hc)
      obtain ⟨u₁, rfl, h₁⟩ := Unblocks.exists_of_code (.inl hne) h
      exact hcons (fun d hd => Piece.code.inj hd ▸ hc) h₁
    | block text => exact hcomment nofun
    | line text => exact hcomment nofun

/-- The second pattern leaves characters of the same sort, and some if there is anything, before a
text that starts with no end of a line. -/
theorem stripped_of_among {g : List Piece} (hg : Among sort g) (hu : LinesTidy last (g ++ u))
    (hends : endsByNewline u = false) :
    (∀ c ∈ stripped g, sort c = true) ∧ (g ≠ [] → stripped g ≠ []) := by
  induction g generalizing last with
  | nil => exact ⟨nofun, fun h => absurd rfl h⟩
  | cons p g ih =>
    have hg' : Among sort g := fun c hc => hg c (List.mem_cons_of_mem p hc)
    cases p with
    | code c =>
      refine ⟨fun d hd => ?_, fun _ => List.cons_ne_nil c _⟩
      obtain rfl | hd := List.mem_cons.1 hd
      · exact hg d List.mem_cons_self
      · exact (ih hg' hu.2).1 d hd
    | block text => exact hu.elim
    | line text =>
      obtain ⟨-, -, hline, hrest⟩ := hu
      have hnewline := (endsByNewline_append hends hline []).2
      constructor
      · exact fun d hd => (ih hg' hrest).1 d ((List.dropWhile_suffix _).subset hd)
      · intro _ hnil
        exact absurd (List.dropWhile_eq_nil_iff.1 hnil _ hnewline) (by decide)

/-- A token stays. -/
theorem IsToken.leaves {x : List Char} (hx : IsToken x) (h : Unblocks (codeOf x ++ after) u)
    (hu : LinesTidy last u) :
    ∃ u' last', Unblocks after u' ∧ LinesTidy last' u' ∧ stripped u = x ++ stripped u' := by
  obtain ⟨-, hnoBlock, hslash⟩ := hx
  induction x generalizing u last with
  | nil => exact ⟨u, last, h, hu, rfl⟩
  | cons c x ih =>
    have hc : c ≠ '/' ∨ nextCode (codeOf x ++ after) ≠ some '*' := by
      have hopens := hnoBlock 0 (Nat.zero_lt_succ _)
      by_cases hc : c = '/'
      · subst hc
        cases x with
        | nil => exact absurd rfl hslash
        | cons d x =>
          refine .inr fun hd => ?_
          obtain rfl : d = '*' := Option.some.inj hd
          exact nomatch hopens
      · exact .inl hc
    have hslash' : x.getLast? ≠ some '/' := by
      cases x with
      | nil => exact nofun
      | cons d x => exact hslash
    obtain ⟨u₁, rfl, h₁⟩ := h.exists_of_code hc
    obtain ⟨u', last', hu', hlines, hs⟩ :=
      ih h₁ hu.2 (fun n hn => hnoBlock (n + 1) (Nat.succ_lt_succ hn)) hslash'
    exact ⟨u', last', hu', hlines, congrArg (c :: ·) hs⟩

/-- Nothing that ends a line is left where a token stands. -/
theorem IsToken.endsByNewline_eq {x : List Char} (hx : IsToken x)
    (h : Unblocks (codeOf x ++ after) u) : endsByNewline u = false := by
  obtain ⟨c, y, rfl, hc⟩ := hx.head
  simp only [isPlainChar, Bool.and_eq_true, bne_iff_ne] at hc
  obtain ⟨u', rfl, -⟩ := h.exists_of_code (.inl hc.1.1)
  simp [endsByNewline, hc]

/-- A token stays, and of blanks and comments before it, and of other characters among which there
are no slashes, characters of the same sort are left. -/
theorem IsToken.leaves_behind {x : List Char} (hx : IsToken x) {g : List Piece}
    (hg : Among sort g) (hslash : sort '/' = false) (hblank : sort ' ' = true)
    (h : Unblocks (g ++ (codeOf x ++ after)) u) (hu : LinesTidy last u) :
    ∃ b u' last', Unblocks after u' ∧ LinesTidy last' u' ∧
      stripped u = b ++ (x ++ stripped u') ∧ (∀ d ∈ b, sort d = true) ∧ (g ≠ [] → b ≠ []) := by
  obtain ⟨g', u₁, rfl, h₁, hg', hne⟩ := h.exists_of_among hg hslash hblank
  have hends := hx.endsByNewline_eq h₁
  obtain ⟨last₁, hu₁⟩ := hu.right
  obtain ⟨hsort, hne'⟩ := stripped_of_among hg' hu hends
  obtain ⟨u', last', hu', hlines, hs⟩ := hx.leaves h₁ hu₁
  exact ⟨stripped g', u', last', hu', hlines, by rw [stripped_append hends hu, hs], hsort,
    fun h => hne' (hne h)⟩

/-! ## The shapes -/

/-- A quoted specifier is found where it stands. -/
theorem quoted?_of_quoted {x w : List Char} (hw : Quoted x w) (rest : List Char) :
    ∃ m, quoted? (w ++ rest) = some m ∧ m.specifier = x ∧ m.after = rest := by
  obtain ⟨q, q', hq, hq', rfl⟩ := hw.quotes
  refine ⟨⟨x, (x ++ q' :: rest).length, rest⟩, ?_, rfl, rfl⟩
  rw [List.cons_append, List.append_assoc]
  exact quoted?_of_quotes hq hq' hw.nonempty hw.chars rest

/-- A word is passed where it stands. -/
@[simp] theorem behind_append (word : String) (rest : List Char) :
    behind word (word.toList ++ rest) = some rest := behind_eq_some_iff.2 rfl

/-- Blanks are passed up to the first other character. -/
theorem skipSpace_append {b : List Char} (hb : ∀ c ∈ b, Text.isWhiteSpace c = true) {c : Char}
    (hc : Text.isWhiteSpace c = false) (rest : List Char) :
    skipSpace (b ++ c :: rest) = c :: rest := by
  rw [skipSpace, List.dropWhile_append_of_pos hb, List.dropWhile_cons_of_neg]
  rw [hc]
  exact Bool.false_ne_true

/-- A quoted specifier starts with a quote. -/
theorem Quoted.exists_cons {x w : List Char} (hw : Quoted x w) :
    ∃ q w', w = q :: w' ∧ isQuote q = true ∧ Text.isWhiteSpace q = false := by
  obtain ⟨q, q', hq, -, rfl⟩ := hw.quotes
  refine ⟨q, _, rfl, hq, ?_⟩
  rw [isQuote, Bool.or_eq_true, beq_iff_eq, beq_iff_eq] at hq
  obtain rfl | rfl := hq <;> decide

/-- Blanks before a quoted specifier are passed. -/
theorem skipSpace_quoted {x w b : List Char} (hb : ∀ c ∈ b, Text.isWhiteSpace c = true)
    (hw : Quoted x w) (rest : List Char) : skipSpace (b ++ (w ++ rest)) = w ++ rest := by
  obtain ⟨q, w', rfl, -, hq⟩ := hw.exists_cons
  exact skipSpace_append hb hq _

/-- An import declaration has its shape if what stands before the specifier is a clause. -/
theorem staticImport?_of_clause {x w k : List Char} (hk : isClause k = true)
    (hquotes : ∀ c ∈ k, isUnquoted c = true) (hw : Quoted x w) (rest : List Char) :
    ∃ m, staticImport? ("import".toList ++ (k ++ (w ++ rest))) = some m ∧ m.specifier = x := by
  obtain ⟨m, hm, hx, -⟩ := quoted?_of_quoted hw rest
  obtain ⟨q, w', rfl, hq, -⟩ := hw.exists_cons
  have hq : ¬ isUnquoted q = true := by simp [isUnquoted, hq]
  refine ⟨m, ?_, hx⟩
  have hhead : staticHead? ("import".toList ++ (k ++ (q :: w' ++ rest))) =
      some (q :: w' ++ rest) := by
    rw [staticHead?, behind_append, Option.bind_eq_bind, Option.bind_some, clauseHead?,
      List.dropWhile_append_of_pos hquotes, List.takeWhile_append_of_pos hquotes, List.cons_append,
      List.dropWhile_cons_of_neg hq, List.takeWhile_cons_of_neg hq, List.append_nil, hk]
    rfl
  rw [staticImport?_eq, shaped_some, hhead, Option.bind_some, hm]

/-- An `import()` has its shape. -/
theorem dynamicImport?_of_quoted {x w b₁ b₂ b₃ : List Char}
    (h₁ : ∀ c ∈ b₁, Text.isWhiteSpace c = true) (h₂ : ∀ c ∈ b₂, Text.isWhiteSpace c = true)
    (h₃ : ∀ c ∈ b₃, Text.isWhiteSpace c = true) (hw : Quoted x w) (rest : List Char) :
    ∃ m, dynamicImport? ("import".toList ++ (b₁ ++ ("(".toList ++ (b₂ ++ (w ++ (b₃ ++
      (")".toList ++ rest))))))) = some m ∧ m.specifier = x := by
  obtain ⟨m, hm, hx, hafter⟩ := quoted?_of_quoted hw (b₃ ++ (")".toList ++ rest))
  have hopening (rest : List Char) : skipSpace (b₁ ++ ("(".toList ++ rest)) = "(".toList ++ rest :=
    skipSpace_append h₁ (by decide) rest
  have hclosing : skipSpace (b₃ ++ (")".toList ++ rest)) = ")".toList ++ rest :=
    skipSpace_append h₃ (by decide) rest
  have hhead (rest : List Char) : dynamicHead? ("import".toList ++ (b₁ ++ ("(".toList ++ (b₂ ++
      (w ++ rest))))) = some (w ++ rest) := by
    simp only [dynamicHead?, behind_append, Option.bind_eq_bind, Option.bind_some, hopening,
      skipSpace_quoted h₂ hw]
    rfl
  refine ⟨{ m with after := rest }, ?_, hx⟩
  simp only [dynamicImport?_eq, shaped, closing?, hhead, hm, hafter, hclosing, behind_append,
    Option.bind_eq_bind, Option.bind_some]
  rfl

/-- The `from` of an export is passed. -/
theorem fromHead?_of_quoted {x w b b' : List Char} (hb : ∀ c ∈ b, Text.isWhiteSpace c = true)
    (hb' : ∀ c ∈ b', Text.isWhiteSpace c = true) (hw : Quoted x w) (rest : List Char) :
    fromHead? (b ++ ("from".toList ++ (b' ++ (w ++ rest)))) = some (w ++ rest) := by
  have hfrom (rest : List Char) :
      skipSpace (b ++ ("from".toList ++ rest)) = "from".toList ++ rest :=
    skipSpace_append (c := 'f') hb (by decide) _
  simp only [fromHead?, hfrom, behind_append, Option.bind_eq_bind, Option.bind_some,
    skipSpace_quoted hb' hw]
  rfl

/-- The `from` behind the asterisk of an export is passed. -/
theorem starHead?_of_from {x w b b' : List Char} (hb : ∀ c ∈ b, Text.isWhiteSpace c = true)
    (hb' : ∀ c ∈ b', Text.isWhiteSpace c = true) (hw : Quoted x w) (rest : List Char) :
    starHead? (b ++ ("from".toList ++ (b' ++ (w ++ rest)))) = some (w ++ rest) := by
  have hskip (rest : List Char) :
      skipSpace (b ++ ("from".toList ++ rest)) = "from".toList ++ rest :=
    skipSpace_append (c := 'f') hb (by decide) _
  have has (rest : List Char) : behind "as" ("from".toList ++ rest) = none := rfl
  rw [starHead?, hskip, has]
  exact fromHead?_of_quoted hb hb' hw rest

/-- The `as` behind the asterisk of an export is passed. -/
theorem starHead?_of_as {b cs rest : List Char} (hb : ∀ c ∈ b, Text.isWhiteSpace c = true)
    (h : nameHead? cs = some rest) : starHead? (b ++ ("as".toList ++ cs)) = some rest := by
  have hskip : skipSpace (b ++ ("as".toList ++ cs)) = "as".toList ++ cs :=
    skipSpace_append (c := 'a') hb (by decide) _
  rw [starHead?, hskip, behind_append]
  exact h

/-- The name of a whole module is passed. -/
theorem nameHead?_of_quoted {x w a b₃ b₄ b₅ : List Char}
    (h₃ : ∀ c ∈ b₃, Text.isWhiteSpace c = true) (hne₃ : b₃ ≠ []) (ha : a.all isNameChar = true)
    (hne : a ≠ []) (h₄ : ∀ c ∈ b₄, Text.isWhiteSpace c = true) (hne₄ : b₄ ≠ [])
    (h₅ : ∀ c ∈ b₅, Text.isWhiteSpace c = true) (hw : Quoted x w) (rest : List Char) :
    nameHead? (b₃ ++ (a ++ (b₄ ++ ("from".toList ++ (b₅ ++ (w ++ rest)))))) = some (w ++ rest) := by
  have hall := List.all_eq_true.1 ha
  obtain ⟨c, a', rfl⟩ := List.exists_cons_of_ne_nil hne
  obtain ⟨d, b₄', rfl⟩ := List.exists_cons_of_ne_nil hne₄
  have hc : Text.isWhiteSpace c = false := by
    cases hspace : Text.isWhiteSpace c with
    | false => rfl
    | true =>
      have hname := (classes_of_isWhiteSpace hspace).1
      exact absurd (hall c List.mem_cons_self) (by rw [hname]; exact Bool.false_ne_true)
  have hd : ¬ isNameChar d = true := by
    rw [(classes_of_isWhiteSpace (h₄ d List.mem_cons_self)).1]
    exact Bool.false_ne_true
  have hskip (rest : List Char) : skipSpace (b₃ ++ (c :: a' ++ rest)) = c :: a' ++ rest :=
    skipSpace_append h₃ hc _
  have htake (rest : List Char) :
      (c :: a' ++ (d :: b₄' ++ rest)).takeWhile isNameChar = c :: a' := by
    have hstop : (d :: b₄' ++ rest).takeWhile isNameChar = [] := List.takeWhile_cons_of_neg hd
    rw [List.takeWhile_append_of_pos hall, hstop, List.append_nil]
  have hdrop (rest : List Char) :
      (c :: a' ++ (d :: b₄' ++ rest)).dropWhile isNameChar = d :: b₄' ++ rest := by
    rw [List.dropWhile_append_of_pos hall]
    exact List.dropWhile_cons_of_neg hd
  have hlength (y : List Char) : (y.length == (b₃ ++ y).length) = false := by
    have := List.length_pos_iff.2 hne₃
    rw [List.length_append, beq_eq_false_iff_ne]
    omega
  have hfrom (rest : List Char) :
      skipSpace (d :: b₄' ++ ("from".toList ++ rest)) = "from".toList ++ rest :=
    skipSpace_append (c := 'f') h₄ (by decide) _
  simp only [nameHead?, hskip, htake, hdrop, hlength, List.isEmpty_cons, Bool.or_false,
    Bool.false_eq_true, if_false, behindName?, hfrom, behind_append, skipSpace_quoted h₅ hw]

/-- An export from another module has its shape if its head is passed behind the asterisk. -/
theorem exportFrom?_of_star {x w b rest cs : List Char}
    (hb : ∀ c ∈ b, Text.isWhiteSpace c = true) (hw : Quoted x w)
    (hcs : starHead? cs = some (w ++ rest)) :
    ∃ m, exportFrom? ("export".toList ++ (b ++ ("*".toList ++ cs))) = some m ∧ m.specifier = x := by
  obtain ⟨m, hm, hx, -⟩ := quoted?_of_quoted hw rest
  have hskip : skipSpace (b ++ ("*".toList ++ cs)) = "*".toList ++ cs :=
    skipSpace_append hb (by decide) cs
  refine ⟨m, ?_, hx⟩
  simp only [exportFrom?_eq, shaped_some, exportHead?, behind_append, Option.bind_eq_bind,
    Option.bind_some, hskip, hcs, hm]

/-- An export of names from another module has its shape. -/
theorem exportFrom?_of_brace {x w b k rest cs : List Char}
    (hb : ∀ c ∈ b, Text.isWhiteSpace c = true) (hk : ∀ c ∈ k, c ≠ '\x7d') (hw : Quoted x w)
    (hcs : fromHead? cs = some (w ++ rest)) :
    ∃ m, exportFrom? ("export".toList ++ (b ++ ("\x7b".toList ++ (k ++ ("\x7d".toList ++ cs))))) =
      some m ∧ m.specifier = x := by
  obtain ⟨m, hm, hx, -⟩ := quoted?_of_quoted hw rest
  have hskip (cs : List Char) : skipSpace (b ++ ("\x7b".toList ++ cs)) = "\x7b".toList ++ cs :=
    skipSpace_append hb (by decide) cs
  have hstar (cs : List Char) : behind "*" ("\x7b".toList ++ cs) = none := rfl
  have hbrace : braceHead? (k ++ ("\x7d".toList ++ cs)) = some (w ++ rest) := by
    rw [braceHead?, List.dropWhile_append_of_pos fun c hc => bne_iff_ne.2 (hk c hc)]
    exact hcs
  refine ⟨m, ?_, hx⟩
  simp only [exportFrom?_eq, shaped_some, exportHead?, behind_append, Option.bind_eq_bind,
    Option.bind_some, hskip, hstar, hbrace, hm]

/-! ## What is left of an import has its shape -/

/-- No quote is a slash or an asterisk, or ends a line. -/
theorem ne_of_isQuote {q : Char} (hq : isQuote q = true) :
    q ≠ '/' ∧ q ≠ '*' ∧ q ≠ '\n' ∧ q ≠ '\r' := by
  refine ⟨?_, ?_, ?_, ?_⟩ <;> rintro rfl <;> exact absurd hq (by decide)

/-- A quoted specifier is a token. -/
theorem Quoted.isToken {x w : List Char} (hw : Quoted x w) : IsToken w := by
  obtain ⟨q, q', hq, hq', rfl⟩ := hw.quotes
  obtain ⟨hslash, -, hnewline, hreturn⟩ := ne_of_isQuote hq
  refine ⟨⟨q, _, rfl, by simp [isPlainChar, hslash, hnewline, hreturn]⟩, fun n hn => ?_, ?_⟩
  · cases n with
    | zero =>
      rw [List.drop_zero]
      cases hx : x ++ [q'] with
      | nil => rfl
      | cons d x' => simp [opensBlock, hslash]
    | succ n =>
      rw [List.drop_succ_cons]
      by_cases hlt : n < x.length
      · have hopens := hw.noBlock n hlt
        rw [List.drop_append_of_le_length (Nat.le_of_lt hlt)]
        cases hx : x.drop n with
        | nil => rfl
        | cons c x' =>
          rw [hx] at hopens
          cases x' with
          | nil => simp [opensBlock, (ne_of_isQuote hq').2.1]
          | cons d x' => exact hopens
      · obtain rfl : n = x.length := by
          rw [List.length_cons, List.length_append, List.length_singleton] at hn
          omega
        rw [List.drop_left]
        rfl
  · rw [← List.cons_append, List.getLast?_concat]
    exact fun h => (ne_of_isQuote hq').1 (Option.some.inj h)

/-- A name is a token. -/
theorem isToken_name {a : List Char} (ha : a.all isNameChar = true) (hne : a ≠ []) :
    IsToken a := by
  refine .of_all (List.all_eq_true.2 fun c hc => ?_) hne
  have hname := List.all_eq_true.1 ha c hc
  simp only [isPlainChar, Bool.and_eq_true, bne_iff_ne]
  refine ⟨⟨?_, ?_⟩, ?_⟩ <;> rintro rfl <;> exact absurd hname (by decide +kernel)

/-- No character of a clause is a quote. -/
theorem isUnquoted_of_isClauseChar {c : Char} (h : isClauseChar c = true) :
    isUnquoted c = true := by
  rw [isUnquoted, Bool.not_eq_true', ← Bool.not_eq_true]
  intro hq
  rw [isQuote, Bool.or_eq_true, beq_iff_eq, beq_iff_eq] at hq
  obtain rfl | rfl := hq <;> exact absurd h (by decide +kernel)

/-- What ends in `from` and consists of characters for clauses is a clause. -/
theorem isClause_of_from {k b : List Char} (hk : ∀ c ∈ k, isClauseChar c = true) (hne : k ≠ [])
    (hb : ∀ c ∈ b, Text.isWhiteSpace c = true) :
    isClause (k ++ ("from".toList ++ b)) = true ∧
      ∀ c ∈ k ++ ("from".toList ++ b), isClauseChar c = true := by
  have hall : ∀ c ∈ k ++ ("from".toList ++ b), isClauseChar c = true := by
    intro c hc
    obtain hc | hc := List.mem_append.1 hc
    · exact hk c hc
    · obtain hc | hc := List.mem_append.1 hc
      · have hfrom : ∀ c ∈ "from".toList, isClauseChar c = true :=
          forall_mem_of_all (by decide +kernel)
        exact hfrom c hc
      · exact (classes_of_isWhiteSpace (hb c hc)).2.2.1
  refine ⟨?_, hall⟩
  have htrim : (k ++ ("from".toList ++ b)).reverse.dropWhile Text.isWhiteSpace =
      'm' :: 'o' :: 'r' :: 'f' :: k.reverse := by
    have hback : (k ++ ("from".toList ++ b)).reverse =
        b.reverse ++ 'm' :: ('o' :: 'r' :: 'f' :: k.reverse) := by simp
    have hm : ¬ Text.isWhiteSpace 'm' = true := by decide
    rw [hback, List.dropWhile_append_of_pos fun c hc => hb c (List.mem_reverse.1 hc),
      List.dropWhile_cons_of_neg hm]
  obtain ⟨c, k', hk'⟩ := List.exists_cons_of_ne_nil (List.reverse_ne_nil_iff.2 hne)
  rw [isClause_eq, htrim, hk', endsInFrom_reverse, List.all_eq_true.2 hall]
  exact Bool.or_true _

/-- What is left of an import that is plainly written has the shape of its kind. -/
theorem shape_of_written {x : List Char} {k : Kind} {w : List Piece} (hw : Written x k w)
    (h : Unblocks (w ++ after) u) (hu : LinesTidy last u) :
    ∃ m, k.shape (stripped u) = some m ∧ m.specifier = x := by
  have token (word : String) (hall : word.toList.all isPlainChar = true)
      (hne : word.toList ≠ []) : IsToken word.toList := .of_all hall hne
  cases hw <;> simp only [List.append_assoc] at h
  case bare g w hg hw =>
    obtain ⟨u₁, _, h₁, hu₁, hs₁⟩ := (token "import" rfl (by decide)).leaves h hu
    obtain ⟨b, u₂, _, -, -, hs₂, hb, -⟩ := hw.isToken.leaves_behind hg rfl rfl h₁ hu₁
    rw [hs₁, hs₂]
    have hclause : isClause b = true := by rw [isClause_eq, List.all_eq_true.2 hb, Bool.true_or]
    exact staticImport?_of_clause hclause
      (fun c hc => isUnquoted_of_isClauseChar (classes_of_isWhiteSpace (hb c hc)).2.2.1) hw _
  case clause k g w hk hne hg hw =>
    obtain ⟨u₁, _, h₁, hu₁, hs₁⟩ := (token "import" rfl (by decide)).leaves h hu
    obtain ⟨b, u₂, _, h₂, hu₂, hs₂, hb, hbne⟩ :=
      (token "from" rfl (by decide)).leaves_behind hk (by decide +kernel) (by decide) h₁ hu₁
    obtain ⟨b', u₃, _, -, -, hs₃, hb', -⟩ := hw.isToken.leaves_behind hg rfl rfl h₂ hu₂
    rw [hs₁, hs₂, hs₃]
    obtain ⟨hclause, hall⟩ := isClause_of_from hb (hbne hne) hb'
    have hshape := staticImport?_of_clause hclause
      (fun c hc => isUnquoted_of_isClauseChar (hall c hc)) hw (stripped u₃)
    rwa [List.append_assoc, List.append_assoc] at hshape
  case call g₁ g₂ g₃ w hg₁ hg₂ hg₃ hw =>
    obtain ⟨u₁, _, h₁, hu₁, hs₁⟩ := (token "import" rfl (by decide)).leaves h hu
    obtain ⟨b₁, u₂, _, h₂, hu₂, hs₂, hb₁, -⟩ :=
      (token "(" rfl (by decide)).leaves_behind hg₁ rfl rfl h₁ hu₁
    obtain ⟨b₂, u₃, _, h₃, hu₃, hs₃, hb₂, -⟩ := hw.isToken.leaves_behind hg₂ rfl rfl h₂ hu₂
    obtain ⟨b₃, u₄, _, -, -, hs₄, hb₃, -⟩ :=
      (token ")" rfl (by decide)).leaves_behind hg₃ rfl rfl h₃ hu₃
    rw [hs₁, hs₂, hs₃, hs₄]
    exact dynamicImport?_of_quoted hb₁ hb₂ hb₃ hw _
  case star g₁ g₂ g₃ w hg₁ hg₂ hg₃ hw =>
    obtain ⟨u₁, _, h₁, hu₁, hs₁⟩ := (token "export" rfl (by decide)).leaves h hu
    obtain ⟨b₁, u₂, _, h₂, hu₂, hs₂, hb₁, -⟩ :=
      (token "*" rfl (by decide)).leaves_behind hg₁ rfl rfl h₁ hu₁
    obtain ⟨b₂, u₃, _, h₃, hu₃, hs₃, hb₂, -⟩ :=
      (token "from" rfl (by decide)).leaves_behind hg₂ rfl rfl h₂ hu₂
    obtain ⟨b₃, u₄, _, -, -, hs₄, hb₃, -⟩ := hw.isToken.leaves_behind hg₃ rfl rfl h₃ hu₃
    rw [hs₁, hs₂, hs₃, hs₄]
    exact exportFrom?_of_star hb₁ hw (starHead?_of_from hb₂ hb₃ hw _)
  case whole g₁ g₂ g₃ g₄ g₅ a w hg₁ hg₂ hg₃ hne₃ ha hne hg₄ hne₄ hg₅ hw =>
    obtain ⟨u₁, _, h₁, hu₁, hs₁⟩ := (token "export" rfl (by decide)).leaves h hu
    obtain ⟨b₁, u₂, _, h₂, hu₂, hs₂, hb₁, -⟩ :=
      (token "*" rfl (by decide)).leaves_behind hg₁ rfl rfl h₁ hu₁
    obtain ⟨b₂, u₃, _, h₃, hu₃, hs₃, hb₂, -⟩ :=
      (token "as" rfl (by decide)).leaves_behind hg₂ rfl rfl h₂ hu₂
    obtain ⟨b₃, u₄, _, h₄, hu₄, hs₄, hb₃, hbne₃⟩ :=
      (isToken_name ha hne).leaves_behind hg₃ rfl rfl h₃ hu₃
    obtain ⟨b₄, u₅, _, h₅, hu₅, hs₅, hb₄, hbne₄⟩ :=
      (token "from" rfl (by decide)).leaves_behind hg₄ rfl rfl h₄ hu₄
    obtain ⟨b₅, u₆, _, -, -, hs₆, hb₅, -⟩ := hw.isToken.leaves_behind hg₅ rfl rfl h₅ hu₅
    rw [hs₁, hs₂, hs₃, hs₄, hs₅, hs₆]
    have hname := nameHead?_of_quoted hb₃ (hbne₃ hne₃) ha hne hb₄ (hbne₄ hne₄) hb₅ hw (stripped u₆)
    exact exportFrom?_of_star hb₁ hw (starHead?_of_as hb₂ hname)
  case named g₁ k g₂ g₃ w hg₁ hk hg₂ hg₃ hw =>
    obtain ⟨u₁, _, h₁, hu₁, hs₁⟩ := (token "export" rfl (by decide)).leaves h hu
    obtain ⟨b₁, u₂, _, h₂, hu₂, hs₂, hb₁, -⟩ :=
      (token "\x7b" rfl (by decide)).leaves_behind hg₁ rfl rfl h₁ hu₁
    obtain ⟨b₂, u₃, _, h₃, hu₃, hs₃, hb₂, -⟩ :=
      (token "\x7d" rfl (by decide)).leaves_behind hk (by decide +kernel) (by decide) h₂ hu₂
    obtain ⟨b₃, u₄, _, h₄, hu₄, hs₄, hb₃, -⟩ :=
      (token "from" rfl (by decide)).leaves_behind hg₂ rfl rfl h₃ hu₃
    obtain ⟨b₄, u₅, _, -, -, hs₅, hb₄, -⟩ := hw.isToken.leaves_behind hg₃ rfl rfl h₄ hu₄
    rw [hs₁, hs₂, hs₃, hs₄, hs₅]
    refine exportFrom?_of_brace hb₁ (fun c hc => ?_) hw (fromHead?_of_quoted hb₃ hb₄ hw _)
    exact bne_iff_ne.1 (Bool.and_eq_true_iff.1 (hb₂ c hc)).2

end ModuleLoader.TextScan
