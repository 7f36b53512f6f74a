import Mathlib.Data.List.TakeWhile
import ModuleLoader.Proofs.Imports.Searching

/-! # Blanks in the heads of shapes

The head of a shape reads on in the same way whichever blanks stand somewhere in a text.

* **`Exchangeable`** are the blanks, with what follows them.
* **`Blind`** is a head that passes the same of a text with either blanks.
* **`blind_staticHead`**, **`blind_dynamicHead`**, **`blind_exportHead`** say so of the three
  shapes. -/

namespace ModuleLoader.TextScan

/-- Blanks that can be exchanged before a text: there are some in both places, unless the text is at
its end there. -/
structure Exchangeable (v w rest : List Char) : Prop where
  left : ∀ c ∈ v, Text.isWhiteSpace c = true
  right : ∀ c ∈ w, Text.isWhiteSpace c = true
  nonempty : rest = [] ∨ v ≠ [] ∧ w ≠ []

/-! ## Classes of characters -/

/-- The codes of white space. -/
theorem toNat_of_isWhiteSpace {c : Char} (h : Text.isWhiteSpace c = true) :
    c.toNat ∈ [9, 10, 11, 12, 13, 32, 0x85, 0xA0, 0x1680, 0x2028, 0x2029, 0x202F, 0x205F, 0x3000] ++
      List.range' 0x2000 11 := by
  simp only [Text.isWhiteSpace, Bool.or_eq_true, beq_iff_eq, Bool.and_eq_true,
    decide_eq_true_eq] at h
  simp only [List.mem_append, List.mem_cons, List.mem_range'_1, List.not_mem_nil, or_false]
  omega

/-- White space is in no name, and no quote; it may stand in a clause and before any import. -/
theorem classes_of_isWhiteSpace {c : Char} (h : Text.isWhiteSpace c = true) :
    isNameChar c = false ∧ isQuote c = false ∧ isClauseChar c = true ∧
      beforeDeclaration c = true ∧ beforeCall c = true := by
  have hcodes : ∀ n ∈ [9, 10, 11, 12, 13, 32, 0x85, 0xA0, 0x1680, 0x2028, 0x2029, 0x202F, 0x205F,
      0x3000] ++ List.range' 0x2000 11, isNameChar (Char.ofNat n) = false ∧
        isQuote (Char.ofNat n) = false ∧ isClauseChar (Char.ofNat n) = true ∧
        beforeDeclaration (Char.ofNat n) = true ∧ beforeCall (Char.ofNat n) = true := by
    decide +kernel
  have hcode := hcodes c.toNat (toNat_of_isWhiteSpace h)
  rwa [Char.ofNat_toNat] at hcode

/-! ## Runs of characters -/

section Runs

variable {p : Char → Bool} {u : List Char}

/-- A run of characters that ends within a text does not depend on what follows. -/
theorem span_append (h : u.dropWhile p ≠ []) (x : List Char) :
    (u ++ x).takeWhile p = u.takeWhile p ∧ (u ++ x).dropWhile p = u.dropWhile p ++ x := by
  constructor
  · rw [List.takeWhile_append, if_neg]
    intro hlength
    have hsplit := congrArg List.length (List.takeWhile_append_dropWhile (p := p) (l := u))
    rw [List.length_append, hlength] at hsplit
    exact h (List.length_eq_zero_iff.1 (by omega))
  · rw [List.dropWhile_append, if_neg (mt List.isEmpty_iff.1 h)]

/-- A run of characters ends with a text at the latest if none comes next. -/
theorem span_append_of_head? {x : List Char} (hx : ∀ c ∈ x.head?, p c = false) (u : List Char) :
    (u ++ x).takeWhile p = u.takeWhile p ∧ (u ++ x).dropWhile p = u.dropWhile p ++ x := by
  by_cases hu : u.dropWhile p = []
  · have hends : x.takeWhile p = [] ∧ x.dropWhile p = x := by
      cases x with
      | nil => exact ⟨rfl, rfl⟩
      | cons c x =>
        have hc : ¬ p c = true := hx c rfl ▸ Bool.false_ne_true
        exact ⟨List.takeWhile_cons_of_neg hc, List.dropWhile_cons_of_neg hc⟩
    have hall : ∀ c ∈ u, p c = true := List.dropWhile_eq_nil_iff.1 hu
    rw [List.takeWhile_append_of_pos hall, List.dropWhile_append_of_pos hall, hends.1, hends.2, hu,
      List.takeWhile_eq_self_iff.2 hall, List.append_nil]
    exact ⟨rfl, rfl⟩
  · exact span_append hu x

/-- Passing blanks that end within a text does not depend on what follows. -/
theorem skipSpace_append_of_ne_nil (h : skipSpace u ≠ []) (x : List Char) :
    skipSpace (u ++ x) = skipSpace u ++ x :=
  (span_append h x).2

end Runs

variable {v w rest : List Char}

/-! ## Reading with either blanks -/

/-- What comes of reading a text, the text with some blanks and more behind it, and with other
blanks: the two longer texts are read in the same way. -/
inductive Agree (v w rest : List Char) :
    Option (List Char) → Option (List Char) → Option (List Char) → Prop
  /-- Neither can be read. -/
  | none {o : Option (List Char)} : Agree v w rest o none none
  /-- Both are read up to the same place before the blanks, as is the shorter text. -/
  | within (u : List Char) :
    Agree v w rest (some u) (some (u ++ (v ++ rest))) (some (u ++ (w ++ rest)))
  /-- Both are read up to the same place behind the blanks. -/
  | beyond {o : Option (List Char)} {r : List Char} (h : r.length ≤ rest.length) :
    Agree v w rest o (some r) (some r)

/-- A head reads on in the same way with either blanks. -/
def Blind (v w rest : List Char) (head? : List Char → Option (List Char)) : Prop :=
  ∀ u, Agree v w rest (head? u) (head? (u ++ (v ++ rest))) (head? (u ++ (w ++ rest)))

/-- What is read the same way can be read on. -/
theorem Agree.bind {a b c : Option (List Char)} {head? : List Char → Option (List Char)}
    (h : Agree v w rest a b c) (hhead : Blind v w rest head?) (hpasses : Passes head?) :
    Agree v w rest (a.bind head?) (b.bind head?) (c.bind head?) := by
  cases h with
  | none => exact .none
  | within u => exact hhead u
  | @beyond _ r hr =>
    rw [Option.bind_some]
    cases hread : head? r with
    | none => exact .none
    | some r' => exact .beyond (Nat.le_trans (hpasses r r' hread).length_le hr)

/-- Reading on is as blind as its parts. -/
theorem Blind.bind {head? next? : List Char → Option (List Char)} (h : Blind v w rest head?)
    (hnext : Blind v w rest next?) (hpasses : Passes next?) :
    Blind v w rest fun cs => (head? cs).bind next? :=
  fun u => (h u).bind hnext hpasses

/-- Passing blanks is blind. -/
theorem blind_skipSpace (e : Exchangeable v w rest) :
    Blind v w rest fun cs => some (skipSpace cs) := by
  intro u
  have hskip {x : List Char} (hx : ∀ c ∈ x, Text.isWhiteSpace c = true) :
      skipSpace (u ++ (x ++ rest)) =
        if (skipSpace u).isEmpty then skipSpace rest else skipSpace u ++ (x ++ rest) := by
    rw [skipSpace, List.dropWhile_append, List.dropWhile_append_of_pos hx]
    rfl
  dsimp only
  rw [hskip e.left, hskip e.right]
  split
  · exact .beyond (skipSpace_suffix rest).length_le
  · exact .within _

/-- Passing a word is blind if there are no blanks in it. -/
theorem blind_behind (e : Exchangeable v w rest) (word : String)
    (hword : ∀ c ∈ word.toList, Text.isWhiteSpace c = false) : Blind v w rest (behind word) := by
  intro u
  by_cases hu : word.toList <+: u
  · obtain ⟨u, rfl⟩ := hu
    have hbehind (x : List Char) : behind word (word.toList ++ u ++ x) = some (u ++ x) :=
      behind_eq_some_iff.2 (List.append_assoc ..)
    rw [hbehind, hbehind, behind_eq_some_iff.2 rfl]
    exact .within u
  · -- the word would go on in the blanks
    have hnone {x : List Char} (hx : ∀ c ∈ x, Text.isWhiteSpace c = true)
        (hnonempty : rest = [] ∨ x ≠ []) : behind word (u ++ (x ++ rest)) = none := by
      rw [← Option.not_isSome_iff_eq_none]
      intro hsome
      obtain ⟨r, hr⟩ := Option.isSome_iff_exists.1 hsome
      obtain ⟨a, hwa, hxa⟩ | ⟨a, hua, -⟩ := List.append_eq_append_iff.1 (behind_eq_some_iff.1 hr)
      · cases a with
        | nil => exact hu ⟨[], by rw [hwa, List.append_nil, List.append_nil]⟩
        | cons c a =>
          cases x with
          | nil =>
            obtain rfl := hnonempty.resolve_right (fun h => h rfl)
            exact nomatch hxa
          | cons d x =>
            obtain ⟨rfl, -⟩ := List.cons.inj hxa
            have hc := hword d (hwa ▸ List.mem_append_right u List.mem_cons_self)
            exact absurd (hx d List.mem_cons_self) (by rw [hc]; exact Bool.false_ne_true)
      · exact hu ⟨a, hua.symm⟩
    rw [hnone e.left (e.nonempty.imp_right And.left),
      hnone e.right (e.nonempty.imp_right And.right)]
    exact .none

/-- A text behind a word, if it starts with it, is read in one way, and all of it in another
otherwise. -/
theorem Blind.branch (e : Exchangeable v w rest) (word : String)
    {then? else? : List Char → Option (List Char)} (hne : word.toList ≠ [])
    (hword : ∀ c ∈ word.toList, Text.isWhiteSpace c = false) (hthen : Blind v w rest then?)
    (hpasses : Passes then?) (helse : Blind v w rest else?) :
    Blind v w rest fun cs =>
      match behind word (skipSpace cs) with
      | some r => then? r
      | none => else? cs := by
  intro u
  have hbehind : Blind v w rest fun cs => (some (skipSpace cs)).bind (behind word) :=
    (blind_skipSpace e).bind (blind_behind e word hword) fun _ _ h => behind_suffix h
  have hu := hbehind u
  simp only [Option.bind_some] at hu
  -- what starts with the word does so with more behind it
  have hmore (x : List Char) (h : behind word (skipSpace (u ++ x)) = none) :
      behind word (skipSpace u) = none := by
    rw [← Option.not_isSome_iff_eq_none]
    intro hsome
    obtain ⟨r, hr⟩ := Option.isSome_iff_exists.1 hsome
    have hskip := behind_eq_some_iff.1 hr
    have hnonempty : skipSpace u ≠ [] := by
      rw [hskip]
      exact List.append_ne_nil_of_left_ne_nil hne r
    have hlong : skipSpace (u ++ x) = word.toList ++ (r ++ x) := by
      rw [skipSpace_append_of_ne_nil hnonempty, hskip, List.append_assoc]
    exact nomatch h.symm.trans (behind_eq_some_iff.2 hlong)
  dsimp only
  generalize hv : behind word (skipSpace (u ++ (v ++ rest))) = b at hu
  generalize hw : behind word (skipSpace (u ++ (w ++ rest))) = c at hu
  generalize ha : behind word (skipSpace u) = a at hu
  cases hu with
  | none =>
    rw [hmore _ hv] at ha
    subst ha
    exact helse u
  | within u' => exact hthen u'
  | @beyond _ r hr =>
    dsimp only
    cases hread : then? r with
    | none => exact .none
    | some r' => exact .beyond (Nat.le_trans (hpasses r r' hread).length_le hr)

/-! ## The heads of the shapes -/

/-- A clause is blank, or consists of its characters and ends in `from` and blanks. -/
theorem isClause_eq (cs : List Char) :
    isClause cs = (cs.all Text.isWhiteSpace ||
      endsInFrom (cs.reverse.dropWhile Text.isWhiteSpace).reverse && cs.all isClauseChar) := by
  unfold isClause endsInFrom
  cases cs.all Text.isWhiteSpace with
  | true => rfl
  | false =>
    rw [List.reverse_reverse, if_neg Bool.false_ne_true, Bool.false_or]
    dsimp only
    cases cs.all isClauseChar with
    | true => exact (Bool.and_true _).symm
    | false =>
      rw [Bool.and_false]
      split <;> rfl

/-- Whether a text ends in `from` is told by its last five characters. -/
theorem endsInFrom_reverse (a b c d f : Char) (t : List Char) :
    endsInFrom (a :: b :: c :: d :: f :: t).reverse =
      (a == 'm' && b == 'o' && c == 'r' && d == 'f') := by
  rw [endsInFrom, List.reverse_reverse]
  split
  · next h =>
    simp only [List.cons.injEq] at h
    obtain ⟨rfl, rfl, rfl, rfl, -, -⟩ := h
    rfl
  · next h =>
    symm
    rw [Bool.eq_false_iff]
    intro hall
    simp only [Bool.and_eq_true, beq_iff_eq] at hall
    obtain ⟨⟨⟨rfl, rfl⟩, rfl⟩, rfl⟩ := hall
    exact h f t rfl

/-- Whether a text ends in `from` does not depend on blanks in it, if it does not end in them. -/
theorem endsInFrom_exchange (hv : ∀ c ∈ v, Text.isWhiteSpace c = true) (hv' : v ≠ [])
    (hw : ∀ c ∈ w, Text.isWhiteSpace c = true) (hw' : w ≠ []) (u : List Char) {t : List Char}
    (ht : t ≠ []) : endsInFrom (u ++ (v ++ t.reverse)) = endsInFrom (u ++ (w ++ t.reverse)) := by
  -- the last of the blanks is none of the letters
  have hlast {x : List Char} (hx : ∀ c ∈ x, Text.isWhiteSpace c = true) (hx' : x ≠ []) :
      ∃ y ys, x.reverse = y :: ys ∧ y ≠ 'o' ∧ y ≠ 'r' ∧ y ≠ 'f' := by
    obtain ⟨y, ys, hy⟩ := List.exists_cons_of_ne_nil (List.reverse_ne_nil_iff.2 hx')
    have hspace := hx y (List.mem_reverse.1 (hy ▸ List.mem_cons_self))
    refine ⟨y, ys, hy, ?_, ?_, ?_⟩ <;> rintro rfl <;> exact absurd hspace (by decide)
  obtain ⟨y, ys, hy, hyo, hyr, hyf⟩ := hlast hv hv'
  obtain ⟨z, zs, hz, hzo, hzr, hzf⟩ := hlast hw hw'
  have hback {x : List Char} {y : Char} {ys : List Char} (hx : x.reverse = y :: ys) :
      u ++ (x ++ t.reverse) = (t ++ y :: (ys ++ u.reverse)).reverse := by
    rw [← List.cons_append, ← hx]
    simp
  rw [hback hy, hback hz]
  match t, ht with
  | [a], _ => simp [endsInFrom, hyo, hzo]
  | [a, b], _ => simp [endsInFrom, hyr, hzr]
  | [a, b, c], _ => simp [endsInFrom, hyf, hzf]
  | [a, b, c, d], _ => exact (endsInFrom_reverse ..).trans (endsInFrom_reverse ..).symm
  | a :: b :: c :: d :: f :: t, _ =>
    exact (endsInFrom_reverse ..).trans (endsInFrom_reverse ..).symm

/-- Whether a text is a clause does not depend on blanks in it. -/
theorem isClause_exchange (e : Exchangeable v w rest) (u : List Char) :
    isClause (u ++ (v ++ rest)) = isClause (u ++ (w ++ rest)) := by
  have hall {p : Char → Bool} {x : List Char} (hp : ∀ c, Text.isWhiteSpace c = true → p c = true)
      (hx : ∀ c ∈ x, Text.isWhiteSpace c = true) :
      (u ++ (x ++ rest)).all p = (u.all p && rest.all p) := by
    have hx' : x.all p = true := List.all_eq_true.2 fun c hc => hp c (hx c hc)
    rw [List.all_append, List.all_append, hx', Bool.true_and]
  -- blanks are at the end of the clause only if there is nothing else behind them
  have htrim {x : List Char} (hx : ∀ c ∈ x, Text.isWhiteSpace c = true) :
      (u ++ (x ++ rest)).reverse.dropWhile Text.isWhiteSpace =
        if (rest.reverse.dropWhile Text.isWhiteSpace).isEmpty then
          u.reverse.dropWhile Text.isWhiteSpace
        else rest.reverse.dropWhile Text.isWhiteSpace ++ (x.reverse ++ u.reverse) := by
    rw [List.reverse_append, List.reverse_append, List.append_assoc, List.dropWhile_append,
      List.dropWhile_append_of_pos fun c hc => hx c (List.mem_reverse.1 hc)]
  have hclause : ∀ c, Text.isWhiteSpace c = true → isClauseChar c = true :=
    fun c hc => (classes_of_isWhiteSpace hc).2.2.1
  rw [isClause_eq, isClause_eq, hall (fun _ h => h) e.left, hall (fun _ h => h) e.right,
    hall hclause e.left, hall hclause e.right, htrim e.left, htrim e.right]
  split
  · rfl
  · next hne =>
    rw [List.isEmpty_iff] at hne
    have hrest : rest ≠ [] := by
      rintro rfl
      exact hne rfl
    obtain ⟨hv', hw'⟩ := e.nonempty.resolve_left hrest
    have hsame := endsInFrom_exchange e.left hv' e.right hw' u hne
    simp only [List.reverse_append, List.reverse_reverse, List.append_assoc, hsame]

theorem blind_clauseHead (e : Exchangeable v w rest) : Blind v w rest clauseHead? := by
  intro u
  by_cases hu : u.dropWhile isUnquoted = []
  · -- the clause goes on behind the blanks
    have hall {x : List Char} (hx : ∀ c ∈ x, Text.isWhiteSpace c = true) :
        ∀ c ∈ u ++ x, isUnquoted c = true := by
      intro c hc
      obtain hc | hc := List.mem_append.1 hc
      · exact List.dropWhile_eq_nil_iff.1 hu c hc
      · rw [isUnquoted, (classes_of_isWhiteSpace (hx c hc)).2.1]
        rfl
    have hread {x : List Char} (hx : ∀ c ∈ x, Text.isWhiteSpace c = true) :
        clauseHead? (u ++ (x ++ rest)) =
          if (rest.dropWhile isUnquoted).isEmpty then none
          else if isClause (u ++ (x ++ rest.takeWhile isUnquoted)) then
            some (rest.dropWhile isUnquoted)
          else none := by
      rw [← List.append_assoc, ← List.append_assoc, clauseHead?,
        List.dropWhile_append_of_pos (hall hx), List.takeWhile_append_of_pos (hall hx)]
      cases rest.dropWhile isUnquoted <;> rfl
    have e' : Exchangeable v w (rest.takeWhile isUnquoted) :=
      ⟨e.left, e.right, e.nonempty.imp_left fun h => by rw [h]; rfl⟩
    rw [hread e.left, hread e.right, isClause_exchange e' u]
    split
    · exact .none
    · split
      · exact .beyond (List.dropWhile_suffix _).length_le
      · exact .none
  · obtain ⟨q, u', hu'⟩ := List.exists_cons_of_ne_nil hu
    have hread (x : List Char) : clauseHead? (u ++ x) =
        if isClause (u.takeWhile isUnquoted) then some (q :: u' ++ x) else none := by
      obtain ⟨htake, hdrop⟩ := span_append hu x
      rw [clauseHead?, hdrop, htake, hu']
      rfl
    have hself := hread []
    rw [List.append_nil, List.append_nil] at hself
    rw [hself, hread, hread]
    split
    · exact .within _
    · exact .none

/-- The head of an import declaration is blind. -/
theorem blind_staticHead (e : Exchangeable v w rest) : Blind v w rest staticHead? :=
  (blind_behind e "import" (forall_mem_of_all rfl)).bind (blind_clauseHead e) passes_clauseHead

theorem blind_fromHead (e : Exchangeable v w rest) : Blind v w rest fromHead? :=
  ((blind_skipSpace e).bind (blind_behind e "from" (forall_mem_of_all rfl))
    fun _ _ h => behind_suffix h).bind (blind_skipSpace e) fun _ _ h => Option.some.inj h ▸ skipSpace_suffix _

theorem blind_closing (e : Exchangeable v w rest) : Blind v w rest closing? :=
  (blind_skipSpace e).bind (blind_behind e ")" (forall_mem_of_all rfl)) fun _ _ h => behind_suffix h

/-- The head of an `import()` is blind. -/
theorem blind_dynamicHead (e : Exchangeable v w rest) : Blind v w rest dynamicHead? := by
  have himport := (blind_behind e "import" (forall_mem_of_all rfl)).bind (blind_skipSpace e)
    fun _ _ h => Option.some.inj h ▸ skipSpace_suffix _
  have hparen := himport.bind (blind_behind e "(" (forall_mem_of_all rfl))
    fun _ _ h => behind_suffix h
  have hhead := hparen.bind (blind_skipSpace e) fun _ _ h => Option.some.inj h ▸ skipSpace_suffix _
  have heq : dynamicHead? = fun cs =>
      (((behind "import" cs).bind fun cs => some (skipSpace cs)).bind (behind "(")).bind
        fun cs => some (skipSpace cs) := by
    funext cs
    unfold dynamicHead?
    cases behind "import" cs <;> rfl
  rw [heq]
  exact hhead

theorem blind_braceHead (e : Exchangeable v w rest) : Blind v w rest braceHead? := by
  intro u
  by_cases hu : u.dropWhile (· != '\x7d') = []
  · -- the brace is closed behind the blanks
    have hall {x : List Char} (hx : ∀ c ∈ x, Text.isWhiteSpace c = true) :
        ∀ c ∈ u ++ x, (c != '\x7d') = true := by
      intro c hc
      obtain hc | hc := List.mem_append.1 hc
      · exact List.dropWhile_eq_nil_iff.1 hu c hc
      · refine bne_iff_ne.2 ?_
        rintro rfl
        exact absurd (hx _ hc) (by decide)
    have hread {x : List Char} (hx : ∀ c ∈ x, Text.isWhiteSpace c = true) :
        braceHead? (u ++ (x ++ rest)) = braceHead? rest := by
      rw [← List.append_assoc, braceHead?, List.dropWhile_append_of_pos (hall hx), braceHead?]
    rw [hread e.left, hread e.right]
    cases hrest : braceHead? rest with
    | none => exact .none
    | some r => exact .beyond (passes_braceHead _ _ hrest).length_le
  · -- the brace is closed before the blanks
    obtain ⟨c, u', hu'⟩ := List.exists_cons_of_ne_nil hu
    have hread (x : List Char) : braceHead? (u ++ x) = fromHead? (u' ++ x) := by
      rw [braceHead?, (span_append hu x).2, hu']
      rfl
    have hself := hread []
    rw [List.append_nil, List.append_nil] at hself
    rw [hself, hread, hread]
    exact blind_fromHead e u'

theorem blind_behindName (e : Exchangeable v w rest) (name : List Char) :
    Blind v w rest (behindName? name) := by
  have helse : Blind v w rest fun cs => if endsInFrom name then some (skipSpace cs) else none := by
    intro u
    dsimp only
    split
    · exact blind_skipSpace e u
    · exact .none
  exact Blind.branch e "from" (by decide) (forall_mem_of_all rfl) (blind_skipSpace e)
    (fun _ _ h => Option.some.inj h ▸ skipSpace_suffix _) helse

/-- The head reads the name from behind the blanks when there is nothing else before them. -/
theorem nameHead?_behind_blanks {u x : List Char} (hu : skipSpace u = [])
    (hx : ∀ c ∈ x, Text.isWhiteSpace c = true) (hnonempty : rest = [] ∨ x ≠ []) :
    nameHead? (u ++ (x ++ rest)) =
      if ((skipSpace rest).takeWhile isNameChar).isEmpty then none
      else behindName? ((skipSpace rest).takeWhile isNameChar)
        ((skipSpace rest).dropWhile isNameChar) := by
  have hskip : skipSpace (u ++ (x ++ rest)) = skipSpace rest := by
    rw [skipSpace, List.dropWhile_append, ← skipSpace, hu, if_pos List.isEmpty_nil,
      List.dropWhile_append_of_pos hx, skipSpace]
  rw [nameHead?, hskip]
  obtain rfl | hx' := hnonempty
  · exact if_pos (Bool.or_true _)
  · have hlong : ((skipSpace rest).length == (u ++ (x ++ rest)).length) = false := by
      have := List.length_pos_iff.2 hx'
      have := (skipSpace_suffix rest).length_le
      rw [List.length_append, List.length_append, beq_eq_false_iff_ne]
      omega
    rw [hlong, Bool.false_or]

/-- The head reads the name from before the blanks when there is anything but blanks there. -/
theorem nameHead?_before_blanks {u x : List Char} (hu : skipSpace u ≠ [])
    (hx : ∀ c ∈ x, Text.isWhiteSpace c = true) (hnonempty : rest = [] ∨ x ≠ []) :
    nameHead? (u ++ (x ++ rest)) =
      if (skipSpace u).length == u.length || ((skipSpace u).takeWhile isNameChar).isEmpty then none
      else behindName? ((skipSpace u).takeWhile isNameChar)
        ((skipSpace u).dropWhile isNameChar ++ (x ++ rest)) := by
  -- the name ends before the blanks, or with the text
  have hends : ∀ c ∈ (x ++ rest).head?, isNameChar c = false := by
    cases x with
    | nil =>
      obtain rfl := hnonempty.resolve_right (fun h => h rfl)
      exact nofun
    | cons c x =>
      rintro _ ⟨⟩
      exact (classes_of_isWhiteSpace (hx c List.mem_cons_self)).1
  obtain ⟨htake, hdrop⟩ := span_append_of_head? hends (skipSpace u)
  have hlength : ((skipSpace u ++ (x ++ rest)).length == (u ++ (x ++ rest)).length) =
      ((skipSpace u).length == u.length) := by
    rw [Bool.eq_iff_iff, beq_iff_eq, beq_iff_eq]
    simp only [List.length_append]
    omega
  rw [nameHead?, skipSpace_append_of_ne_nil hu, htake, hdrop, hlength]

theorem blind_nameHead (e : Exchangeable v w rest) : Blind v w rest nameHead? := by
  intro u
  have hv := e.nonempty.imp_right And.left
  have hw := e.nonempty.imp_right And.right
  by_cases hu : skipSpace u = []
  · rw [nameHead?_behind_blanks hu e.left hv, nameHead?_behind_blanks hu e.right hw]
    split
    · exact .none
    · cases hname : behindName? ((skipSpace rest).takeWhile isNameChar)
        ((skipSpace rest).dropWhile isNameChar) with
      | none => exact .none
      | some r =>
        exact .beyond ((passes_behindName _ _ _ hname).trans
          ((List.dropWhile_suffix _).trans (skipSpace_suffix rest))).length_le
  · rw [nameHead?_before_blanks hu e.left hv, nameHead?_before_blanks hu e.right hw, nameHead?]
    split
    · exact .none
    · exact blind_behindName e _ _

theorem blind_starHead (e : Exchangeable v w rest) : Blind v w rest starHead? :=
  Blind.branch e "as" (by decide) (forall_mem_of_all rfl) (blind_nameHead e) passes_nameHead
    (blind_fromHead e)

/-- The head of an export from another module is blind. -/
theorem blind_exportHead (e : Exchangeable v w rest) : Blind v w rest exportHead? := by
  have hbrace : Blind v w rest fun cs =>
      ((some (skipSpace cs)).bind (behind "\x7b")).bind braceHead? :=
    ((blind_skipSpace e).bind (blind_behind e "\x7b" (forall_mem_of_all rfl))
      fun _ _ h => behind_suffix h).bind (blind_braceHead e) passes_braceHead
  have hinner := Blind.branch e "*" (by decide) (forall_mem_of_all rfl) (blind_starHead e)
    passes_starHead hbrace
  refine (blind_behind e "export" (forall_mem_of_all rfl)).bind hinner ?_
  intro cs rest h
  dsimp only at h
  split at h
  · next hstar =>
    exact (passes_starHead _ _ h).trans ((behind_suffix hstar).trans (skipSpace_suffix cs))
  · obtain ⟨cs'', hbrace, h⟩ := Option.bind_eq_some_iff.1 h
    exact (passes_braceHead _ _ h).trans ((behind_suffix hbrace).trans (skipSpace_suffix cs))

end ModuleLoader.TextScan
