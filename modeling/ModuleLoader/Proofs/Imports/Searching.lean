import ModuleLoader.Imports.TextScan

/-! # How a text is searched

Each shape of an import has a head, which is all that stands before the quote of its specifier; the
quoted specifier; and what has to stand behind it. A search goes through the text and looks for the
shape behind each character, and goes on behind what it has found.

* **`staticHead?`**, **`dynamicHead?`**, **`exportHead?`** pass the heads of the three shapes, and
  **`staticImport?_eq`** and its companions say that the shapes start by them.
* **`Finds`** is a search step by step; **`finds_searchFrom`** says that the search takes these
  steps.
* **`Finds.exists_mem`** says what becomes of a place where the shape stands. -/

namespace ModuleLoader.TextScan

/-! ## Heads -/

/-- The character is no quote. -/
def isUnquoted (c : Char) : Bool := !isQuote c

/-- What stands between `import` and the specifier of a declaration. -/
def clauseHead? (cs : List Char) : Option (List Char) :=
  match cs.dropWhile isUnquoted with
  | [] => none
  | q :: rest => if isClause (cs.takeWhile isUnquoted) then some (q :: rest) else none

/-- An import declaration up to its specifier. -/
def staticHead? (cs : List Char) : Option (List Char) := do clauseHead? (← behind "import" cs)

/-- An `import()` up to its specifier. -/
def dynamicHead? (cs : List Char) : Option (List Char) := do
  let cs ← behind "import" cs
  let cs ← behind "(" (skipSpace cs)
  return skipSpace cs

/-- The `from` of an export. -/
def fromHead? (cs : List Char) : Option (List Char) := do
  let cs ← behind "from" (skipSpace cs)
  return skipSpace cs

/-- A name of characters for names ends in the `from` that is needed, and is longer. -/
def endsInFrom (name : List Char) : Bool :=
  match name.reverse with
  | 'm' :: 'o' :: 'r' :: 'f' :: _ :: _ => true
  | _ => false

/-- What stands between the name behind `as` and the specifier. -/
def behindName? (name cs : List Char) : Option (List Char) :=
  match behind "from" (skipSpace cs) with
  | some rest => some (skipSpace rest)
  | none => if endsInFrom name then some (skipSpace cs) else none

/-- What stands between `as` and the specifier. -/
def nameHead? (cs : List Char) : Option (List Char) :=
  let name := (skipSpace cs).takeWhile isNameChar
  if (skipSpace cs).length == cs.length || name.isEmpty then none
  else behindName? name ((skipSpace cs).dropWhile isNameChar)

/-- What stands between the asterisk and the specifier of an export. -/
def starHead? (cs : List Char) : Option (List Char) :=
  match behind "as" (skipSpace cs) with
  | some rest => nameHead? rest
  | none => fromHead? cs

/-- What stands between the opening brace and the specifier of an export. -/
def braceHead? (cs : List Char) : Option (List Char) :=
  match cs.dropWhile (· != '\x7d') with
  | _ :: rest => fromHead? rest
  | [] => none

/-- An export from another module up to its specifier. -/
def exportHead? (cs : List Char) : Option (List Char) := do
  let cs ← behind "export" cs
  match behind "*" (skipSpace cs) with
  | some rest => starHead? rest
  | none => braceHead? (← behind "\x7b" (skipSpace cs))

/-- A shape with a head, a quoted specifier, and something behind it. -/
def shaped (head? behind? : List Char → Option (List Char)) (cs : List Char) : Option Match := do
  let m ← quoted? (← head? cs)
  let after ← behind? m.after
  return { m with after }

/-- The parenthesis behind the specifier of an `import()`. -/
def closing? (cs : List Char) : Option (List Char) := behind ")" (skipSpace cs)

/-- A shape with nothing behind the specifier. -/
theorem shaped_some (head? : List Char → Option (List Char)) (cs : List Char) :
    shaped head? some cs = (head? cs).bind quoted? := by
  unfold shaped
  cases head? cs with
  | none => rfl
  | some rest => cases h : quoted? rest <;> simp [h]

/-- An import declaration is its head and a quoted specifier. -/
theorem staticImport?_eq (cs : List Char) : staticImport? cs = shaped staticHead? some cs := by
  rw [shaped_some]
  unfold staticImport? staticHead? clauseHead? isUnquoted
  cases behind "import" cs with
  | none => rfl
  | some cs =>
    dsimp only [Option.bind_eq_bind, Option.bind_some]
    cases cs.dropWhile (fun c => !isQuote c) with
    | nil => split <;> rfl
    | cons q rest =>
      dsimp only
      split <;> rfl

/-- An `import()` is its head, a quoted specifier and a parenthesis. -/
theorem dynamicImport?_eq (cs : List Char) :
    dynamicImport? cs = shaped dynamicHead? closing? cs := by
  unfold dynamicImport? shaped dynamicHead? closing?
  cases behind "import" cs with
  | none => rfl
  | some cs =>
    dsimp only [Option.bind_eq_bind, Option.bind_some]
    cases behind "(" (skipSpace cs) <;> rfl

/-- A text that does not start with a quote is no specifier. -/
theorem quoted?_eq_none {c : Char} {cs : List Char} (h : isQuote c = false) :
    quoted? (c :: cs) = none := by
  rw [quoted?, h]
  rfl

/-- What a word is followed by. -/
theorem behind_eq_some_iff {word : String} {cs rest : List Char} :
    behind word cs = some rest ↔ cs = word.toList ++ rest := by
  unfold behind
  constructor
  · intro h
    split at h
    · next hprefix =>
      obtain ⟨cs', rfl⟩ := List.isPrefixOf_iff_prefix.1 hprefix
      rw [← Option.some.inj h, ← String.length_toList, List.drop_left]
    · exact nomatch h
  · rintro rfl
    rw [if_pos (List.isPrefixOf_iff_prefix.2 (List.prefix_append _ _)), ← String.length_toList,
      List.drop_left]

/-- A text that starts with a word does so by the first character of it. -/
theorem head?_of_behind {word : String} {c : Char} {x cs rest : List Char}
    (hword : word.toList = c :: x) (h : behind word cs = some rest) : ∃ cs', cs = c :: cs' :=
  ⟨x ++ rest, by rw [behind_eq_some_iff.1 h, hword]; rfl⟩

/-- The `from` of an export is its head, and a quoted specifier. -/
theorem fromQuoted?_eq (cs : List Char) : fromQuoted? cs = (fromHead? cs).bind quoted? := by
  unfold fromQuoted? fromHead?
  cases behind "from" (skipSpace cs) <;> rfl

/-- Nothing comes after a choice without another one. -/
theorem orElse_none {α : Type} (o : Option α) : (o <|> none) = o := by
  cases o <;> rfl

/-- What stands behind the name of a star export. -/
theorem nameQuoted?_eq (name after : List Char) :
    (fromQuoted? after <|>
      match name.reverse with
      | 'm' :: 'o' :: 'r' :: 'f' :: _ :: _ => quoted? (skipSpace after)
      | _ => none) =
    (behindName? name after).bind quoted? := by
  unfold behindName?
  cases hfrom : behind "from" (skipSpace after) with
  | none =>
    have hnone : fromQuoted? after = none := by
      rw [fromQuoted?, hfrom]
      rfl
    rw [hnone]
    unfold endsInFrom
    dsimp only
    split <;> rfl
  | some rest =>
    have hquoted : fromQuoted? after = quoted? (skipSpace rest) := by
      rw [fromQuoted?, hfrom]
      rfl
    -- the specifier cannot start right here, since `from` does
    obtain ⟨cs, hcs⟩ := head?_of_behind rfl hfrom
    have hnone : quoted? (skipSpace after) = none := by
      rw [hcs]
      exact quoted?_eq_none (by decide)
    rw [hquoted, hnone]
    dsimp only [Option.bind_some]
    split <;> exact orElse_none _

/-- What stands behind the asterisk of an export. -/
theorem renamedFrom?_eq (cs : List Char) :
    (renamedFrom? cs <|> fromQuoted? cs) = (starHead? cs).bind quoted? := by
  unfold renamedFrom? starHead?
  cases has : behind "as" (skipSpace cs) with
  | none => exact fromQuoted?_eq cs
  | some rest =>
    obtain ⟨cs', hcs⟩ := head?_of_behind rfl has
    have hnone : fromQuoted? cs = none := by
      rw [fromQuoted?, hcs]
      rfl
    dsimp only [Option.bind_eq_bind, Option.bind_some]
    rw [hnone, nameHead?]
    split
    · rfl
    · exact (orElse_none _).trans (nameQuoted?_eq _ _)

/-- An export from another module is its head and a quoted specifier. -/
theorem exportFrom?_eq (cs : List Char) : exportFrom? cs = shaped exportHead? some cs := by
  rw [shaped_some]
  unfold exportFrom? exportHead?
  cases behind "export" cs with
  | none => rfl
  | some cs =>
    dsimp only [Option.bind_eq_bind, Option.bind_some]
    cases skipSpace cs with
    | nil => rfl
    | cons c rest =>
      by_cases hstar : c = '*'
      · have hbehind : behind "*" (c :: rest) = some rest := behind_eq_some_iff.2 (hstar ▸ rfl)
        subst hstar
        rw [hbehind]
        exact renamedFrom?_eq rest
      · have hnostar : behind "*" (c :: rest) = none := if_neg (by simp [Ne.symm hstar])
        rw [hnostar]
        by_cases hbrace : c = '\x7b'
        · have hbehind : behind "\x7b" (c :: rest) = some rest :=
            behind_eq_some_iff.2 (hbrace ▸ rfl)
          subst hbrace
          rw [hbehind]
          cases h : rest.dropWhile (· != '\x7d') with
          | nil => simp [braceHead?, h]
          | cons _ rest => simp [braceHead?, h, fromQuoted?_eq]
        · have hnobrace : behind "\x7b" (c :: rest) = none := if_neg (by simp [Ne.symm hbrace])
          rw [hnobrace]
          simp [hstar, hbrace]

/-! ## Specifiers in quotes -/

/-- A character may stand in a specifier. -/
def isSpecifierChar (c : Char) : Bool := !isQuote c && c != '\n'

/-- Behind a quote a specifier goes up to the first character that cannot stand in one, which has to
be a quote. -/
theorem quoted?_cons {q : Char} (hq : isQuote q = true) (rest : List Char) :
    quoted? (q :: rest) =
      match rest.takeWhile isSpecifierChar, rest.dropWhile isSpecifierChar with
      | [], _ => none
      | _, [] => none
      | specifier, q' :: after =>
        if isQuote q' then some ⟨specifier, rest.length, after⟩ else none := by
  rw [quoted?, if_pos hq]
  rfl

/-- A quoted specifier is found only where one stands: it is not empty, and the quotes around it need
not be the same. -/
theorem exists_quotes_of_quoted? {cs : List Char} {m : Match} (h : quoted? cs = some m) :
    ∃ q q', isQuote q = true ∧ isQuote q' = true ∧ m.specifier ≠ [] ∧
      m.specifier.all isSpecifierChar = true ∧ cs = q :: (m.specifier ++ q' :: m.after) ∧
      m.tail = (m.specifier ++ q' :: m.after).length := by
  cases cs with
  | nil => exact nomatch h
  | cons q rest =>
    cases hq : isQuote q with
    | false => exact nomatch (quoted?_eq_none hq).symm.trans h
    | true =>
      have hall : (rest.takeWhile isSpecifierChar).all isSpecifierChar = true := List.all_takeWhile
      have hsplit := List.takeWhile_append_dropWhile (p := isSpecifierChar) (l := rest)
      rw [quoted?_cons hq] at h
      -- of the three cases of the search only a quote behind a nonempty specifier is left
      cases htake : rest.takeWhile isSpecifierChar with
      | nil => rw [htake] at h; exact nomatch h
      | cons c x =>
        rw [htake] at h hall hsplit
        cases hdrop : rest.dropWhile isSpecifierChar with
        | nil => rw [hdrop] at h; exact nomatch h
        | cons q' after' =>
          rw [hdrop] at h hsplit
          cases hq' : isQuote q' with
          | false => exact nomatch (if_neg (hq' ▸ Bool.false_ne_true)).symm.trans h
          | true =>
            obtain rfl := Option.some.inj ((if_pos hq').symm.trans h)
            exact ⟨q, q', hq, hq', List.cons_ne_nil c x, hall, congrArg (q :: ·) hsplit.symm,
              congrArg List.length hsplit.symm⟩

/-- A specifier that stands between quotes is found. -/
theorem quoted?_of_quotes {q q' : Char} {x : List Char} (hq : isQuote q = true)
    (hq' : isQuote q' = true) (hne : x ≠ []) (hall : x.all isSpecifierChar = true)
    (after : List Char) :
    quoted? (q :: (x ++ q' :: after)) = some ⟨x, (x ++ q' :: after).length, after⟩ := by
  -- the quote behind the specifier is what stops it
  have hstop : ¬ isSpecifierChar q' = true := by
    rw [isSpecifierChar, hq']
    exact Bool.false_ne_true
  have htake : (x ++ q' :: after).takeWhile isSpecifierChar = x := by
    rw [List.takeWhile_append_of_pos (List.all_eq_true.1 hall), List.takeWhile_cons_of_neg hstop,
      List.append_nil]
  have hdrop : (x ++ q' :: after).dropWhile isSpecifierChar = q' :: after := by
    rw [List.dropWhile_append_of_pos (List.all_eq_true.1 hall), List.dropWhile_cons_of_neg hstop]
  rw [quoted?_cons hq, htake, hdrop]
  cases x with
  | nil => exact absurd rfl hne
  | cons c x => exact if_pos hq'

/-! ## Steps of a search -/

/-- What a shape finds at the first character of a text: at the start of the whole text it may start
with that character, and elsewhere only behind it. -/
def matchAt? (before : Char → Bool) (shape : List Char → Option Match) (isStart : Bool) :
    List Char → Option Match
  | [] => none
  | c :: rest =>
    (if isStart then shape (c :: rest) else none) <|> (if before c then shape rest else none)

/-- What a search finds in a text, step by step. -/
inductive Finds (before : Char → Bool) (shape : List Char → Option Match) (isDynamic : Bool) :
    Bool → List Char → List Found → Prop
  | nil {isStart : Bool} : Finds before shape isDynamic isStart [] []
  | hit {isStart : Bool} {cs : List Char} {m : Match} {found : List Found}
    (h : matchAt? before shape isStart cs = some m)
    (hafter : Finds before shape isDynamic false m.after found) :
    Finds before shape isDynamic isStart cs
      (⟨m.tail, ⟨String.ofList m.specifier, isDynamic⟩⟩ :: found)
  | miss {isStart : Bool} {c : Char} {rest : List Char} {found : List Found}
    (h : matchAt? before shape isStart (c :: rest) = none)
    (hrest : Finds before shape isDynamic false rest found) :
    Finds before shape isDynamic isStart (c :: rest) found

/-- A shape passes the quote before the specifier, and more. -/
def Consumes (shape : List Char → Option Match) : Prop :=
  ∀ cs m, shape cs = some m → m.after <:+ cs ∧ m.after.length ≤ m.tail ∧ m.tail < cs.length

/-- What a test says of each character of a text, asked of the text: to ask it of every character
there is would take too long. -/
theorem forall_mem_of_all {p : Char → Bool} {b : Bool} {cs : List Char}
    (h : cs.all (p · == b) = true) : ∀ c ∈ cs, p c = b :=
  fun c hc => beq_iff_eq.1 (List.all_eq_true.1 h c hc)

variable {before : Char → Bool} {shape : List Char → Option Match}
variable {isDynamic isStart : Bool} {cs : List Char} {found found' : List Found}

/-- What is behind a word is the end of the text. -/
theorem behind_suffix {word : String} {cs rest : List Char} (h : behind word cs = some rest) :
    rest <:+ cs := by
  rw [behind_eq_some_iff.1 h]
  exact List.suffix_append _ _

/-- What is behind blanks is the end of the text. -/
theorem skipSpace_suffix (cs : List Char) : skipSpace cs <:+ cs := List.dropWhile_suffix _

/-- A head that passes only what it reads. -/
def Passes (head? : List Char → Option (List Char)) : Prop :=
  ∀ cs rest, head? cs = some rest → rest <:+ cs

/-- A shape passes at least the quotes. -/
theorem consumes_shaped {head? behind? : List Char → Option (List Char)} (hhead : Passes head?)
    (hbehind : Passes behind?) : Consumes (shaped head? behind?) := by
  intro cs m h
  obtain ⟨rest, hrest, h⟩ := Option.bind_eq_some_iff.1 h
  obtain ⟨m', hquoted, h⟩ := Option.bind_eq_some_iff.1 h
  obtain ⟨after, hafter, h⟩ := Option.bind_eq_some_iff.1 h
  obtain rfl := Option.some.inj h
  obtain ⟨q, q', -, -, -, -, rfl, htail⟩ := exists_quotes_of_quoted? hquoted
  have hsuffix := hbehind _ _ hafter
  have hquotes : m'.after <:+ m'.specifier ++ q' :: m'.after :=
    (List.suffix_cons q' m'.after).trans (List.suffix_append _ _)
  have hwhole := hhead _ _ hrest
  refine ⟨hsuffix.trans (hquotes.trans ((List.suffix_cons q _).trans hwhole)), ?_, ?_⟩
  · exact Nat.le_trans hsuffix.length_le (htail ▸ hquotes.length_le)
  · exact Nat.lt_of_lt_of_le (htail ▸ Nat.lt_succ_self _) hwhole.length_le

theorem passes_clauseHead : Passes clauseHead? := by
  intro cs rest h
  unfold clauseHead? at h
  split at h
  · cases h
  · next hdrop =>
    split at h
    · rw [← Option.some.inj h, ← hdrop]
      exact List.dropWhile_suffix _
    · cases h

theorem passes_staticHead : Passes staticHead? := by
  intro cs rest h
  obtain ⟨cs', hbehind, h⟩ := Option.bind_eq_some_iff.1 h
  exact (passes_clauseHead _ _ h).trans (behind_suffix hbehind)

theorem passes_dynamicHead : Passes dynamicHead? := by
  intro cs rest h
  obtain ⟨cs', himport, h⟩ := Option.bind_eq_some_iff.1 h
  obtain ⟨cs'', hparen, h⟩ := Option.bind_eq_some_iff.1 h
  rw [← Option.some.inj h]
  exact (skipSpace_suffix cs'').trans
    ((behind_suffix hparen).trans ((skipSpace_suffix cs').trans (behind_suffix himport)))

theorem passes_fromHead : Passes fromHead? := by
  intro cs rest h
  obtain ⟨cs', hfrom, h⟩ := Option.bind_eq_some_iff.1 h
  rw [← Option.some.inj h]
  exact (skipSpace_suffix cs').trans ((behind_suffix hfrom).trans (skipSpace_suffix cs))

theorem passes_behindName (name : List Char) : Passes (behindName? name) := by
  intro cs rest h
  unfold behindName? at h
  split at h
  · next hfrom =>
    rw [← Option.some.inj h]
    exact (skipSpace_suffix _).trans ((behind_suffix hfrom).trans (skipSpace_suffix cs))
  · split at h
    · rw [← Option.some.inj h]
      exact skipSpace_suffix cs
    · exact nomatch h

theorem passes_nameHead : Passes nameHead? := by
  intro cs rest h
  unfold nameHead? at h
  dsimp only at h
  split at h
  · exact nomatch h
  · exact (passes_behindName _ _ _ h).trans
      ((List.dropWhile_suffix _).trans (skipSpace_suffix cs))

theorem passes_starHead : Passes starHead? := by
  intro cs rest h
  unfold starHead? at h
  split at h
  · next has =>
    exact (passes_nameHead _ _ h).trans ((behind_suffix has).trans (skipSpace_suffix cs))
  · exact passes_fromHead _ _ h

theorem passes_braceHead : Passes braceHead? := by
  intro cs rest h
  unfold braceHead? at h
  split at h
  · next c rest' hdrop =>
    have hrest' : rest' <:+ cs :=
      (List.suffix_cons c rest').trans (hdrop ▸ List.dropWhile_suffix _)
    exact (passes_fromHead _ _ h).trans hrest'
  · exact nomatch h

theorem passes_exportHead : Passes exportHead? := by
  intro cs rest h
  obtain ⟨cs', hexport, h⟩ := Option.bind_eq_some_iff.1 h
  have hcs' : skipSpace cs' <:+ cs := (skipSpace_suffix cs').trans (behind_suffix hexport)
  split at h
  · next hstar => exact (passes_starHead _ _ h).trans ((behind_suffix hstar).trans hcs')
  · obtain ⟨cs'', hbrace, h⟩ := Option.bind_eq_some_iff.1 h
    exact (passes_braceHead _ _ h).trans ((behind_suffix hbrace).trans hcs')

theorem passes_closing : Passes closing? := fun cs _ h =>
  (behind_suffix h).trans (skipSpace_suffix cs)

/-- The shape of an import declaration passes something. -/
theorem consumes_staticImport : Consumes staticImport? := by
  intro cs m h
  rw [staticImport?_eq] at h
  exact consumes_shaped passes_staticHead (fun _ _ h => Option.some.inj h ▸ List.suffix_rfl) _ _ h

/-- The shape of an `import()` passes something. -/
theorem consumes_dynamicImport : Consumes dynamicImport? := by
  intro cs m h
  rw [dynamicImport?_eq] at h
  exact consumes_shaped passes_dynamicHead passes_closing _ _ h

/-- The shape of an export from another module passes something. -/
theorem consumes_exportFrom : Consumes exportFrom? := by
  intro cs m h
  rw [exportFrom?_eq] at h
  exact consumes_shaped passes_exportHead (fun _ _ h => Option.some.inj h ▸ List.suffix_rfl) _ _ h

/-- What is found is passed. -/
theorem suffix_of_matchAt? (hshape : Consumes shape) {m : Match}
    (h : matchAt? before shape isStart cs = some m) :
    m.after <:+ cs ∧ m.after.length ≤ m.tail ∧ m.tail < cs.length := by
  cases cs with
  | nil => cases h
  | cons c rest =>
    rw [matchAt?] at h
    cases hhere : (if isStart then shape (c :: rest) else none) with
    | some m' =>
      rw [hhere] at h
      obtain rfl : m' = m := Option.some.inj h
      split at hhere
      · exact hshape _ _ hhere
      · cases hhere
    | none =>
      rw [hhere] at h
      have h : (if before c then shape rest else none) = some m := h
      split at h
      · obtain ⟨hsuffix, hafter, hlength⟩ := hshape _ _ h
        exact ⟨hsuffix.trans (List.suffix_cons c rest), hafter, Nat.lt_succ_of_lt hlength⟩
      · cases h

/-- A step of a search. -/
theorem searchFrom_cons (fuel : Nat) (c : Char) (rest : List Char) :
    searchFrom before shape isDynamic (fuel + 1) isStart (c :: rest) =
      match matchAt? before shape isStart (c :: rest) with
      | some m =>
        ⟨m.tail, ⟨String.ofList m.specifier, isDynamic⟩⟩ ::
          searchFrom before shape isDynamic fuel false m.after
      | none => searchFrom before shape isDynamic fuel false rest := rfl

/-- The steps of a search. -/
theorem finds_searchFrom (hshape : Consumes shape) {fuel : Nat} (hfuel : cs.length < fuel) :
    Finds before shape isDynamic isStart cs
      (searchFrom before shape isDynamic fuel isStart cs) := by
  induction fuel generalizing isStart cs with
  | zero => exact absurd hfuel (Nat.not_lt_zero _)
  | succ fuel ih =>
    cases cs with
    | nil => exact .nil
    | cons c rest =>
      have hrest : rest.length < fuel := Nat.lt_of_succ_lt_succ hfuel
      rw [searchFrom_cons]
      cases hmatch : matchAt? before shape isStart (c :: rest) with
      | none =>
        exact .miss hmatch (ih hrest)
      | some m =>
        obtain ⟨-, hafter, htail⟩ := suffix_of_matchAt? hshape hmatch
        exact .hit hmatch (ih (by omega))

/-- A search finds one thing only. -/
theorem Finds.unique (h : Finds before shape isDynamic isStart cs found)
    (h' : Finds before shape isDynamic isStart cs found') : found = found' := by
  induction h generalizing found' with
  | nil => cases h' with
    | nil => rfl
    | hit h _ => exact nomatch h
  | hit h _ ih =>
    cases h' with
    | nil => exact nomatch h
    | hit h' hafter' =>
      obtain rfl := Option.some.inj (h.symm.trans h')
      rw [ih hafter']
    | miss h' _ => exact nomatch h.symm.trans h'
  | miss h _ ih =>
    cases h' with
    | hit h' _ => exact nomatch h.symm.trans h'
    | miss _ hrest' => exact ih hrest'

/-- What stands at a place is found, if all that is found before it and reaches over it has the same
specifier. -/
theorem Finds.exists_mem (hshape : Consumes shape)
    (h : Finds before shape isDynamic isStart cs found) {early place : List Char} {m : Match}
    (hcs : cs = early ++ place)
    (hmatch : matchAt? before shape (isStart && early.isEmpty) place = some m)
    (hclear : ∀ first between, early = first ++ between → between ≠ [] →
      ∀ m', matchAt? before shape (isStart && first.isEmpty) (between ++ place) = some m' →
        m'.after.length < place.length → m'.specifier = m.specifier) :
    ∃ f ∈ found, f.reference = ⟨String.ofList m.specifier, isDynamic⟩ := by
  induction h generalizing early with
  | nil =>
    obtain ⟨rfl, rfl⟩ := List.append_eq_nil_iff.1 hcs.symm
    exact nomatch hmatch
  | @hit isStart cs m' found hfirst _ ih =>
    subst hcs
    cases early with
    | nil =>
      rw [List.isEmpty_nil, Bool.and_true] at hmatch
      obtain rfl := Option.some.inj (hfirst.symm.trans hmatch)
      exact ⟨_, List.mem_cons_self, rfl⟩
    | cons c early =>
      by_cases hover : m'.after.length < place.length
      · have hfirst' : matchAt? before shape (isStart && ([] : List Char).isEmpty)
            (c :: early ++ place) = some m' := by
          rw [List.isEmpty_nil, Bool.and_true, hfirst]
        rw [← hclear [] _ rfl (List.cons_ne_nil c early) _ hfirst' hover]
        exact ⟨_, List.mem_cons_self, rfl⟩
      · -- the search goes on before the place
        obtain ⟨hsuffix, hafter, htail⟩ := suffix_of_matchAt? hshape hfirst
        obtain ⟨early', hearly'⟩ : place <:+ m'.after :=
          List.suffix_of_suffix_length_le (List.suffix_append _ _) hsuffix (Nat.le_of_not_lt hover)
        obtain ⟨passed, hpassed⟩ := hsuffix
        rw [← hearly', ← List.append_assoc] at hpassed
        have hearly : passed ++ early' = c :: early := List.append_cancel_right hpassed
        have hpassed : passed ≠ [] := by
          rintro rfl
          rw [← hearly, List.nil_append, hearly'] at htail
          omega
        rw [List.isEmpty_cons, Bool.and_false] at hmatch
        obtain ⟨f, hf, href⟩ := ih hearly'.symm hmatch fun first between hsplit hbetween => by
          have hclear' := hclear (passed ++ first) between
            (by rw [← hearly, hsplit, List.append_assoc]) hbetween
          have hfirst : (passed ++ first).isEmpty = false :=
            List.isEmpty_eq_false_iff.2 (List.append_ne_nil_of_left_ne_nil hpassed first)
          rwa [hfirst, Bool.and_false] at hclear'
        exact ⟨f, List.mem_cons_of_mem _ hf, href⟩
  | @miss isStart c rest found hfirst _ ih =>
    cases early with
    | nil =>
      rw [List.isEmpty_nil, Bool.and_true, ← List.nil_append place, ← hcs] at hmatch
      exact nomatch hfirst.symm.trans hmatch
    | cons d early =>
      obtain ⟨rfl, rfl⟩ := List.cons.inj hcs
      rw [List.isEmpty_cons, Bool.and_false] at hmatch
      refine ih rfl hmatch fun first between hsplit hbetween => ?_
      have hclear' := hclear (c :: first) between (by rw [hsplit]; rfl) hbetween
      rwa [List.isEmpty_cons, Bool.and_false] at hclear'

end ModuleLoader.TextScan
