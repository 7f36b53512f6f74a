import Mathlib.Data.List.Infix
import Mathlib.Data.List.Sort
import ModuleLoader.Proofs.Imports.Blanks

/-! # Searches that do not see which blanks there are

A text has the same references when blanks in it are exchanged for others, as long as no specifier
is open where they stand.

* **`opens`** says that a specifier is open at the end of a text, **`Closed`** that none is.
* **`SameMatch`** are two texts in which a shape comes to the same; **`Finds.exchange`** makes of it
  that a search finds the same.
* **`referencesIn_exchange`** says that the references are the same. -/

namespace ModuleLoader.TextScan

variable {v w rest : List Char}

/-! ## Open specifiers -/

/-- A specifier is open at the end of a text: behind a head and a quote there is only what may stand
in a specifier. -/
def opens (head? : List Char → Option (List Char)) (cs : List Char) : Bool :=
  match head? cs with
  | some (q :: x) => isQuote q && x.all isSpecifierChar
  | _ => false

/-- What becomes of a place in a text, counted from its end, with other blanks. -/
def movedTail (v w rest : List Char) (tail : Nat) : Nat :=
  if tail < rest.length then tail else tail - v.length + w.length

/-- A shape has come to the same specifier in both texts. -/
inductive SameMatch (v w rest : List Char) : Option Match → Option Match → Prop
  /-- It has come to none. -/
  | none : SameMatch v w rest none none
  /-- It has come to one, which does not start in the blanks. -/
  | some {x after after' : List Char} {tail : Nat} {o : Option (List Char)}
    (hclear : tail < rest.length ∨ v.length + rest.length ≤ tail)
    (hafter : Agree v w rest o (some after) (some after')) :
    SameMatch v w rest (some ⟨x, tail, after⟩) (some ⟨x, movedTail v w rest tail, after'⟩)

/-- A specifier that is not open at the end of a text does not depend on what follows. -/
theorem quoted?_append {q : Char} {x : List Char} (h : x.all isSpecifierChar = false)
    (y : List Char) : quoted? (q :: x ++ y) =
      (quoted? (q :: x)).map fun m => ⟨m.specifier, m.tail + y.length, m.after ++ y⟩ := by
  cases hq : isQuote q with
  | false => rw [List.cons_append, quoted?_eq_none hq, quoted?_eq_none hq, Option.map_none]
  | true =>
    have hdrop : x.dropWhile isSpecifierChar ≠ [] := by
      intro hnil
      rw [List.dropWhile_eq_nil_iff] at hnil
      exact absurd (List.all_eq_true.2 hnil) (by rw [h]; exact Bool.false_ne_true)
    obtain ⟨htake, hdrop'⟩ := span_append hdrop y
    rw [List.cons_append, quoted?_cons hq, quoted?_cons hq, htake, hdrop', List.length_append]
    cases x.takeWhile isSpecifierChar with
    | nil => rfl
    | cons c specifier =>
      cases hend : x.dropWhile isSpecifierChar with
      | nil => exact absurd hend hdrop
      | cons q' after =>
        dsimp only [List.cons_append]
        split <;> rfl

/-- There is no specifier if what ends the characters of one is no quote. -/
theorem quoted?_eq_none_of_head? {q : Char} {cs : List Char}
    (h : ∀ c ∈ (cs.dropWhile isSpecifierChar).head?, isQuote c = false) :
    quoted? (q :: cs) = none := by
  rw [Option.eq_none_iff_forall_ne_some]
  intro m hm
  obtain ⟨q₁, q', -, hq', -, hall, hcs, -⟩ := exists_quotes_of_quoted? hm
  obtain ⟨-, rfl⟩ := List.cons.inj hcs
  have hstop : ¬ isSpecifierChar q' = true := by
    rw [isSpecifierChar, hq']
    exact Bool.false_ne_true
  have hq : isQuote q' = false := h q' (by
    rw [List.dropWhile_append_of_pos (List.all_eq_true.1 hall), List.dropWhile_cons_of_neg hstop]
    rfl)
  exact Bool.false_ne_true (hq.symm.trans hq')

/-- A specifier that is open at the end of a text does not go on behind blanks that end the line or
the text. -/
theorem quoted?_open {q : Char} {x y : List Char} (hx : x.all isSpecifierChar = true)
    (hy : ∀ c ∈ y, Text.isWhiteSpace c = true) (rest : List Char) (h : rest = [] ∨ '\n' ∈ y) :
    quoted? (q :: x ++ (y ++ rest)) = none := by
  rw [List.cons_append]
  refine quoted?_eq_none_of_head? fun c hc => ?_
  rw [List.dropWhile_append_of_pos (List.all_eq_true.1 hx), List.dropWhile_append] at hc
  -- the first character that ends the specifier is one of the blanks
  have hblank : c ∈ (y.dropWhile isSpecifierChar).head? := by
    split at hc
    · next hnil =>
      obtain rfl | hnewline := h
      · exact nomatch hc
      · exact absurd (List.dropWhile_eq_nil_iff.1 (List.isEmpty_iff.1 hnil) _ hnewline) (by decide)
    · next hnil =>
      cases hend : y.dropWhile isSpecifierChar with
      | nil => exact absurd (List.isEmpty_iff.2 hend) hnil
      | cons d y' => rwa [hend] at hc
  have hmem : c ∈ y := (List.dropWhile_suffix _).subset (List.mem_of_mem_head? hblank)
  exact (classes_of_isWhiteSpace (hy c hmem)).2.1

/-- No specifier starts with a blank. -/
theorem quoted?_blanks {y rest : List Char} (hy : ∀ c ∈ y, Text.isWhiteSpace c = true)
    (hnonempty : rest = [] ∨ y ≠ []) : quoted? (y ++ rest) = none := by
  cases y with
  | nil =>
    obtain rfl := hnonempty.resolve_right (fun h => h rfl)
    rfl
  | cons c y => exact quoted?_eq_none (classes_of_isWhiteSpace (hy c List.mem_cons_self)).2.1

/-- What a shape makes of a text from the specifier on. -/
def shapedFrom (behind? : List Char → Option (List Char)) (cs : List Char) : Option Match := do
  let m ← quoted? cs
  let after ← behind? m.after
  return { m with after }

/-- A specifier before the blanks is the same in both texts. -/
theorem sameMatch_before {behind? : List Char → Option (List Char)}
    (hbehind : Blind v w rest behind?) {q : Char} {x : List Char}
    (hx : x.all isSpecifierChar = false) :
    SameMatch v w rest (shapedFrom behind? (q :: x ++ (v ++ rest)))
      (shapedFrom behind? (q :: x ++ (w ++ rest))) := by
  unfold shapedFrom
  rw [quoted?_append hx, quoted?_append hx]
  simp only [Option.bind_eq_bind]
  cases quoted? (q :: x) with
  | none => exact .none
  | some m =>
    have hafter := hbehind m.after
    rw [Option.map_some, Option.map_some, Option.bind_some, Option.bind_some]
    dsimp only
    generalize behind? m.after = o at hafter
    generalize behind? (m.after ++ (v ++ rest)) = a at hafter ⊢
    generalize behind? (m.after ++ (w ++ rest)) = b at hafter ⊢
    have hmoved : movedTail v w rest (m.tail + (v ++ rest).length) =
        m.tail + (w ++ rest).length := by
      rw [movedTail, List.length_append, List.length_append, if_neg (by omega)]
      omega
    have hclear : v.length + rest.length ≤ m.tail + (v ++ rest).length := by
      rw [List.length_append]
      exact Nat.le_add_left _ _
    cases a with
    | none =>
      cases hafter
      exact .none
    | some after =>
      cases b with
      | none => cases hafter
      | some after' =>
        rw [Option.bind_some, Option.bind_some, ← hmoved]
        exact .some (.inr hclear) hafter

/-- Nor does it matter which blanks there are if the head stops before them and no specifier is open
there. -/
theorem sameMatch_within (e : Exchangeable v w rest) {behind? : List Char → Option (List Char)}
    (hbehind : Blind v w rest behind?) {u : List Char}
    (hopens : opens some u = false ∨ rest = [] ∨ '\n' ∈ v ∧ '\n' ∈ w) :
    SameMatch v w rest (shapedFrom behind? (u ++ (v ++ rest)))
      (shapedFrom behind? (u ++ (w ++ rest))) := by
  have hnone {x y : List Char} (hx : quoted? x = none) (hy : quoted? y = none) :
      SameMatch v w rest (shapedFrom behind? x) (shapedFrom behind? y) := by
    rw [shapedFrom, shapedFrom, hx, hy]
    exact .none
  cases u with
  | nil =>
    rw [List.nil_append, List.nil_append]
    exact hnone (quoted?_blanks e.left (e.nonempty.imp_right And.left))
      (quoted?_blanks e.right (e.nonempty.imp_right And.right))
  | cons q x =>
    cases hx : x.all isSpecifierChar with
    | true =>
      have hquoted {y : List Char} (hy : ∀ c ∈ y, Text.isWhiteSpace c = true)
          (h : isQuote q = false ∨ rest = [] ∨ '\n' ∈ y) :
          quoted? (q :: x ++ (y ++ rest)) = none :=
        h.elim quoted?_eq_none (quoted?_open hx hy rest)
      have hopen : opens some (q :: x) = (isQuote q && x.all isSpecifierChar) := rfl
      rw [hopen, hx, Bool.and_true] at hopens
      exact hnone (hquoted e.left (hopens.imp_right (Or.imp_right And.left)))
        (hquoted e.right (hopens.imp_right (Or.imp_right And.right)))
    | false => exact sameMatch_before hbehind hx

/-- A specifier behind the blanks stays where it is. -/
theorem sameMatch_beyond {behind? : List Char → Option (List Char)} (hpasses : Passes behind?)
    {r : List Char} (hr : r.length ≤ rest.length) :
    SameMatch v w rest (shapedFrom behind? r) (shapedFrom behind? r) := by
  unfold shapedFrom
  simp only [Option.bind_eq_bind]
  cases hquoted : quoted? r with
  | none => exact .none
  | some m =>
    obtain ⟨q, q', -, -, -, -, rfl, htail⟩ := exists_quotes_of_quoted? hquoted
    have htail' : m.tail < rest.length := by
      rw [List.length_cons] at hr
      omega
    rw [Option.bind_some]
    cases hafter : behind? m.after with
    | none => exact .none
    | some after =>
      have hmoved : movedTail v w rest m.tail = m.tail := if_pos htail'
      have hlength := (hpasses _ _ hafter).length_le
      rw [List.length_append, List.length_cons] at htail
      have hsame : SameMatch v w rest (some ⟨m.specifier, m.tail, after⟩)
          (some ⟨m.specifier, movedTail v w rest m.tail, after⟩) :=
        .some (o := none) (.inl htail') (.beyond (by omega))
      rwa [hmoved] at hsame

/-- A shape with blind parts comes to the same specifier, unless one is open before the blanks and
could go on in them. -/
theorem sameMatch_shaped (e : Exchangeable v w rest)
    {head? behind? : List Char → Option (List Char)} (hhead : Blind v w rest head?)
    (hbehind : Blind v w rest behind?) (hpasses : Passes behind?)
    {u : List Char} (hopens : opens head? u = false ∨ rest = [] ∨ '\n' ∈ v ∧ '\n' ∈ w) :
    SameMatch v w rest (shaped head? behind? (u ++ (v ++ rest)))
      (shaped head? behind? (u ++ (w ++ rest))) := by
  have hread := hhead u
  have hfrom (cs : List Char) : shaped head? behind? cs = (head? cs).bind (shapedFrom behind?) :=
    rfl
  rw [hfrom, hfrom]
  unfold opens at hopens
  generalize head? (u ++ (v ++ rest)) = a at hread ⊢
  generalize head? (u ++ (w ++ rest)) = b at hread ⊢
  generalize head? u = o at hread hopens
  cases hread with
  | none => exact .none
  | within u' => exact sameMatch_within e hbehind hopens
  | beyond hr => exact sameMatch_beyond hpasses hr

/-! ## Searches -/

/-- What is found in a text with its place in the text with the other blanks. -/
def Found.moved (v w rest : List Char) (f : Found) : Found :=
  { f with tail := movedTail v w rest f.tail }

/-- The specifier does not start in the blanks. -/
def Found.Clear (v rest : List Char) (f : Found) : Prop :=
  f.tail < rest.length ∨ v.length + rest.length ≤ f.tail

variable {before : Char → Bool} {shape : List Char → Option Match} {isDynamic isStart : Bool}
variable {cs : List Char} {found : List Found}

/-- What is found is in the text. -/
theorem Finds.tail_lt (hshape : Consumes shape)
    (h : Finds before shape isDynamic isStart cs found) : ∀ f ∈ found, f.tail < cs.length := by
  induction h with
  | nil => exact nofun
  | hit h _ ih =>
    obtain ⟨-, hafter, htail⟩ := suffix_of_matchAt? hshape h
    intro f hf
    obtain rfl | hf := List.mem_cons.1 hf
    · exact htail
    · have := ih f hf
      omega
  | miss _ _ ih => exact fun f hf => Nat.lt_succ_of_lt (ih f hf)

/-- What is found behind the blanks stays where it is. -/
theorem map_moved_eq_self (h : ∀ f ∈ found, f.tail < rest.length) :
    found.map (Found.moved v w rest) = found := by
  refine (List.map_congr_left fun f hf => ?_).trans (List.map_id found)
  rw [Found.moved, movedTail, if_pos (h f hf)]
  rfl

/-- A shape that starts neither in blanks nor at the end of a text, and that may start behind any
blank. -/
structure Spaced (before : Char → Bool) (shape : List Char → Option Match) : Prop where
  before : ∀ c, Text.isWhiteSpace c = true → before c = true
  nil : shape [] = none
  cons : ∀ c cs, Text.isWhiteSpace c = true → shape (c :: cs) = none

/-- What is found at a blank starts behind it. -/
theorem Spaced.matchAt?_eq (hspaced : Spaced before shape) {c : Char}
    (hc : Text.isWhiteSpace c = true) (isStart : Bool) (cs : List Char) :
    matchAt? before shape isStart (c :: cs) = shape cs := by
  rw [matchAt?, hspaced.cons c cs hc, hspaced.before c hc]
  cases isStart <;> rfl

/-- A search passes blanks, however many there are. -/
theorem Finds.of_blanks (hspaced : Spaced before shape) {x : List Char}
    (hx : ∀ c ∈ x, Text.isWhiteSpace c = true) (hnonempty : rest = [] ∨ x ≠ [])
    (h : Finds before shape isDynamic isStart (x ++ rest) found) :
    Finds before shape isDynamic false (' ' :: rest) found := by
  induction x generalizing isStart with
  | nil =>
    obtain rfl := hnonempty.resolve_right (fun h => h rfl)
    cases h with
    | nil =>
      refine .miss ?_ .nil
      rw [matchAt?, hspaced.nil]
      cases before ' ' <;> rfl
    | hit h _ => cases h
  | cons c x ih =>
    have hc := hx c List.mem_cons_self
    have hx' : ∀ c ∈ x, Text.isWhiteSpace c = true := fun d hd => hx d (List.mem_cons_of_mem c hd)
    cases x with
    | nil =>
      have hsame : matchAt? before shape false (' ' :: rest) =
          matchAt? before shape isStart (c :: rest) :=
        (hspaced.matchAt?_eq rfl _ _).trans (hspaced.matchAt?_eq hc _ _).symm
      cases h with
      | hit h hafter => exact .hit (hsame.trans h) hafter
      | miss h hrest => exact .miss (hsame.trans h) hrest
    | cons d x =>
      have hnone := hspaced.cons d (x ++ rest) (hx' d List.mem_cons_self)
      cases h with
      | hit h _ => cases hnone.symm.trans ((hspaced.matchAt?_eq hc isStart _).symm.trans h)
      | miss _ hrest => exact ih hx' (.inr (List.cons_ne_nil d x)) hrest

/-- A search finds the same behind blanks, whichever they are. -/
theorem Finds.exchange_blanks (hshape : Consumes shape) (hspaced : Spaced before shape)
    (e : Exchangeable v w rest) (h : Finds before shape isDynamic isStart (v ++ rest) found) :
    Finds before shape isDynamic isStart (w ++ rest) found ∧ ∀ f ∈ found, f.tail < rest.length := by
  have hblank := h.of_blanks hspaced e.left (e.nonempty.imp_right And.left)
  constructor
  · have hother : Finds before shape isDynamic isStart (w ++ rest) _ :=
      finds_searchFrom hshape (Nat.lt_succ_self _)
    rwa [hblank.unique (hother.of_blanks hspaced e.right (e.nonempty.imp_right And.right))]
  · cases hblank with
    | @hit _ _ m _ hmatch hafter =>
      have htail := (hshape _ _ ((hspaced.matchAt?_eq rfl _ _).symm.trans hmatch)).2
      intro f hf
      obtain rfl | hf := List.mem_cons.1 hf
      · exact htail.2
      · have := hafter.tail_lt hshape f hf
        omega
    | miss _ hrest => exact hrest.tail_lt hshape

theorem SameMatch.orElse {a b a' b' : Option Match} (h : SameMatch v w rest a b)
    (h' : SameMatch v w rest a' b') : SameMatch v w rest (a <|> a') (b <|> b') := by
  cases h with
  | none => exact h'
  | some hclear hafter => exact .some hclear hafter

/-- If a shape comes to the same from everywhere in a text, so does a step of a search. -/
theorem sameMatch_matchAt? (before : Char → Bool) (isStart : Bool) {c : Char} {u : List Char}
    (hsame : ∀ u', u' <:+ c :: u →
      SameMatch v w rest (shape (u' ++ (v ++ rest))) (shape (u' ++ (w ++ rest)))) :
    SameMatch v w rest (matchAt? before shape isStart (c :: (u ++ (v ++ rest))))
      (matchAt? before shape isStart (c :: (u ++ (w ++ rest)))) := by
  rw [matchAt?, matchAt?]
  refine SameMatch.orElse ?_ ?_
  · split
    · exact hsame (c :: u) List.suffix_rfl
    · exact .none
  · split
    · exact hsame u (List.suffix_cons c u)
    · exact .none

/-- A search finds the same with either blanks, if its shape comes to the same from everywhere
before them. -/
theorem Finds.exchange (hshape : Consumes shape) (hspaced : Spaced before shape)
    (e : Exchangeable v w rest) {u : List Char}
    (hsame : ∀ u', u' <:+ u →
      SameMatch v w rest (shape (u' ++ (v ++ rest))) (shape (u' ++ (w ++ rest))))
    (h : Finds before shape isDynamic isStart (u ++ (v ++ rest)) found) :
    Finds before shape isDynamic isStart (u ++ (w ++ rest)) (found.map (Found.moved v w rest)) ∧
      ∀ f ∈ found, f.Clear v rest := by
  -- what is found from the blanks on, where the search comes to them
  have hblanks {isStart : Bool} {found : List Found}
      (h : Finds before shape isDynamic isStart (v ++ rest) found) :
      Finds before shape isDynamic isStart (w ++ rest) (found.map (Found.moved v w rest)) ∧
        ∀ f ∈ found, f.Clear v rest := by
    obtain ⟨hfinds, htail⟩ := h.exchange_blanks hshape hspaced e
    rw [map_moved_eq_self htail]
    exact ⟨hfinds, fun f hf => .inl (htail f hf)⟩
  generalize hcs : u ++ (v ++ rest) = cs at h
  induction h generalizing u with
  | nil =>
    obtain ⟨rfl, hnil⟩ := List.append_eq_nil_iff.1 hcs
    exact hblanks (hnil ▸ .nil)
  | @hit isStart cs m found hmatch hafter ih =>
    subst hcs
    cases u with
    | nil => exact hblanks (.hit hmatch hafter)
    | cons c u =>
      have hstep := sameMatch_matchAt? before isStart hsame
      rw [← List.cons_append, ← List.cons_append, hmatch] at hstep
      generalize hother : matchAt? before shape isStart (c :: u ++ (w ++ rest)) = o at hstep
      cases hstep with
      | @some x after after' tail _ hclear hreads =>
        have hsuffix := (suffix_of_matchAt? hshape hmatch).1
        have hrest : Finds before shape isDynamic false after' (found.map (Found.moved v w rest)) ∧
            ∀ f ∈ found, f.Clear v rest := by
          cases hreads with
          | within u' =>
            obtain ⟨passed, hpassed⟩ := hsuffix
            rw [← List.append_assoc] at hpassed
            have hu' : u' <:+ c :: u := ⟨passed, List.append_cancel_right hpassed⟩
            exact ih (fun u'' h => hsame u'' (h.trans hu')) rfl
          | beyond hr =>
            have htail : ∀ f ∈ found, f.tail < rest.length := fun f hf =>
              Nat.lt_of_lt_of_le (hafter.tail_lt hshape f hf) hr
            rw [map_moved_eq_self htail]
            exact ⟨hafter, fun f hf => .inl (htail f hf)⟩
        refine ⟨.hit hother hrest.1, fun f hf => ?_⟩
        obtain rfl | hf := List.mem_cons.1 hf
        · exact hclear
        · exact hrest.2 f hf
  | @miss isStart c cs found hmatch hrest ih =>
    cases u with
    | nil =>
      rw [List.nil_append] at hcs
      exact hblanks (hcs ▸ .miss hmatch hrest)
    | cons d u =>
      obtain ⟨rfl, rfl⟩ := List.cons.inj hcs
      have hstep := sameMatch_matchAt? before isStart hsame
      have hmatch : matchAt? before shape isStart (d :: (u ++ (v ++ rest))) = none := hmatch
      rw [hmatch] at hstep
      generalize hother : matchAt? before shape isStart (d :: (u ++ (w ++ rest))) = o at hstep
      cases hstep
      obtain ⟨hfinds, hclear⟩ := ih (fun u' h => hsame u' (h.trans (List.suffix_cons d u))) rfl
      exact ⟨.miss hother hfinds, hclear⟩

/-! ## The references of a text -/

/-- The specifiers that the shapes find in a text without comments, shape by shape. -/
def allFound (cs : List Char) : List Found :=
  search beforeDeclaration staticImport? false cs ++ search beforeCall dynamicImport? true cs ++
    search beforeDeclaration exportFrom? false cs

/-- The references in a text without comments. -/
def referencesIn (cs : List Char) : List Reference :=
  mergeReferences (((allFound cs).mergeSort fun a b => a.tail ≥ b.tail).map Found.reference)

/-- The references in a text are those in what is left of it without comments. -/
theorem scanText_eq (text : String) :
    scanText text = referencesIn (withoutComments text.toList) := rfl

/-- References that are found in order are listed as they are found. -/
theorem referencesIn_of_pairwise {cs : List Char}
    (h : (allFound cs).Pairwise fun a b => a.tail ≥ b.tail) :
    referencesIn cs = mergeReferences ((allFound cs).map Found.reference) := by
  rw [referencesIn, List.mergeSort_of_pairwise]
  simpa using h

/-- No specifier is open at the end of a text, wherever its shape may have started. -/
def Closed (cs : List Char) : Prop :=
  ∀ u ∈ cs.tails,
    opens staticHead? u = false ∧ opens dynamicHead? u = false ∧ opens exportHead? u = false

instance (cs : List Char) : Decidable (Closed cs) := inferInstanceAs (Decidable (∀ u ∈ cs.tails, _))

/-- No word starts with a blank. -/
theorem behind_blank {word : String} {a : Char} {x : List Char} (hword : word.toList = a :: x)
    (ha : Text.isWhiteSpace a = false) {c : Char} (hc : Text.isWhiteSpace c = true)
    (cs : List Char) : behind word (c :: cs) = none := by
  rw [Option.eq_none_iff_forall_ne_some]
  intro rest hrest
  obtain ⟨cs', hcs'⟩ := head?_of_behind hword hrest
  obtain ⟨rfl, -⟩ := List.cons.inj hcs'
  exact Bool.false_ne_true (ha.symm.trans hc)

theorem spaced_staticImport : Spaced beforeDeclaration staticImport? where
  before _ hc := (classes_of_isWhiteSpace hc).2.2.2.1
  nil := rfl
  cons c cs hc := by rw [staticImport?, behind_blank rfl (by decide) hc]; rfl

theorem spaced_dynamicImport : Spaced beforeCall dynamicImport? where
  before _ hc := (classes_of_isWhiteSpace hc).2.2.2.2
  nil := rfl
  cons c cs hc := by rw [dynamicImport?, behind_blank rfl (by decide) hc]; rfl

theorem spaced_exportFrom : Spaced beforeDeclaration exportFrom? where
  before _ hc := (classes_of_isWhiteSpace hc).2.2.2.1
  nil := rfl
  cons c cs hc := by rw [exportFrom?, behind_blank rfl (by decide) hc]; rfl

/-- A search for a shape finds the same with either blanks. -/
theorem search_exchange {before : Char → Bool} {shape : List Char → Option Match}
    (isDynamic : Bool) (hshape : Consumes shape) (hspaced : Spaced before shape)
    (e : Exchangeable v w rest) {u : List Char}
    (hsame : ∀ u', u' <:+ u →
      SameMatch v w rest (shape (u' ++ (v ++ rest))) (shape (u' ++ (w ++ rest)))) :
    search before shape isDynamic (u ++ (w ++ rest)) =
        (search before shape isDynamic (u ++ (v ++ rest))).map (Found.moved v w rest) ∧
      ∀ f ∈ search before shape isDynamic (u ++ (v ++ rest)), f.Clear v rest := by
  have hfound : Finds before shape isDynamic true (u ++ (v ++ rest)) _ :=
    finds_searchFrom hshape (Nat.lt_succ_self _)
  obtain ⟨hfinds, hclear⟩ := hfound.exchange hshape hspaced e hsame
  exact ⟨(finds_searchFrom hshape (Nat.lt_succ_self _)).unique hfinds, hclear⟩

/-- All shapes find the same with either blanks. -/
theorem allFound_exchange (e : Exchangeable v w rest) {u : List Char}
    (h : Closed u ∨ rest = [] ∨ '\n' ∈ v ∧ '\n' ∈ w) :
    allFound (u ++ (w ++ rest)) = (allFound (u ++ (v ++ rest))).map (Found.moved v w rest) ∧
      ∀ f ∈ allFound (u ++ (v ++ rest)), f.Clear v rest := by
  have hclosed {u' : List Char} (hu' : u' <:+ u) :=
    h.imp_left fun h => h u' ((List.mem_tails _ _).2 hu')
  have hsome : Blind v w rest some := fun u => .within u
  have hpasses : Passes some := fun _ _ h => Option.some.inj h ▸ List.suffix_rfl
  obtain ⟨hstatic, hstatic'⟩ := search_exchange false consumes_staticImport
    spaced_staticImport e (u := u) fun u' hu' => by
      rw [staticImport?_eq, staticImport?_eq]
      exact sameMatch_shaped e (blind_staticHead e) hsome hpasses
        ((hclosed hu').imp_left fun h => h.1)
  obtain ⟨hdynamic, hdynamic'⟩ := search_exchange true consumes_dynamicImport
    spaced_dynamicImport e (u := u) fun u' hu' => by
      rw [dynamicImport?_eq, dynamicImport?_eq]
      exact sameMatch_shaped e (blind_dynamicHead e) (blind_closing e) passes_closing
        ((hclosed hu').imp_left fun h => h.2.1)
  obtain ⟨hexport, hexport'⟩ := search_exchange false consumes_exportFrom
    spaced_exportFrom e (u := u) fun u' hu' => by
      rw [exportFrom?_eq, exportFrom?_eq]
      exact sameMatch_shaped e (blind_exportHead e) hsome hpasses
        ((hclosed hu').imp_left fun h => h.2.2)
  constructor
  · rw [allFound, allFound, hstatic, hdynamic, hexport, List.map_append, List.map_append]
  · intro f hf
    obtain hf | hf := List.mem_append.1 hf
    · exact (List.mem_append.1 hf).elim (hstatic' f) (hdynamic' f)
    · exact hexport' f hf

/-- Places in a text keep their order with other blanks. -/
theorem movedTail_le_iff {m n : Nat} (hm : m < rest.length ∨ v.length + rest.length ≤ m)
    (hn : n < rest.length ∨ v.length + rest.length ≤ n) :
    movedTail v w rest m ≤ movedTail v w rest n ↔ m ≤ n := by
  unfold movedTail
  split <;> split <;> omega

/-- A text has the same references with either blanks. -/
theorem referencesIn_exchange (e : Exchangeable v w rest) {u : List Char}
    (h : Closed u ∨ rest = [] ∨ '\n' ∈ v ∧ '\n' ∈ w) :
    referencesIn (u ++ (v ++ rest)) = referencesIn (u ++ (w ++ rest)) := by
  obtain ⟨hmoved, hclear⟩ := allFound_exchange e h
  have hsort := List.map_mergeSort (f := Found.moved v w rest)
    (r := fun a b => decide (a.tail ≥ b.tail)) (s := fun a b => decide (a.tail ≥ b.tail))
    fun a ha b hb => decide_eq_decide.2 (movedTail_le_iff (hclear b hb) (hclear a ha)).symm
  rw [referencesIn, referencesIn, hmoved, ← hsort, List.map_map]
  rfl

end ModuleLoader.TextScan
