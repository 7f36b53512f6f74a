import Mathlib.Data.List.Basic

/-! # Where something stands

What stands in a tree is listed by going down the tree, and said to stand there by a path, whose
numbers say which part to take at each step. The parts of a tree are in the order of the text and
each comes behind the whole that it belongs to, so the order of the paths is that of the text.

* **`Places`** is a list of all that stands anywhere with the paths to it, in their order.
* **`WithinItems`** is what stands in the elements of a list, where the first number of a path
  chooses the element.
* **`places_within`** and **`Places.whole`** put such lists together: those of the elements to that
  of a list, and that of the parts with what stands in the whole itself. -/

namespace ModuleLoader.Syntax

variable {ι α : Type}

/-- A list of some things with their paths is that of given things in order, and holds those that
stand at the paths for which `stands` says so. -/
structure Places (stands : List Nat → α → Prop) (xs : List α) (places : List (List Nat × α)) :
    Prop where
  /-- Without the paths they are the things. -/
  map_snd : places.map Prod.snd = xs
  /-- They are in the order of the paths. -/
  sorted : places.Pairwise fun a b => a.1 < b.1
  /-- They are all that stand anywhere. -/
  mem_iff : ∀ path x, (path, x) ∈ places ↔ stands path x

/-- What stands in the elements of a list. -/
def WithinItems (stands : ι → List Nat → α → Prop) (is : List ι) : List Nat → α → Prop
  | [], _ => False
  | k :: path, x => ∃ i, is[k]? = some i ∧ stands i path x

/-- What stands in the elements of a list is in the order of its paths if that in each of them is.
The first of the elements has the number `k` here. -/
theorem places_from {stands : ι → List Nat → α → Prop} {items : ι → List α} {is : List ι}
    (h : ∀ i ∈ is, ∃ places, Places (stands i) (items i) places) (k : Nat) :
    ∃ places, Places
      (fun path x => ∃ j path', path = (k + j) :: path' ∧ WithinItems stands is (j :: path') x)
      (is.flatMap items) places := by
  induction is generalizing k with
  | nil => exact ⟨[], rfl, .nil, fun path x => by simp [WithinItems]⟩
  | cons i is ih =>
    obtain ⟨own, hown⟩ := h i List.mem_cons_self
    obtain ⟨others, hothers⟩ := ih (fun j hj => h j (List.mem_cons_of_mem i hj)) (k + 1)
    refine ⟨own.map (fun a => (k :: a.1, a.2)) ++ others, ?_, ?_, ?_⟩
    · rw [List.map_append, List.map_map, hothers.map_snd, List.flatMap_cons, ← hown.map_snd]
      rfl
    · refine List.pairwise_append.2 ⟨List.pairwise_map.2 (hown.sorted.imp fun {a b} hab =>
        List.cons_lt_cons_iff.2 (.inr ⟨rfl, hab⟩)), hothers.sorted, ?_⟩
      intro a ha b hb
      obtain ⟨a, -, rfl⟩ := List.mem_map.1 ha
      obtain ⟨j, path, hb, -⟩ := (hothers.mem_iff b.1 b.2).1 hb
      rw [hb]
      exact List.cons_lt_cons_iff.2 (.inl (by omega))
    · intro path x
      rw [List.mem_append, hothers.mem_iff, List.mem_map]
      constructor
      · rintro (⟨⟨path', x'⟩, hin, he⟩ | ⟨j, path', rfl, hstands⟩)
        · obtain ⟨rfl, rfl⟩ := Prod.mk.inj he
          exact ⟨0, path', rfl, i, rfl, (hown.mem_iff _ _).1 hin⟩
        · exact ⟨j + 1, path', by rw [Nat.add_assoc, Nat.add_comm 1], hstands⟩
      · rintro ⟨_ | j, path', rfl, i', hi', hstands⟩
        · obtain rfl : i = i' := Option.some.inj hi'
          exact .inl ⟨(path', x), (hown.mem_iff _ _).2 hstands, rfl⟩
        · exact .inr ⟨j, path', by rw [Nat.add_assoc, Nat.add_comm 1], i', hi', hstands⟩

/-- What stands in the elements of a list is in the order of its paths if that in each of them
is. -/
theorem places_within {stands : ι → List Nat → α → Prop} {items : ι → List α} {is : List ι}
    (h : ∀ i ∈ is, ∃ places, Places (stands i) (items i) places) :
    ∃ places, Places (WithinItems stands is) (is.flatMap items) places := by
  obtain ⟨places, hplaces⟩ := places_from h 0
  refine ⟨places, hplaces.map_snd, hplaces.sorted, fun path x => ?_⟩
  rw [hplaces.mem_iff]
  constructor
  · rintro ⟨j, path', rfl, hstands⟩
    rwa [Nat.zero_add]
  · cases path with
    | nil => exact fun hnone => hnone.elim
    | cons j path' => exact fun hstands => ⟨j, path', by rw [Nat.zero_add], hstands⟩

/-- What stands in a whole is what stands in its parts, behind the one thing that may stand in the
whole itself. -/
theorem Places.whole {stands : List Nat → α → Prop} {own : Option α} {xs : List α}
    (hown : ∀ x, stands [] x ↔ own = some x)
    (h : ∃ places, Places (fun path x => path ≠ [] ∧ stands path x) xs places) :
    ∃ places, Places stands (own.toList ++ xs) places := by
  obtain ⟨inside, hinside⟩ := h
  refine ⟨own.toList.map (fun x => ([], x)) ++ inside, ?_, ?_, ?_⟩
  · rw [List.map_append, List.map_map, hinside.map_snd]
    exact congrArg (· ++ _) (List.map_id _)
  · -- at most one thing stands in the whole itself, and its path is empty
    have hfirst : (own.toList.map fun x => (([] : List Nat), x)).Pairwise
        fun a b => a.1 < b.1 := by
      cases own with
      | none => exact .nil
      | some x => exact List.pairwise_singleton _ _
    refine List.pairwise_append.2 ⟨hfirst, hinside.sorted, ?_⟩
    intro a ha ⟨path, x⟩ hb
    obtain ⟨_, -, rfl⟩ := List.mem_map.1 ha
    obtain ⟨hne, -⟩ := (hinside.mem_iff path x).1 hb
    cases path with
    | nil => exact absurd rfl hne
    | cons i path => exact List.nil_lt_cons i path
  · intro path x
    rw [List.mem_append, hinside.mem_iff, List.mem_map]
    cases path with
    | nil => simp [hown]
    | cons i path => simp

/-- One thing at most stands in a whole of which nothing stands in the parts. -/
theorem Places.alone {stands : List Nat → α → Prop} (own : Option α)
    (hown : ∀ x, stands [] x ↔ own = some x) (hinside : ∀ i path x, ¬ stands (i :: path) x) :
    ∃ places, Places stands own.toList places := by
  rw [← List.append_nil own.toList]
  refine Places.whole hown ⟨[], rfl, .nil, fun path x => iff_of_false (nomatch ·) ?_⟩
  rintro ⟨hne, hstands⟩
  cases path with
  | nil => exact hne rfl
  | cons i path => exact hinside i path x hstands

/-- What stands in the only part of a whole stands in the whole. -/
theorem Places.below {stands stands' : List Nat → α → Prop} {xs : List α}
    (hstands : ∀ path x, stands path x ↔ ∃ path', path = 0 :: path' ∧ stands' path' x)
    (h : ∃ places, Places stands' xs places) : ∃ places, Places stands xs places := by
  have hwithin : ∃ places, Places (WithinItems (fun _ => stands') [()]) ([()].flatMap fun _ => xs)
      places := places_within fun _ _ => h
  obtain ⟨places, hplaces⟩ := hwithin
  refine ⟨places, by simpa using hplaces.map_snd, hplaces.sorted, fun path x => ?_⟩
  rw [hplaces.mem_iff, hstands]
  cases path with
  | nil => simp [WithinItems]
  | cons i path => cases i <;> simp [WithinItems]

end ModuleLoader.Syntax
