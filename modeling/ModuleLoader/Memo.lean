/-! # Tables written once

A table in which every key is written at most once: the first value of a key stays, and keys keep
the order in which they came.

* **`Memo.insert`** writes a key that has no value yet.
* **`Memo.get?`** looks a key up. -/

namespace ModuleLoader

/-- A table whose entries are written once, in order of arrival. -/
structure Memo (κ α : Type) where
  /-- Keys and values, oldest first. -/
  entries : List (κ × α)
deriving Repr

namespace Memo

variable {κ α : Type} [DecidableEq κ]

/-- The table with nothing in it. -/
def empty : Memo κ α := ⟨[]⟩

instance : Inhabited (Memo κ α) := ⟨empty⟩

/-- The value of a key. -/
def get? (m : Memo κ α) (k : κ) : Option α :=
  (m.entries.find? fun e => e.1 = k).map Prod.snd

/-- The key has a value. -/
def contains (m : Memo κ α) (k : κ) : Bool :=
  (m.get? k).isSome

/-- Writes a key that has no value yet; the value of any other key stays. -/
def insert (m : Memo κ α) (k : κ) (v : α) : Memo κ α :=
  if m.contains k then m else ⟨m.entries ++ [(k, v)]⟩

/-- How many keys have values. -/
def size (m : Memo κ α) : Nat := m.entries.length

/-- The values, oldest first. -/
def values (m : Memo κ α) : List α := m.entries.map Prod.snd

/-- Nothing is in the empty table. -/
@[simp] theorem get?_empty (k : κ) : (empty : Memo κ α).get? k = none := rfl

/-- A key that had a value keeps it. -/
theorem insert_of_get?_some (m : Memo κ α) (k : κ) (v w : α) (h : m.get? k = some w) :
    m.insert k v = m := by
  simp [insert, contains, h]

/-- After writing, a key has its old value or else the new one. -/
theorem get?_insert_self (m : Memo κ α) (k : κ) (v : α) :
    (m.insert k v).get? k = some ((m.get? k).getD v) := by
  unfold insert contains
  cases h : m.get? k with
  | some w => simp [h]
  | none =>
    have hf : m.entries.find? (fun e => decide (e.1 = k)) = none := by
      simpa [get?] using h
    simp [get?, List.find?_append, hf]

/-- Writing one key leaves the others. -/
theorem get?_insert_of_ne (m : Memo κ α) (k k' : κ) (v : α) (h : k' ≠ k) :
    (m.insert k v).get? k' = m.get? k' := by
  unfold insert
  split
  · rfl
  · have h' : ¬ k = k' := fun e => h e.symm
    simp [get?, List.find?_append, h']

end Memo

end ModuleLoader
