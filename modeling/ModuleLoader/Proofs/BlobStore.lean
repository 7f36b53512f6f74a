import Mathlib.Algebra.Group.Nat.Defs
import Mathlib.Data.List.Nodup
import ModuleLoader.BlobStore

/-! # Blob URLs are never used again

The number of a blob can be read off its URL, and the numbers go up, so a new URL is none of those
that have been given away.

* **`BlobStore.urlOf_injective`** says that different numbers give different URLs.
* **`BlobStore.Numbered`** is a store whose URLs all have numbers that have been used, each once. -/

namespace ModuleLoader

namespace Text

/-- Different digits are written differently. -/
theorem hexDigit_injective {a b : Nat} (ha : a < 16) (hb : b < 16)
    (h : hexDigit a = hexDigit b) : a = b := by
  have hread := congrArg hexValue? h
  rw [hexValue?_hexDigit ⟨a, ha⟩, hexValue?_hexDigit ⟨b, hb⟩] at hread
  exact Option.some.inj hread

/-- Digits of a fixed width tell a number up to what does not fit. -/
theorem mod_eq_of_hexFixed_eq {n m width : Nat} (h : hexFixed n width = hexFixed m width) :
    n % 16 ^ width = m % 16 ^ width := by
  induction width generalizing n m with
  | zero => rw [Nat.pow_zero, Nat.mod_one, Nat.mod_one]
  | succ width ih =>
    obtain ⟨hrest, hlast⟩ := List.append_inj' h rfl
    have hdigit : n % 16 = m % 16 :=
      hexDigit_injective (Nat.mod_lt _ (by decide)) (Nat.mod_lt _ (by decide))
        (List.cons.inj hlast).1
    rw [Nat.pow_succ', Nat.mod_mul, Nat.mod_mul, hdigit, ih hrest]

/-- A number fits into the digits that it needs. -/
theorem lt_pow_hexLength (n : Nat) : n < 16 ^ hexLength n := by
  induction n using Nat.strongRecOn with
  | ind n ih =>
    unfold hexLength
    split
    · next hn => simp [hn]
    · next hn =>
      have := ih (n / 16) (by omega)
      rw [Nat.pow_succ]
      omega

/-- Different numbers have different digits. -/
theorem hexAtLeast_injective {n m width : Nat} (h : hexAtLeast n width = hexAtLeast m width) :
    n = m := by
  unfold hexAtLeast at h
  have hlength : max width (hexLength n) = max width (hexLength m) := by
    simpa using congrArg List.length h
  rw [hlength] at h
  have hmod := mod_eq_of_hexFixed_eq h
  -- both numbers fit into that many digits
  have hn : n < 16 ^ max width (hexLength m) := by
    refine Nat.lt_of_lt_of_le (lt_pow_hexLength n) (Nat.pow_le_pow_right (by decide) ?_)
    rw [← hlength]
    exact Nat.le_max_right _ _
  have hm : m < 16 ^ max width (hexLength m) :=
    Nat.lt_of_lt_of_le (lt_pow_hexLength m)
      (Nat.pow_le_pow_right (by decide) (Nat.le_max_right _ _))
  rwa [Nat.mod_eq_of_lt hn, Nat.mod_eq_of_lt hm] at hmod

end Text

namespace BlobStore

variable {s : BlobStore}

/-- Blobs with different numbers have different URLs. -/
theorem urlOf_injective {origin : String} {n m : Nat} (h : urlOf origin n = urlOf origin m) :
    n = m := by
  have hdigits := congrArg String.toList h
  simp only [urlOf, String.toList_append, String.toList_ofList, List.append_cancel_left_eq]
    at hdigits
  exact Text.hexAtLeast_injective hdigits

/-- Numbers that no longer fit into eight digits are written with more. -/
example : urlOf "null" (2 ^ 32 - 1) = "blob:null/ffffffff" ∧
    urlOf "null" (2 ^ 32) = "blob:null/100000000" := by
  decide +kernel

/-- The URLs of the live blobs, oldest first. -/
def urls (s : BlobStore) : List String := s.blobs.map Prod.fst

/-- A URL is live exactly when there is a blob to read at it. -/
theorem mem_urls_iff {url : String} : url ∈ s.urls ↔ (s.get? url).isSome := by
  unfold urls get?
  rw [Option.isSome_map, List.find?_isSome, List.mem_map]
  simp

/-- The live blobs have different URLs, with numbers that have been used. -/
structure Numbered (s : BlobStore) : Prop where
  /-- No URL is used twice. -/
  nodup : s.urls.Nodup
  /-- The number of every URL has been used. -/
  used : ∀ url ∈ s.urls, ∃ n < s.next, url = urlOf s.origin n

/-- A new store has no blobs. -/
theorem numbered_new (origin : String) : (new origin).Numbered :=
  ⟨List.nodup_nil, fun _ h => nomatch h⟩

/-- The next URL is none of those of a numbered store. -/
theorem Numbered.next_notMem (h : s.Numbered) : urlOf s.origin s.next ∉ s.urls := by
  intro hmem
  obtain ⟨n, hn, heq⟩ := h.used _ hmem
  exact absurd (urlOf_injective heq) (Nat.ne_of_gt hn)

/-- A new blob comes last. -/
theorem urls_create (s : BlobStore) (contents mimeType : String) :
    (s.create contents mimeType).2.urls = s.urls ++ [urlOf s.origin s.next] := by
  simp [urls, create]

/-- A new blob leaves a store numbered. -/
theorem Numbered.create (h : s.Numbered) (contents mimeType : String) :
    (s.create contents mimeType).2.Numbered where
  nodup := by
    rw [urls_create, ← List.concat_eq_append]
    exact h.nodup.concat h.next_notMem
  used := by
    intro url hurl
    rw [urls_create, List.mem_append, List.mem_singleton] at hurl
    rcases hurl with hurl | rfl
    · obtain ⟨n, hn, heq⟩ := h.used url hurl
      exact ⟨n, Nat.lt_succ_of_lt hn, heq⟩
    · exact ⟨s.next, Nat.lt_succ_self _, rfl⟩

/-- Live blobs stay as they are when there is a new one. -/
theorem get?_create_of_some {url : String} {b : Blob} (h : s.get? url = some b)
    (contents mimeType : String) : (s.create contents mimeType).2.get? url = some b := by
  obtain ⟨e, he, rfl⟩ := Option.map_eq_some_iff.1 h
  simp [get?, BlobStore.create, List.find?_append, he]

/-- A new blob changes nothing at the other URLs. -/
theorem get?_create_of_ne {url : String} (h : url ≠ urlOf s.origin s.next)
    (contents mimeType : String) : (s.create contents mimeType).2.get? url = s.get? url := by
  have hne : ¬ urlOf s.origin s.next = url := fun e => h e.symm
  simp [get?, BlobStore.create, List.find?_append, hne]

/-- A new blob can be read. -/
theorem Numbered.get?_create_self (h : s.Numbered) (contents mimeType : String) :
    (s.create contents mimeType).2.get? (urlOf s.origin s.next) = some ⟨mimeType, contents⟩ := by
  have hnone : s.blobs.find? (fun e => e.1 = urlOf s.origin s.next) = none := by
    rw [List.find?_eq_none]
    intro e he hurl
    exact h.next_notMem (of_decide_eq_true hurl ▸ List.mem_map_of_mem (f := Prod.fst) he)
  simp [get?, BlobStore.create, List.find?_append, hnone]

/-! ## Revoking -/

/-- A revoked URL is taken out. -/
theorem urls_revoke (s : BlobStore) (url : String) :
    (s.revoke url).urls = s.urls.filter (· ≠ url) := by
  simp [urls, revoke, List.filter_map, Function.comp_def]

/-- Revoking leaves a store numbered. -/
theorem Numbered.revoke (h : s.Numbered) (url : String) : (s.revoke url).Numbered where
  nodup := by
    rw [urls_revoke]
    exact h.nodup.filter _
  used := by
    intro other hother
    rw [urls_revoke] at hother
    exact h.used other (List.mem_of_mem_filter hother)

/-- Revoked URLs are taken out. -/
theorem urls_foldl_revoke (revoked : List String) (s : BlobStore) :
    (revoked.foldl BlobStore.revoke s).urls = s.urls.filter (· ∉ revoked) := by
  induction revoked generalizing s with
  | nil => exact (List.filter_eq_self.2 fun _ _ => by simp).symm
  | cons url revoked ih =>
    rw [List.foldl_cons, ih, urls_revoke, List.filter_filter]
    congr 1
    funext other
    simp [Bool.and_comm]

end BlobStore

end ModuleLoader
