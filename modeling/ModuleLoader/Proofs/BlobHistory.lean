import Mathlib.Data.Set.Card
import ModuleLoader.Proofs.BlobStore

/-! # What is read at the URLs of blobs

A store is asked for URLs and told to revoke some, in any order: live ones, ones that have been
revoked before, ones that it has not given away. What is read at a URL then can be told from what
was seen of the calls, without looking into the store.

* **`BlobStore.Call`** is one call, **`BlobStore.Event`** what is seen of it; **`BlobStore.run`**
  makes several.
* **`BlobStore.Live`** says by what was seen which blob is live at a URL.
* **`BlobStore.RecordedBy`** is a store that is as what was seen has it; every call keeps that.
* **`BlobStore.neverReused_of_run`** says what holds after any calls on a new store. -/

namespace ModuleLoader

namespace BlobStore

/-! ## Calls and what is seen of them -/

/-- What a store can be asked to do. -/
inductive Call
  /-- To store a text with its type under a new URL. -/
  | create (contents mimeType : String)
  /-- To forget the blob at a URL. -/
  | revoke (url : String)
deriving DecidableEq, Repr

/-- What is seen of a call. -/
inductive Event
  /-- A blob was given a URL. -/
  | created (url : String) (b : Blob)
  /-- A URL was revoked. -/
  | revoked (url : String)
deriving DecidableEq, Repr

/-- The URL that was given away. -/
def Event.createdUrl? : Event → Option String
  | .created url _ => some url
  | .revoked _ => none

/-- Does what is asked for, and tells what is seen of it. -/
def step (s : BlobStore) : Call → Event × BlobStore
  | .create contents mimeType =>
    let (url, s') := s.create contents mimeType
    (.created url ⟨mimeType, contents⟩, s')
  | .revoke url => (.revoked url, s.revoke url)

/-- Does several things, one after the other, and tells what is seen of each. -/
def run (s : BlobStore) : List Call → List Event × BlobStore
  | [] => ([], s)
  | c :: rest =>
    let (e, s') := s.step c
    let (es, s'') := s'.run rest
    (e :: es, s'')

/-- What is seen of calls on a new store. -/
def history (origin : String) (calls : List Call) : List Event := ((new origin).run calls).1

/-- The store that calls on a new one lead to. -/
def after (origin : String) (calls : List Call) : BlobStore := ((new origin).run calls).2

/-- The URLs that were given away, oldest first. -/
def createdUrls (seen : List Event) : List String := seen.filterMap Event.createdUrl?

/-- A blob was created at a URL that has not been revoked since. -/
def Live (seen : List Event) (url : String) (b : Blob) : Prop :=
  ∃ before since, seen = before ++ .created url b :: since ∧ .revoked url ∉ since

variable {s : BlobStore} {seen : List Event}

/-- One thing is seen of every call. -/
theorem length_fst_run (s : BlobStore) (calls : List Call) :
    (s.run calls).1.length = calls.length := by
  induction calls generalizing s with
  | nil => rfl
  | cons c rest ih => rw [run, List.length_cons, ih, List.length_cons]

/-- Calls behind others start where these have led. -/
theorem run_append (s : BlobStore) (calls later : List Call) :
    s.run (calls ++ later) =
      ((s.run calls).1 ++ ((s.run calls).2.run later).1, ((s.run calls).2.run later).2) := by
  induction calls generalizing s with
  | nil => rfl
  | cons c rest ih => simp only [List.cons_append, run, ih]

/-- One more call leads one step on. -/
theorem after_append_singleton (origin : String) (calls : List Call) (c : Call) :
    after origin (calls ++ [c]) = ((after origin calls).step c).2 := by
  rw [after, run_append]
  rfl

/-- Behind one more event, a blob is live if the event created it, or if it was live and the event
did not revoke it. -/
theorem live_append_singleton {e : Event} {url : String} {b : Blob} :
    Live (seen ++ [e]) url b ↔ e = .created url b ∨ Live seen url b ∧ e ≠ .revoked url := by
  constructor
  · rintro ⟨before, since, heq, hsince⟩
    -- the creation is the last event, or the last event is one since then
    rcases List.eq_nil_or_concat' since with rfl | ⟨since, last, rfl⟩
    · exact .inl (List.cons.inj (List.append_inj' heq rfl).2).1
    · rw [← List.cons_append, ← List.append_assoc] at heq
      obtain ⟨rfl, hlast⟩ := List.append_inj' heq rfl
      obtain rfl := (List.cons.inj hlast).1
      rw [List.mem_append, not_or, List.mem_singleton] at hsince
      exact .inr ⟨⟨before, since, rfl, hsince.1⟩, fun h => hsince.2 h.symm⟩
  · rintro (rfl | ⟨⟨before, since, rfl, hsince⟩, hne⟩)
    · exact ⟨seen, [], rfl, List.not_mem_nil⟩
    · refine ⟨before, since ++ [e], by simp, ?_⟩
      rw [List.mem_append, not_or, List.mem_singleton]
      exact ⟨hsince, fun h => hne h.symm⟩

/-- The URL of a live blob was given away. -/
theorem Live.mem_createdUrls {url : String} {b : Blob} (h : Live seen url b) :
    url ∈ createdUrls seen := by
  obtain ⟨before, since, rfl, -⟩ := h
  exact List.mem_filterMap.2 ⟨.created url b, by simp, rfl⟩

/-! ## Stores that are as was seen -/

/-- A store is as what was seen of it has it. -/
structure RecordedBy (s : BlobStore) (seen : List Event) : Prop where
  /-- The live blobs have different URLs, with numbers that have been used. -/
  numbered : s.Numbered
  /-- The next number counts the URLs that were given away. -/
  next : s.next = (createdUrls seen).length + 1
  /-- These have the numbers from one up. -/
  created : createdUrls seen =
    (List.range' 1 (createdUrls seen).length).map (urlOf s.origin)
  /-- What is read at a URL is the blob that is live there. -/
  get?_eq_some_iff : ∀ url b, s.get? url = some b ↔ Live seen url b

/-- Nothing was seen of a new store. -/
theorem recordedBy_new (origin : String) : (new origin).RecordedBy [] where
  numbered := numbered_new origin
  next := rfl
  created := rfl
  get?_eq_some_iff := by
    intro url b
    rw [get?_new]
    constructor
    · exact fun h => nomatch h
    · exact fun ⟨_, _, heq, _⟩ => absurd heq.symm (by simp)

namespace RecordedBy

/-- The next URL has not been given away. -/
theorem next_notMem (h : s.RecordedBy seen) : urlOf s.origin s.next ∉ createdUrls seen := by
  intro hmem
  rw [h.created, List.mem_map] at hmem
  obtain ⟨n, hn, heq⟩ := hmem
  rw [urlOf_injective heq, h.next, List.mem_range'_1] at hn
  omega

/-- No URL was given away twice. -/
theorem nodup (h : s.RecordedBy seen) : (createdUrls seen).Nodup := by
  rw [h.created]
  exact (List.nodup_range' 1).map fun _ _ => urlOf_injective

/-- A store tells how many URLs were given away and have not been revoked since. -/
theorem size_eq (h : s.RecordedBy seen) :
    (s.size : ℕ∞) = {url | ∃ b, Live seen url b}.encard := by
  have hurls : {url | ∃ b, Live seen url b} = (s.urls.toFinset : Set String) := by
    ext url
    simp [mem_urls_iff, Option.isSome_iff_exists, h.get?_eq_some_iff]
  rw [hurls, Set.encard_coe_eq_coe_finsetCard, List.toFinset_card_of_nodup h.numbered.nodup, urls,
    List.length_map, size]

/-- A new blob is live from then on, and so are the others. -/
theorem create (h : s.RecordedBy seen) (contents mimeType : String) :
    (s.create contents mimeType).2.RecordedBy
      (seen ++ [.created (s.create contents mimeType).1 ⟨mimeType, contents⟩]) := by
  have hurls : createdUrls (seen ++ [.created (s.create contents mimeType).1
      ⟨mimeType, contents⟩]) = createdUrls seen ++ [urlOf s.origin s.next] :=
    List.filterMap_append
  refine ⟨h.numbered.create contents mimeType, ?_, ?_, ?_⟩
  · rw [hurls, List.length_append, List.length_singleton, ← h.next]
    rfl
  · have hnext : urlOf s.origin s.next = urlOf s.origin (1 + 1 * (createdUrls seen).length) := by
      rw [h.next, Nat.one_mul, Nat.add_comm]
    rw [hurls, List.length_append, List.length_singleton, List.range'_concat, List.map_append]
    exact congrArg₂ (· ++ ·) h.created (congrArg (fun url => [url]) hnext)
  · intro url b
    rw [live_append_singleton]
    by_cases hurl : url = urlOf s.origin s.next
    -- nothing was live at the new URL
    · subst hurl
      have hnot : ¬ Live seen (urlOf s.origin s.next) b :=
        fun hlive => h.next_notMem hlive.mem_createdUrls
      rw [h.numbered.get?_create_self]
      simp [hnot, BlobStore.create]
    · have hne : ¬ urlOf s.origin s.next = url := fun e => hurl e.symm
      rw [get?_create_of_ne hurl, h.get?_eq_some_iff]
      simp [hne, BlobStore.create]

/-- A URL that is revoked is live no more, and the others are as before. -/
theorem revoke (h : s.RecordedBy seen) (url : String) :
    (s.revoke url).RecordedBy (seen ++ [.revoked url]) := by
  have hurls : createdUrls (seen ++ [.revoked url]) = createdUrls seen := by
    simp [createdUrls, Event.createdUrl?]
  refine ⟨h.numbered.revoke url, ?_, ?_, ?_⟩
  · rw [hurls]
    exact h.next
  · rw [hurls]
    exact h.created
  · intro other b
    rw [live_append_singleton]
    by_cases hother : other = url
    · subst hother
      simp [get?_revoke_self]
    · have hne : ¬ url = other := fun e => hother e.symm
      rw [get?_revoke_of_ne s url other hother, h.get?_eq_some_iff]
      simp [hne]

/-- A call leaves a store as what is seen of it has it. -/
theorem step (h : s.RecordedBy seen) (c : Call) :
    (s.step c).2.RecordedBy (seen ++ [(s.step c).1]) := by
  cases c with
  | create contents mimeType => exact h.create contents mimeType
  | revoke url => exact h.revoke url

/-- So do several calls. -/
theorem run (h : s.RecordedBy seen) (calls : List Call) :
    (s.run calls).2.RecordedBy (seen ++ (s.run calls).1) := by
  induction calls generalizing s seen with
  | nil =>
    rw [BlobStore.run, List.append_nil]
    exact h
  | cons c rest ih =>
    have hrest := ih (h.step c)
    rw [List.append_assoc] at hrest
    exact hrest

end RecordedBy

/-- A store that calls on a new one have led to is as what was seen has it. -/
theorem recordedBy_history (origin : String) (calls : List Call) :
    (after origin calls).RecordedBy (history origin calls) :=
  (recordedBy_new origin).run calls

/-- Calls use no more numbers than there are calls. -/
theorem next_after_le (origin : String) (calls : List Call) :
    (after origin calls).next ≤ calls.length + 1 := by
  rw [(recordedBy_history origin calls).next, ← length_fst_run (new origin) calls]
  exact Nat.succ_le_succ (List.length_filterMap_le _ _)

/-- Creating a blob changes nothing at the other URLs. -/
theorem get?_after_create_of_ne {origin url : String} {calls : List Call}
    {contents mimeType : String} (h : url ≠ ((after origin calls).create contents mimeType).1) :
    (after origin (calls ++ [.create contents mimeType])).get? url =
      (after origin calls).get? url := by
  rw [after_append_singleton]
  exact get?_create_of_ne h contents mimeType

/-- URLs are never used again. Whatever URLs are revoked in fewer than `2 ^ 64 - 1` calls on a new
store, the next number still fits into 64 bits, and no URL has been given away twice. What is read
at a URL is the blob that was created there, if there was one and the URL has not been revoked
since, and nothing otherwise; and the store tells how many such URLs there are. No creation among
the calls has changed what is read at another URL. -/
theorem neverReused_of_run (origin : String) (calls : List Call)
    (h : calls.length < 2 ^ 64 - 1) :
    (after origin calls).next < 2 ^ 64 ∧
      (createdUrls (history origin calls)).Nodup ∧
      (∀ url b, (after origin calls).get? url = some b ↔ Live (history origin calls) url b) ∧
      (after origin calls).size = {url | ∃ b, Live (history origin calls) url b}.encard ∧
      ∀ earlier contents mimeType, earlier ++ [.create contents mimeType] <+: calls →
        ∀ url ≠ ((after origin earlier).create contents mimeType).1,
          (after origin (earlier ++ [.create contents mimeType])).get? url =
            (after origin earlier).get? url := by
  have hrecorded := recordedBy_history origin calls
  have hnext : (after origin calls).next < 2 ^ 64 := by
    have := next_after_le origin calls
    omega
  exact ⟨hnext, hrecorded.nodup, hrecorded.get?_eq_some_iff, hrecorded.size_eq,
    fun _ _ _ _ _ hne => get?_after_create_of_ne hne⟩

/-- A URL is revoked before it is given away, one is revoked twice, and the same text is stored
twice. -/
def revokedEarly : List Call :=
  [.revoke "blob:null/00000002", .create "a;" "text/javascript", .create "b;" "text/javascript",
    .revoke "blob:null/00000001", .revoke "blob:null/00000001", .create "a;" "text/javascript"]

/-- The URL that was revoked before it was given away is live, and the one that was revoked twice is
not, though its text has been stored again. -/
theorem neverReused_of_run_revokedEarly :
    revokedEarly.length < 2 ^ 64 - 1 ∧
      createdUrls (history "null" revokedEarly) =
        ["blob:null/00000001", "blob:null/00000002", "blob:null/00000003"] ∧
      (createdUrls (history "null" revokedEarly)).Nodup ∧
      (∀ b, ¬ Live (history "null" revokedEarly) "blob:null/00000001" b) ∧
      Live (history "null" revokedEarly) "blob:null/00000002" ⟨"text/javascript", "b;"⟩ ∧
      {url | ∃ b, Live (history "null" revokedEarly) url b}.encard = 2 := by
  have hlength : revokedEarly.length < 2 ^ 64 - 1 := by decide
  obtain ⟨-, hnodup, hget, hsize, -⟩ := neverReused_of_run "null" revokedEarly hlength
  refine ⟨hlength, by decide +kernel, hnodup, ?_, ?_, ?_⟩
  · intro b hlive
    have hnone : (after "null" revokedEarly).get? "blob:null/00000001" = none := by
      decide +kernel
    rw [← hget, hnone] at hlive
    cases hlive
  · rw [← hget]
    decide +kernel
  · have htwo : (after "null" revokedEarly).size = 2 := by decide +kernel
    rw [← hsize, htwo]
    rfl

end BlobStore

end ModuleLoader
