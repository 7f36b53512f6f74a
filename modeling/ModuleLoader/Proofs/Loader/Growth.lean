import ModuleLoader.Loader.Load

/-! # What a loader never takes back

Until everything is forgotten together, what a loader remembers stays as it is and what it has
reported stays reported.

* **`Memo.Extends`** is a table that has grown, **`Session.Grows`** a state that has.
* **`Session.Searches`** is what happens while a graph is discovered: sources and resolutions are
  remembered, and nothing is compiled. -/

namespace ModuleLoader

namespace Memo

variable {κ α : Type} [DecidableEq κ]

/-- All that the first table has is in the second. -/
def Extends (m m' : Memo κ α) : Prop := ∀ k v, m.get? k = some v → m'.get? k = some v

theorem Extends.refl (m : Memo κ α) : m.Extends m := fun _ _ h => h

theorem Extends.trans {m m' m'' : Memo κ α} (h : m.Extends m') (h' : m'.Extends m'') :
    m.Extends m'' :=
  fun k v hv => h' k v (h k v hv)

/-- A key that has a value keeps having one. -/
theorem Extends.contains {m m' : Memo κ α} (h : m.Extends m') {k : κ} (hk : m.contains k = true) :
    m'.contains k = true := by
  obtain ⟨v, hv⟩ := Option.isSome_iff_exists.1 hk
  exact Option.isSome_iff_exists.2 ⟨v, h k v hv⟩

/-- Writing a key extends a table. -/
theorem extends_insert (m : Memo κ α) (k : κ) (v : α) : m.Extends (m.insert k v) := by
  intro k' v' hv
  by_cases hk : k' = k
  · subst hk
    rw [insert_of_get?_some m k' v v' hv]
    exact hv
  · rw [get?_insert_of_ne m k k' v hk]
    exact hv

/-- A key that has been written has a value. -/
theorem contains_insert (m : Memo κ α) (k : κ) (v : α) : (m.insert k v).contains k = true := by
  rw [contains, get?_insert_self]
  rfl

/-- Writing one key gives no value to others. -/
theorem contains_insert_of_ne (m : Memo κ α) {k k' : κ} (v : α) (h : k' ≠ k) :
    (m.insert k v).contains k' = m.contains k' := by
  rw [contains, get?_insert_of_ne m k k' v h]
  rfl

/-- A key has a value if one is found for it. -/
theorem contains_of_get? {m : Memo κ α} {k : κ} {v : α} (h : m.get? k = some v) :
    m.contains k = true := by
  rw [contains, h]
  rfl

/-- A key has no value exactly if none is found for it. -/
theorem contains_eq_false_iff {m : Memo κ α} {k : κ} : m.contains k = false ↔ m.get? k = none := by
  rw [contains, Option.isSome_eq_false_iff, Option.isNone_iff_eq_none]

/-- What is given back when a key is written is the value that it has then. -/
theorem get?_insert_eq_getD (m : Memo κ α) (k : κ) (v : α) :
    (m.insert k v).get? k = some (((m.insert k v).get? k).getD v) := by
  rw [get?_insert_self]
  rfl

/-- A value of a table after writing was there before or has been written. -/
theorem get?_insert_elim {m : Memo κ α} {k k' : κ} {v v' : α}
    (h : (m.insert k v).get? k' = some v') :
    m.get? k' = some v' ∨ k' = k ∧ v' = v ∧ m.get? k = none := by
  by_cases hk : k' = k
  · subst hk
    rw [get?_insert_self] at h
    cases hold : m.get? k' with
    | some w => exact .inl (by simpa [hold] using h)
    | none => exact .inr ⟨rfl, by simpa [hold] using h.symm, rfl⟩
  · rw [get?_insert_of_ne m k k' v hk] at h
    exact .inl h

/-- The keys that have values. -/
def keys (m : Memo κ α) : List κ := m.entries.map Prod.fst

/-- A key has a value exactly if it is listed. -/
theorem contains_iff_mem_keys {m : Memo κ α} {k : κ} : m.contains k = true ↔ k ∈ m.keys := by
  unfold contains get? keys
  rw [Option.isSome_map, List.find?_isSome, List.mem_map]
  simp

/-- Writing a key puts it last if it is new. -/
theorem keys_insert (m : Memo κ α) (k : κ) (v : α) : (m.insert k v).keys = addOnce k m.keys := by
  unfold insert addOnce
  by_cases hk : m.contains k = true
  · rw [if_pos hk, if_pos (contains_iff_mem_keys.1 hk)]
  · rw [if_neg hk, if_neg (mt contains_iff_mem_keys.2 hk)]
    simp [keys]

/-- An entry stays when a key is written. -/
theorem mem_entries_insert_of_mem {m : Memo κ α} {k : κ} {v : α} {e : κ × α}
    (h : e ∈ m.entries) : e ∈ (m.insert k v).entries := by
  unfold insert
  split
  · exact h
  · exact List.mem_append_left _ h

/-- An entry after writing was there before or has been written. -/
theorem mem_entries_insert {m : Memo κ α} {k : κ} {v : α} {e : κ × α}
    (h : e ∈ (m.insert k v).entries) : e ∈ m.entries ∨ e = (k, v) := by
  unfold insert at h
  split at h
  · exact .inl h
  · exact (List.mem_append.1 h).imp_right List.mem_singleton.1

end Memo

namespace Session

/-! ## Growth -/

/-- The second state remembers all that the first does and has reported all that it has. -/
structure Grows (s s' : Session) : Prop where
  /-- Sources stay. -/
  sources : s.cache.sources.Extends s'.cache.sources
  /-- What came of compiling modules stays. -/
  compiled : s.cache.compiled.Extends s'.cache.compiled
  /-- Imported modules stay. -/
  modules : s.cache.modules.Extends s'.cache.modules
  /-- Graphs stay. -/
  graphs : s.cache.graphs.Extends s'.cache.graphs
  /-- Resolutions stay. -/
  resolutions : s.cache.resolutions.Extends s'.cache.resolutions
  /-- Reports stay. -/
  events : s.events <+: s'.events

namespace Grows

variable {s s' s'' : Session}

theorem refl (s : Session) : s.Grows s :=
  ⟨.refl _, .refl _, .refl _, .refl _, .refl _, List.prefix_refl _⟩

theorem trans (h : s.Grows s') (h' : s'.Grows s'') : s.Grows s'' where
  sources := h.sources.trans h'.sources
  compiled := h.compiled.trans h'.compiled
  modules := h.modules.trans h'.modules
  graphs := h.graphs.trans h'.graphs
  resolutions := h.resolutions.trans h'.resolutions
  events := h.events.trans h'.events

/-- A module that has been compiled stays compiled. -/
theorem isCompiled (h : s.Grows s') {url : Url} (hc : s.cache.isCompiled url = true) :
    s'.cache.isCompiled url = true :=
  h.compiled.contains hc

end Grows

/-! ## Searching -/

/-- What the second state has more than the first is sources, resolutions and reports. -/
structure Searches (s s' : Session) : Prop extends Grows s s' where
  /-- Nothing is compiled. -/
  sameCompiled : s'.cache.compiled = s.cache.compiled
  /-- Nothing is imported. -/
  sameModules : s'.cache.modules = s.cache.modules
  /-- No graph is remembered. -/
  sameGraphs : s'.cache.graphs = s.cache.graphs
  /-- No transformer is called. -/
  sameCompilations : s'.compilations = s.compilations
  /-- No blob is made. -/
  sameBlobs : s'.blobs = s.blobs
  /-- The imported modules are counted on from the same number. -/
  sameSerial : s'.serial = s.serial

namespace Searches

variable {s s' s'' : Session}

theorem refl (s : Session) : s.Searches s := ⟨.refl s, rfl, rfl, rfl, rfl, rfl, rfl⟩

theorem trans (h : s.Searches s') (h' : s'.Searches s'') : s.Searches s'' where
  toGrows := h.toGrows.trans h'.toGrows
  sameCompiled := h'.sameCompiled.trans h.sameCompiled
  sameModules := h'.sameModules.trans h.sameModules
  sameGraphs := h'.sameGraphs.trans h.sameGraphs
  sameCompilations := h'.sameCompilations.trans h.sameCompilations
  sameBlobs := h'.sameBlobs.trans h.sameBlobs
  sameSerial := h'.sameSerial.trans h.sameSerial

end Searches

/-- Reporting several things leaves all else. -/
theorem searches_reportAll (es : List Event) (s : Session) : s.Searches (reportAll es s).2 where
  toGrows := { Grows.refl s with events := List.prefix_append s.events es }
  sameCompiled := rfl
  sameModules := rfl
  sameGraphs := rfl
  sameCompilations := rfl
  sameBlobs := rfl
  sameSerial := rfl

/-- Reporting something leaves all else. -/
theorem searches_report (e : Event) (s : Session) : s.Searches (report e s).2 :=
  searches_reportAll [e] s

/-- Remembering a source leaves all else. -/
theorem searches_insertSource (url : Url) (text : String) (s : Session) :
    s.Searches (remember (fun c => c.insertSource url text) s).2 where
  toGrows := { Grows.refl s with sources := Memo.extends_insert s.cache.sources url text }
  sameCompiled := rfl
  sameModules := rfl
  sameGraphs := rfl
  sameCompilations := rfl
  sameBlobs := rfl
  sameSerial := rfl

/-- Remembering what a URL stands for leaves all else. -/
theorem searches_insertResolution (requested resolved : Url) (s : Session) :
    s.Searches (remember (fun c => ((), c.insertResolution requested resolved)) s).2 where
  toGrows :=
    { Grows.refl s with
      resolutions := Memo.extends_insert s.cache.resolutions requested resolved }
  sameCompiled := rfl
  sameModules := rfl
  sameGraphs := rfl
  sameCompilations := rfl
  sameBlobs := rfl
  sameSerial := rfl

end Session

end ModuleLoader
