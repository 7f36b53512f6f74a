import Mathlib.Data.List.Induction
import ModuleLoader.Proofs.Graph.Recording
import ModuleLoader.Proofs.Loader.Growth

/-! # The modules that imports lead to

A URL is settled once it is known which module it stands for, and stands for that module from then
on. What a graph records of a module is described by the imports that were scanned in it.

* **`Session.Settled`** is a URL that stands for a module for good.
* **`Loader.mem_localDependencies_iff`** says which modules a list of imports leads to, and
  by which of them a module is imported by `import()` alone.
* **`Loader.Scanned`** is what the discovery has scanned in a module, **`Loader.Records`** a graph
  that has it, and **`Loader.Describes`** a graph all of whose modules it has so. -/

namespace ModuleLoader

namespace Session

/-- The URL stands for a module for good: it has an extension, or one has been found for it. -/
def Settled (s : Session) (u : Url) : Prop :=
  u.hasExtension = true ∨ s.cache.resolutions.contains u = true

/-- A URL that is settled stays so. -/
theorem Grows.settled {s s' : Session} (h : s.Grows s') {u : Url} (hu : s.Settled u) :
    s'.Settled u :=
  hu.imp_right h.resolutions.contains

/-- A discovery could not have the source of the module. -/
def Missed (s : Session) (m : Url) : Prop := ∃ e, Event.discoveryFailed m e ∈ s.events

/-- A miss stays reported. -/
theorem Grows.missed {s s' : Session} (h : s.Grows s') {m : Url} (hm : s.Missed m) :
    s'.Missed m :=
  hm.imp fun _ he => h.events.subset he

end Session

namespace Loader

variable {l : Loader} {s s' : Session}

/-! ## Targets -/

/-- A URL with an extension stands for itself. -/
theorem lookupTarget_of_hasExtension (c : Cache Module) {u : Url} (h : u.hasExtension = true) :
    l.lookupTarget c u = u :=
  if_pos h

/-- A URL without extension stands for what has been found for it. -/
theorem lookupTarget_of_resolution {c : Cache Module} {u t : Url} (hu : u.hasExtension = false)
    (h : c.resolutions.get? u = some t) : l.lookupTarget c u = t := by
  rw [lookupTarget, if_neg (by simp [hu]), h]

/-- What a settled URL stands for: itself if it has an extension, else what has been found. -/
theorem lookupTarget_settled {u : Url} (h : s.Settled u) :
    u.hasExtension = true ∧ l.lookupTarget s.cache u = u ∨
      s.cache.resolutions.get? u = some (l.lookupTarget s.cache u) := by
  by_cases hu : u.hasExtension = true
  · exact .inl ⟨hu, lookupTarget_of_hasExtension _ hu⟩
  · obtain ⟨t, ht⟩ := Option.isSome_iff_exists.1 (h.resolve_left hu)
    rw [lookupTarget_of_resolution (Bool.eq_false_iff.2 hu) ht]
    exact .inr ht

/-- A settled URL stands for the same module ever after. -/
theorem lookupTarget_eq_of_grows (hg : s.Grows s') {u : Url} (h : s.Settled u) :
    l.lookupTarget s'.cache u = l.lookupTarget s.cache u := by
  by_cases hu : u.hasExtension = true
  · rw [lookupTarget_of_hasExtension _ hu, lookupTarget_of_hasExtension _ hu]
  · obtain ⟨t, ht⟩ := Option.isSome_iff_exists.1 (h.resolve_left hu)
    have hu := Bool.eq_false_iff.2 hu
    rw [lookupTarget_of_resolution hu ht, lookupTarget_of_resolution hu (hg.resolutions u t ht)]

/-- URLs stand for the same where the same has been found for them and the same modules have been
compiled. -/
theorem lookupTarget_congr {c c' : Cache Module}
    (hresolutions : ∀ u, c.resolutions.get? u = c'.resolutions.get? u)
    (hcompiled : ∀ u, c.isCompiled u = c'.isCompiled u) :
    l.lookupTarget c = l.lookupTarget c' := by
  funext u
  have hcompiled' : c.isCompiled = c'.isCompiled := funext hcompiled
  rw [lookupTarget, lookupTarget, hresolutions, hcompiled']

/-! ## The modules that a list of imports leads to -/

/-- Imports lead to the same modules where URLs stand for the same. -/
theorem localDependencies_congr {c c' : Cache Module}
    (h : l.lookupTarget c = l.lookupTarget c') :
    l.localDependencies c = l.localDependencies c' := by
  funext imports
  rw [localDependencies, localDependencies, h]

/-- What is unresolved among URLs: those without extension for which nothing has been found. -/
theorem mem_unresolved {c : Cache Module} {requested : List Url} {u : Url} :
    u ∈ unresolved c requested ↔
      u ∈ requested ∧ u.hasExtension = false ∧ c.resolutions.contains u = false := by
  rw [unresolved, mem_foldl_addOnce, List.mem_filter, Bool.and_eq_true, Bool.not_eq_true',
    Bool.not_eq_true']
  exact or_iff_right List.not_mem_nil

/-- Each URL is unresolved once. -/
theorem nodup_unresolved (c : Cache Module) (requested : List Url) :
    (unresolved c requested).Nodup :=
  nodup_foldl_addOnce _ List.nodup_nil

/-- The same URLs are unresolved where the same has been found for them. -/
theorem unresolved_congr {c c' : Cache Module}
    (h : ∀ u, c.resolutions.get? u = c'.resolutions.get? u) :
    unresolved c = unresolved c' := by
  funext requested
  rw [unresolved, unresolved]
  simp only [Memo.contains, h]

/-- The modules that some imports and one more lead to. -/
theorem localDependencies_concat (l : Loader) (c : Cache Module) (imports : List (Url × Bool))
    (i : Url × Bool) :
    l.localDependencies c (imports ++ [i]) =
      if l.lookupTarget c i.1 ∈ (l.localDependencies c imports).map Prod.fst then
        (l.localDependencies c imports).map fun d =>
          if d.1 = l.lookupTarget c i.1 then (d.1, d.2 && i.2) else d
      else l.localDependencies c imports ++ [(l.lookupTarget c i.1, i.2)] := by
  have hany : (l.localDependencies c imports).any (·.1 = l.lookupTarget c i.1) = true ↔
      l.lookupTarget c i.1 ∈ (l.localDependencies c imports).map Prod.fst := by
    simp [List.any_eq_true, List.mem_map]
  rw [← if_congr hany rfl rfl]
  unfold localDependencies
  rw [List.foldl_append]
  rfl

/-- The modules that imports lead to are what they stand for, each once. -/
theorem map_fst_localDependencies (l : Loader) (c : Cache Module) (imports : List (Url × Bool)) :
    (l.localDependencies c imports).map Prod.fst =
      (imports.map fun i => l.lookupTarget c i.1).foldl (fun us u => addOnce u us) [] := by
  induction imports using List.reverseRecOn with
  | nil => rfl
  | append_singleton imports i ih =>
    rw [localDependencies_concat, List.map_append, List.foldl_append, ← ih]
    by_cases h : l.lookupTarget c i.1 ∈ (l.localDependencies c imports).map Prod.fst
    · rw [if_pos h, List.map_map]
      simp only [addOnce, List.map_cons, List.map_nil, List.foldl_cons, List.foldl_nil, if_pos h]
      apply List.map_congr_left
      intro d _
      by_cases hd : d.1 = l.lookupTarget c i.1 <;> simp [hd]
    · rw [if_neg h]
      simp [addOnce, h]

/-- No module is listed twice. -/
theorem nodup_localDependencies (l : Loader) (c : Cache Module) (imports : List (Url × Bool)) :
    ((l.localDependencies c imports).map Prod.fst).Nodup := by
  rw [map_fst_localDependencies]
  exact nodup_foldl_addOnce _ List.nodup_nil

/-- A module is listed if one of the imports stands for it. -/
theorem mem_map_fst_localDependencies {c : Cache Module} {imports : List (Url × Bool)} {t : Url} :
    t ∈ (l.localDependencies c imports).map Prod.fst ↔
      ∃ i ∈ imports, l.lookupTarget c i.1 = t := by
  rw [map_fst_localDependencies, mem_foldl_addOnce]
  simp

/-- One more import changes nothing for the modules that it does not stand for. -/
theorem mem_localDependencies_concat_of_ne {c : Cache Module} {imports : List (Url × Bool)}
    {i : Url × Bool} {t : Url} {b : Bool} (ht : l.lookupTarget c i.1 ≠ t) :
    (t, b) ∈ l.localDependencies c (imports ++ [i]) ↔ (t, b) ∈ l.localDependencies c imports := by
  rw [localDependencies_concat]
  split
  · constructor
    · intro hb
      obtain ⟨d, hd, heq⟩ := List.mem_map.1 hb
      by_cases hd' : d.1 = l.lookupTarget c i.1
      · rw [if_pos hd'] at heq
        exact absurd (hd'.symm.trans (Prod.mk.inj heq).1) ht
      · rw [if_neg hd'] at heq
        exact heq ▸ hd
    · intro hb
      exact List.mem_map.2 ⟨_, hb, if_neg fun h => ht h.symm⟩
  · rw [List.mem_append, List.mem_singleton]
    refine ⟨fun h => h.resolve_right fun heq => ?_, .inl⟩
    exact ht (Prod.mk.inj heq).1.symm

/-- One more import leaves a module that it stands for lazy if it was so and the import is, too. -/
theorem mem_localDependencies_concat_self {c : Cache Module} {imports : List (Url × Bool)}
    {i : Url × Bool} {b : Bool} :
    (l.lookupTarget c i.1, b) ∈ l.localDependencies c (imports ++ [i]) ↔
      (∃ b₀, (l.lookupTarget c i.1, b₀) ∈ l.localDependencies c imports ∧ (b₀ && i.2) = b) ∨
        l.lookupTarget c i.1 ∉ (l.localDependencies c imports).map Prod.fst ∧ b = i.2 := by
  rw [localDependencies_concat]
  split
  · next hmem =>
    simp only [hmem, not_true_eq_false, false_and, or_false, List.mem_map]
    constructor
    · rintro ⟨⟨t, b₀⟩, hd, heq⟩
      by_cases ht : t = l.lookupTarget c i.1
      · subst ht
        exact ⟨b₀, hd, by simpa using heq⟩
      · exact absurd (by simpa [ht] using congrArg Prod.fst heq) ht
    · rintro ⟨b₀, hd, rfl⟩
      exact ⟨_, hd, if_pos rfl⟩
  · next hmem =>
    have hnone : ∀ b₀, (l.lookupTarget c i.1, b₀) ∉ l.localDependencies c imports :=
      fun b₀ hd => hmem (List.mem_map.2 ⟨_, hd, rfl⟩)
    simp [hmem, hnone]

/-- A module is listed as lazy exactly if the imports that stand for it are all by `import()`. -/
theorem mem_localDependencies_iff {c : Cache Module} {imports : List (Url × Bool)} {t : Url}
    {b : Bool} :
    (t, b) ∈ l.localDependencies c imports ↔
      (∃ i ∈ imports, l.lookupTarget c i.1 = t) ∧
        (b = true ↔ ∀ i ∈ imports, l.lookupTarget c i.1 = t → i.2 = true) := by
  induction imports using List.reverseRecOn generalizing b with
  | nil => simp [localDependencies]
  | append_singleton imports i ih =>
    simp only [List.mem_append, List.mem_singleton, or_imp, forall_and, forall_eq]
    by_cases ht : l.lookupTarget c i.1 = t
    · subst ht
      rw [mem_localDependencies_concat_self, mem_map_fst_localDependencies]
      constructor
      · rintro (⟨b₀, hd, rfl⟩ | ⟨hnone, rfl⟩)
        · obtain ⟨⟨j, hj⟩, hb₀⟩ := ih.1 hd
          refine ⟨⟨j, .inl hj.1, hj.2⟩, ?_⟩
          rw [Bool.and_eq_true, hb₀]
          simp
        · refine ⟨⟨i, .inr rfl, rfl⟩, fun hi => ⟨fun j hj heq => ?_, fun _ => hi⟩, fun h => h.2 rfl⟩
          exact absurd ⟨j, hj, heq⟩ hnone
      -- the mark that was there before says whether all earlier imports are by `import()`
      · rintro ⟨-, hb⟩
        by_cases hold : ∃ j ∈ imports, l.lookupTarget c j.1 = l.lookupTarget c i.1
        · refine .inl ⟨decide (∀ j ∈ imports,
            l.lookupTarget c j.1 = l.lookupTarget c i.1 → j.2 = true),
            ih.2 ⟨hold, decide_eq_true_iff⟩, ?_⟩
          rw [Bool.eq_iff_iff, hb, Bool.and_eq_true, decide_eq_true_eq]
          simp
        · refine .inr ⟨hold, ?_⟩
          rw [Bool.eq_iff_iff, hb]
          exact ⟨fun h => h.2 rfl, fun hi =>
            ⟨fun j hj heq => absurd ⟨j, hj, heq⟩ hold, fun _ => hi⟩⟩
    · rw [mem_localDependencies_concat_of_ne ht, ih]
      simp [or_and_right, exists_or, ht]

/-- Imports that are settled lead to the same modules ever after. -/
theorem localDependencies_eq_of_grows (hg : s.Grows s') {imports : List (Url × Bool)}
    (h : ∀ i ∈ imports, s.Settled i.1) :
    l.localDependencies s'.cache imports = l.localDependencies s.cache imports := by
  induction imports using List.reverseRecOn with
  | nil => rfl
  | append_singleton imports i ih =>
    rw [localDependencies_concat, localDependencies_concat, ih fun j hj => h j (by simp [hj]),
      lookupTarget_eq_of_grows hg (h i (by simp))]

/-! ## What graphs record -/

/-- The URLs that a module with some source imports, each with whether it is by `import()`. -/
def importsIn (l : Loader) (m : Url) (source : String) : List (Url × Bool) :=
  importsOf m (scan l.config.scanMode source m.pathText)

/-- What has been scanned in a module: the imports of its source, or none if a discovery could not
have the source. -/
def Scanned (l : Loader) (s : Session) (m : Url) (imports : List (Url × Bool)) : Prop :=
  (∃ source, s.cache.sources.get? m = some source ∧ imports = l.importsIn m source) ∨
    imports = [] ∧ s.Missed m

/-- What has been scanned in a module stays. -/
theorem Scanned.of_grows {m : Url} {imports : List (Url × Bool)} (h : l.Scanned s m imports)
    (hg : s.Grows s') : l.Scanned s' m imports := by
  rcases h with ⟨source, hs, hi⟩ | ⟨hi, hm⟩
  · exact .inl ⟨source, hg.sources m source hs, hi⟩
  · exact .inr ⟨hi, hg.missed hm⟩

/-- The graph has what some imports of a module lead to, and all of them are settled. -/
structure Records (l : Loader) (s : Session) (g : Graph) (m : Url) (imports : List (Url × Bool)) :
    Prop where
  /-- It is known which modules the imports lead to. -/
  settled : ∀ i ∈ imports, s.Settled i.1
  /-- The module imports these. -/
  dependencies : g.dependencies m = (l.localDependencies s.cache imports).map Prod.fst
  /-- It imports those by `import()` alone that are marked so. -/
  lazyDependencies : g.lazyDependencies m =
    ((l.localDependencies s.cache imports).filter Prod.snd).map Prod.fst

namespace Records

variable {g : Graph} {m : Url} {imports : List (Url × Bool)}

/-- What a graph records of a module stays true. -/
theorem of_grows (h : l.Records s g m imports) (hg : s.Grows s') : l.Records s' g m imports where
  settled := fun i hi => hg.settled (h.settled i hi)
  dependencies := by rw [localDependencies_eq_of_grows hg h.settled, h.dependencies]
  lazyDependencies := by rw [localDependencies_eq_of_grows hg h.settled, h.lazyDependencies]

/-- A module imports another exactly if one of its imports stands for that. -/
theorem mem_dependencies_iff (h : l.Records s g m imports) {t : Url} :
    t ∈ g.dependencies m ↔ ∃ i ∈ imports, l.lookupTarget s.cache i.1 = t := by
  rw [h.dependencies, mem_map_fst_localDependencies]

/-- A module imports another by `import()` alone exactly if all imports that stand for it are
so. -/
theorem mem_lazyDependencies_iff (h : l.Records s g m imports) {t : Url} :
    t ∈ g.lazyDependencies m ↔
      (∃ i ∈ imports, l.lookupTarget s.cache i.1 = t) ∧
        ∀ i ∈ imports, l.lookupTarget s.cache i.1 = t → i.2 = true := by
  rw [h.lazyDependencies, List.mem_map]
  constructor
  · rintro ⟨⟨t, b⟩, hd, rfl⟩
    obtain ⟨hd, hb⟩ := List.mem_filter.1 hd
    obtain ⟨hex, hall⟩ := mem_localDependencies_iff.1 hd
    exact ⟨hex, hall.1 hb⟩
  · rintro ⟨hex, hall⟩
    refine ⟨(t, true), List.mem_filter.2 ⟨?_, rfl⟩, rfl⟩
    exact mem_localDependencies_iff.2 ⟨hex, iff_of_true rfl hall⟩

/-- A module is evaluated along with another exactly if that imports it otherwise than by
`import()`. -/
theorem mem_eagerEdges_iff (h : l.Records s g m imports) {t : Url} :
    t ∈ g.eagerEdges m ↔ ∃ i ∈ imports, i.2 = false ∧ l.lookupTarget s.cache i.1 = t := by
  rw [Graph.eagerEdges_eq, List.mem_filter, decide_eq_true_eq, h.mem_dependencies_iff,
    h.mem_lazyDependencies_iff]
  constructor
  -- an edge that is not lazy has an import that makes it so
  · rintro ⟨hex, hnot⟩
    by_contra hnone
    refine hnot ⟨hex, fun i hi ht => ?_⟩
    by_contra hb
    exact hnone ⟨i, hi, Bool.eq_false_iff.2 hb, ht⟩
  · rintro ⟨i, hi, hb, ht⟩
    refine ⟨⟨i, hi, ht⟩, fun hlazy => ?_⟩
    rw [hlazy.2 i hi ht] at hb
    cases hb

end Records

/-- The graph has the entry and, for each of its modules, what has been scanned in it. -/
structure Describes (l : Loader) (s : Session) (entry : Url) (g : Graph) : Prop where
  /-- Every module is listed once, and so is what it imports. -/
  wellFormed : g.WellFormed
  /-- The entry is listed. -/
  entry_mem : entry ∈ g.urls
  /-- What is recorded of a module has been scanned in it. -/
  recorded : ∀ m ∈ g.urls, ∃ imports, l.Scanned s m imports ∧ l.Records s g m imports

/-- What a graph has stays true. -/
theorem Describes.of_grows {entry : Url} {g : Graph} (h : l.Describes s entry g)
    (hg : s.Grows s') : l.Describes s' entry g where
  wellFormed := h.wellFormed
  entry_mem := h.entry_mem
  recorded := by
    intro m hm
    obtain ⟨imports, hscan, hrec⟩ := h.recorded m hm
    exact ⟨imports, hscan.of_grows hg, hrec.of_grows hg⟩

/-! ## What holds of a loader at any time -/

/-- Every graph that is remembered has what was scanned, and every module that failed is remembered
under its own URL. -/
structure Sound (l : Loader) (s : Session) : Prop where
  /-- Graphs have what was scanned. -/
  described : ∀ entry g, s.cache.graphs.get? entry = some g → l.Describes s entry g
  /-- A failure is that of the module it is remembered for. -/
  failed : ∀ m u cause, s.cache.compiled.get? m = some (.failed u cause) → u = m

/-- Nothing is remembered at the start. -/
theorem sound_start (l : Loader) : l.Sound (.start l.config) where
  described := fun _ _ h => nomatch h
  failed := fun _ _ _ h => nomatch h

/-- More sources, resolutions and reports leave a state sound. -/
theorem Sound.of_searches (h : l.Sound s) (hs : s.Searches s') : l.Sound s' where
  described := by
    intro entry g hg
    rw [hs.sameGraphs] at hg
    exact (h.described entry g hg).of_grows hs.toGrows
  failed := by
    intro m u cause hm
    rw [hs.sameCompiled] at hm
    exact h.failed m u cause hm

end Loader

end ModuleLoader
