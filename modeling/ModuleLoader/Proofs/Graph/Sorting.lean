import Mathlib.Data.List.Chain
import Mathlib.Data.List.Perm.Subperm
import Mathlib.Logic.Relation
import ModuleLoader.Graph.Order
import ModuleLoader.Proofs.Graph.Recording

/-! # Orders in which imports come first

* **`Graph.Sorted`** is a list in which every module comes once and behind all that it imports.
* **`Graph.sorted_of_topologicalSort`** says that the sort gives such a list of all modules.
* **`Graph.exists_topologicalSort_iff`** says that it gives one exactly when no module imports
  itself, directly or through others.
* **`Graph.isCircle_of_topologicalSort`** says that it reports a circle otherwise. -/

namespace ModuleLoader.Graph

open Relation

/-- One module imports another. -/
def Imports (g : Graph) (url dep : Url) : Prop := dep ∈ g.dependencies url

instance (g : Graph) (url dep : Url) : Decidable (g.Imports url dep) :=
  inferInstanceAs (Decidable (dep ∈ g.dependencies url))

/-- A module that imports another is a module of the graph. -/
theorem Imports.mem_urls {g : Graph} {url dep : Url} (h : g.Imports url dep) : url ∈ g.urls := by
  by_contra hurl
  rw [Imports, dependencies_of_notMem hurl] at h
  cases h

/-- No module imports itself, directly or through others. -/
def Acyclic (g : Graph) : Prop := ∀ url, ¬ TransGen g.Imports url url

/-- Every module of the list comes once, and behind all that it imports. -/
structure Sorted (g : Graph) (order : List Url) : Prop where
  /-- No module comes twice. -/
  nodup : order.Nodup
  /-- What a module imports comes before it. -/
  behind : ∀ front url back, order = front ++ url :: back → ∀ dep ∈ g.dependencies url, dep ∈ front

namespace Sorted

variable {g : Graph} {order : List Url}

/-- The list with no modules. -/
theorem nil (g : Graph) : g.Sorted [] :=
  ⟨List.nodup_nil, fun front url back h => by simp at h⟩

/-- A new module may come last when all that it imports is there. -/
theorem concat (h : g.Sorted order) {url : Url} (hnew : url ∉ order)
    (hdeps : ∀ dep ∈ g.dependencies url, dep ∈ order) : g.Sorted (order ++ [url]) where
  nodup := by
    rw [← List.concat_eq_append]
    exact h.nodup.concat hnew
  behind := by
    intro front v back heq dep hdep
    rcases List.eq_nil_or_concat back with rfl | ⟨back, last, rfl⟩
    · obtain ⟨rfl, hv⟩ := List.append_inj' heq rfl
      obtain rfl : url = v := by simpa using hv
      exact hdeps dep hdep
    · rw [List.concat_eq_append, ← List.cons_append, ← List.append_assoc] at heq
      obtain ⟨heq, -⟩ := List.append_inj' heq rfl
      exact h.behind front v back heq dep hdep

/-- What a module of the list imports, directly or through others, comes before it. -/
theorem mem_front (h : g.Sorted order) {url dep : Url} (hreach : TransGen g.Imports url dep) :
    ∀ front back, order = front ++ url :: back → dep ∈ front := by
  induction hreach using TransGen.head_induction_on with
  | single himp => exact fun front back heq => h.behind front _ back heq _ himp
  | head himp _ ih =>
    intro front back heq
    obtain ⟨before, after, rfl⟩ := List.append_of_mem (h.behind front _ back heq _ himp)
    have := ih before (after ++ _ :: back) (by rw [heq, List.append_assoc]; rfl)
    simp [this]

/-- No module of the list imports itself. -/
theorem not_imports_self (h : g.Sorted order) {url : Url} (hmem : url ∈ order) :
    ¬ TransGen g.Imports url url := by
  intro hreach
  obtain ⟨front, back, rfl⟩ := List.append_of_mem hmem
  have hfront := h.mem_front hreach front back rfl
  have hdisjoint := (List.nodup_append.1 h.nodup).2.2
  exact hdisjoint url hfront url (by simp) rfl

end Sorted

/-! ## Visits -/

/-- What a visit leads to: the list has grown, is sorted still, and has got no module of the path
that led to the visit. -/
structure Visited (g : Graph) (path order order' : List Url) : Prop where
  /-- What was finished stays in front. -/
  grown : order <+: order'
  /-- The list is sorted. -/
  sorted : g.Sorted order'
  /-- What has been finished is a module of the graph. -/
  listed : ∀ url ∈ order', url ∈ order ∨ url ∈ g.urls
  /-- No module of the path has been finished. -/
  fresh : ∀ url ∈ path, url ∈ order' → url ∈ order

namespace Visited

variable {g : Graph} {path order order' order'' : List Url}

/-- No visit leaves the list as it is. -/
theorem refl (h : g.Sorted order) : Visited g path order order :=
  ⟨List.prefix_refl order, h, fun _ => .inl, fun _ _ h => h⟩

/-- One visit after another. -/
theorem trans (h : Visited g path order order') (h' : Visited g path order' order'') :
    Visited g path order order'' where
  grown := h.grown.trans h'.grown
  sorted := h'.sorted
  listed := fun url hmem => (h'.listed url hmem).elim (h.listed url) .inr
  fresh := fun url hp hmem => h.fresh url hp (h'.fresh url hp hmem)

/-- A visit from a longer path leaves the shorter path as it is. -/
theorem of_append {rest : List Url} (h : Visited g (path ++ rest) order order') :
    Visited g path order order' :=
  ⟨h.grown, h.sorted, h.listed, fun url hp => h.fresh url (by simp [hp])⟩

end Visited

/-- Steps that can fail, one after the other: the first has succeeded, and then the others. -/
theorem foldlM_cons_eq_ok {ε β γ : Type} {f : β → γ → Except ε β} {b b' : β} {x : γ}
    {xs : List γ} :
    (x :: xs).foldlM f b = .ok b' ↔ ∃ b₁, f b x = .ok b₁ ∧ xs.foldlM f b₁ = .ok b' := by
  rw [List.foldlM_cons]
  cases hx : f b x <;> simp [bind, Except.bind]

/-- Steps that can fail, one after the other: the first has failed, or one of the others. -/
theorem foldlM_cons_eq_error {ε β γ : Type} {f : β → γ → Except ε β} {b : β} {x : γ}
    {xs : List γ} {e : ε} :
    (x :: xs).foldlM f b = .error e ↔
      f b x = .error e ∨ ∃ b₁, f b x = .ok b₁ ∧ xs.foldlM f b₁ = .error e := by
  rw [List.foldlM_cons]
  cases hx : f b x <;> simp [bind, Except.bind]

/-- Visits of several modules finish all of them, if each visit finishes its module. -/
theorem visited_foldlM {g : Graph} {path : List Url} {f : List Url → Url → Except Cycle (List Url)}
    {deps : List Url} (hf : ∀ dep ∈ deps, ∀ order order', g.Sorted order →
      f order dep = .ok order' → Visited g path order order' ∧ dep ∈ order')
    {order order' : List Url} (hs : g.Sorted order) (h : deps.foldlM f order = .ok order') :
    Visited g path order order' ∧ ∀ dep ∈ deps, dep ∈ order' := by
  induction deps generalizing order with
  | nil =>
    obtain rfl : order = order' := by simpa [pure, Except.pure] using h
    exact ⟨.refl hs, by simp⟩
  | cons dep deps ih =>
    obtain ⟨order₁, hdep, hrest⟩ := foldlM_cons_eq_ok.1 h
    obtain ⟨hv, hmem⟩ := hf dep (by simp) order order₁ hs hdep
    obtain ⟨hv', hmem'⟩ := ih (fun d hd => hf d (by simp [hd])) hv.sorted hrest
    refine ⟨hv.trans hv', ?_⟩
    intro d hd
    rcases List.mem_cons.1 hd with rfl | hd
    · exact hv'.grown.subset hmem
    · exact hmem' d hd

/-- A path of different modules that is as long as the list of all has all of them. -/
theorem mem_path_of_size_le {g : Graph} {path : List Url} (hn : path.Nodup)
    (hp : ∀ url ∈ path, url ∈ g.urls) (hlen : g.size ≤ path.length) {url : Url}
    (hurl : url ∈ g.urls) : url ∈ path := by
  have hlen' : g.urls.length ≤ path.length := by simpa [urls, size] using hlen
  exact ((List.subperm_of_subset hn hp).perm_of_length_le hlen').symm.subset hurl

/-- A path that goes on to a new module of the graph is a path of different modules still. -/
theorem extend_path {g : Graph} {path : List Url} {url : Url} (hn : path.Nodup)
    (hp : ∀ v ∈ path, v ∈ g.urls) (hpath : url ∉ path) (hurl : url ∈ g.urls) :
    (path ++ [url]).Nodup ∧ ∀ v ∈ path ++ [url], v ∈ g.urls := by
  refine ⟨?_, fun v hv => ?_⟩
  · rw [← List.concat_eq_append]
    exact hn.concat hpath
  · rcases List.mem_append.1 hv with hv | hv
    · exact hp v hv
    · exact List.mem_singleton.1 hv ▸ hurl

/-- When visits from a new module have finished all that it imports, it is finished behind them. -/
theorem Visited.finish {g : Graph} {path order order' : List Url} {url : Url}
    (h : g.Visited (path ++ [url]) order order') (hdeps : ∀ dep ∈ g.dependencies url, dep ∈ order')
    (hdone : url ∉ order) (hpath : url ∉ path) (hurl : url ∈ g.urls) :
    g.Visited path order (order' ++ [url]) := by
  -- the visits of the imports cannot have finished the module itself: it is on their path
  have hnew : url ∉ order' := fun hmem => hdone (h.fresh url (by simp) hmem)
  refine h.of_append.trans ⟨List.prefix_append _ _, h.sorted.concat hnew hdeps, ?_, ?_⟩
  · intro v hmem
    rcases List.mem_append.1 hmem with hmem | hmem
    · exact .inl hmem
    · exact .inr (List.mem_singleton.1 hmem ▸ hurl)
  · intro v hvp hmem
    rcases List.mem_append.1 hmem with hmem | hmem
    · exact hmem
    · exact absurd (List.mem_singleton.1 hmem ▸ hvp) hpath

/-! ## What a visit comes to -/

section Visit

variable {g : Graph} {path order order' : List Url} {url : Url}

/-- A visit of a module that has been finished leaves everything as it is. -/
theorem visit_of_mem (fuel : Nat) (h : url ∈ order) : g.visit fuel path order url = .ok order := by
  cases fuel <;> rw [visit, if_pos h]

/-- A visit of a module of the path closes a circle. -/
theorem visit_of_mem_path (fuel : Nat) (hdone : url ∉ order) (hpath : url ∈ path) :
    g.visit fuel path order url = .error ⟨url, cyclePath path url⟩ := by
  cases fuel <;> rw [visit, if_neg hdone, if_pos hpath]

/-- A visit of a new module visits what it imports, and then the module is finished. -/
theorem visit_of_notMem (fuel : Nat) (hdone : url ∉ order) (hpath : url ∉ path) :
    g.visit (fuel + 1) path order url =
      ((g.dependencies url).foldlM (fun order dep => g.visit fuel (path ++ [url]) order dep)
        order).map (· ++ [url]) := by
  rw [visit, if_neg hdone, if_neg hpath]
  rfl

/-- A visit that comes to an end has finished its module, behind all that it imports. -/
theorem visited_of_visit (hg : g.WellFormed) (fuel : Nat) (hn : path.Nodup)
    (hp : ∀ v ∈ path, v ∈ g.urls) (hurl : url ∈ g.urls) (hfuel : g.size ≤ fuel + path.length)
    (hs : g.Sorted order) (h : g.visit fuel path order url = .ok order') :
    Visited g path order order' ∧ url ∈ order' := by
  induction fuel generalizing path order order' url with
  | zero =>
    -- the rounds are never over before the module is found on the path
    have hpath := mem_path_of_size_le hn hp (by omega) hurl
    by_cases hdone : url ∈ order
    · cases (visit_of_mem 0 hdone).symm.trans h
      exact ⟨.refl hs, hdone⟩
    · cases (visit_of_mem_path 0 hdone hpath).symm.trans h
  | succ fuel ih =>
    by_cases hdone : url ∈ order
    · cases (visit_of_mem (fuel + 1) hdone).symm.trans h
      exact ⟨.refl hs, hdone⟩
    by_cases hpath : url ∈ path
    · cases (visit_of_mem_path (fuel + 1) hdone hpath).symm.trans h
    rw [visit_of_notMem fuel hdone hpath] at h
    cases hfold : (g.dependencies url).foldlM
        (fun order dep => g.visit fuel (path ++ [url]) order dep) order with
    | error c =>
      rw [hfold] at h
      cases h
    | ok order₁ =>
      rw [hfold] at h
      cases h
      obtain ⟨hn', hp'⟩ := extend_path hn hp hpath hurl
      have hlen : g.size ≤ fuel + (path ++ [url]).length := by
        rw [List.length_append, List.length_singleton]
        omega
      obtain ⟨hv, hdeps⟩ := visited_foldlM (fun dep hdep order order' hs h =>
        ih hn' hp' (hg.closed url dep hdep) hlen hs h) hs hfold
      exact ⟨hv.finish hdeps hdone hpath hurl, by simp⟩

end Visit

/-! ## Circles -/

/-- A walk along imports from a module around to itself, on which no other module comes twice. -/
structure IsCircle (g : Graph) (closing : Url) (path : List Url) : Prop where
  /-- It starts at the module. -/
  starts : path.head? = some closing
  /-- It ends there. -/
  ends : path.getLast? = some closing
  /-- It follows an import at least. -/
  two_le_length : 2 ≤ path.length
  /-- Every module is imported by the one before it. -/
  follows : path.IsChain g.Imports
  /-- Behind the start, every module comes once. -/
  nodup : path.tail.Nodup

/-- The circle that closes at a module of a path is the path from there on. -/
theorem cyclePath_append {front : List Url} {dep : Url} (hfront : dep ∉ front) (back : List Url) :
    cyclePath (front ++ dep :: back) dep = dep :: (back ++ [dep]) := by
  have hne : ∀ v ∈ front, v ≠ dep := fun v hv e => hfront (e ▸ hv)
  rw [cyclePath, List.dropWhile_append_of_pos fun v hv => decide_eq_true (hne v hv)]
  simp

/-- A module at which a walk ends that has come by it before closes a circle. -/
theorem isCircle_cyclePath {g : Graph} {path : List Url} {url : Url} (hn : path.Nodup)
    (hchain : (path ++ [url]).IsChain g.Imports) (hmem : url ∈ path) :
    g.IsCircle url (cyclePath path url) := by
  obtain ⟨front, back, rfl, hfront⟩ := List.eq_append_cons_of_mem hmem
  have hback : (url :: back).Nodup := (List.nodup_append.1 hn).2.1
  rw [List.append_assoc, List.cons_append, List.isChain_split] at hchain
  -- the circle is the walk from where the module came first
  rw [cyclePath_append hfront]
  refine ⟨rfl, ?_, by simp, hchain.2, ?_⟩
  · rw [← List.cons_append, List.getLast?_concat]
  · exact (List.perm_append_singleton url back).nodup_iff.2 hback

/-- A walk with a step leads from its first module to its last. -/
theorem transGen_of_isChain {R : Url → Url → Prop} {first last : Url} {path : List Url}
    (hfirst : path.head? = some first) (hlast : path.getLast? = some last)
    (hlen : 2 ≤ path.length) (hchain : path.IsChain R) : TransGen R first last := by
  obtain ⟨v, rest, rfl⟩ := List.exists_cons_of_ne_nil (l := path) (by rintro rfl; cases hfirst)
  obtain rfl : v = first := by simpa using hfirst
  cases rest with
  | nil => simp at hlen
  | cons dep rest =>
    obtain ⟨hstep, hrest⟩ := List.isChain_cons_cons.1 hchain
    have hend : (dep :: rest).getLast (List.cons_ne_nil dep rest) = last := by
      rw [List.getLast?_cons_cons,
        List.getLast?_eq_some_getLast (List.cons_ne_nil dep rest)] at hlast
      exact Option.some.inj hlast
    exact .head' hstep (List.relationReflTransGen_of_exists_isChain_cons rest hrest hend)

/-- A circle leads from its module around to it. -/
theorem IsCircle.transGen {g : Graph} {closing : Url} {path : List Url}
    (h : g.IsCircle closing path) : TransGen g.Imports closing closing :=
  transGen_of_isChain h.starts h.ends h.two_le_length h.follows

/-- Steps that can fail, one after the other, have failed at one of them. -/
theorem exists_of_foldlM_eq_error {ε β γ : Type} {f : β → γ → Except ε β} {b : β} {xs : List γ}
    {e : ε} (h : xs.foldlM f b = .error e) : ∃ x ∈ xs, ∃ b', f b' x = .error e := by
  induction xs generalizing b with
  | nil => cases h
  | cons x xs ih =>
    rcases foldlM_cons_eq_error.1 h with hx | ⟨b₁, -, hxs⟩
    · exact ⟨x, List.mem_cons_self, b, hx⟩
    · obtain ⟨y, hy, b', hb'⟩ := ih hxs
      exact ⟨y, List.mem_cons_of_mem x hy, b', hb'⟩

/-- A walk goes on along an import. -/
theorem isChain_extend {R : Url → Url → Prop} {path : List Url} {url dep : Url}
    (h : (path ++ [url]).IsChain R) (hdep : R url dep) : (path ++ [url] ++ [dep]).IsChain R := by
  rw [List.append_assoc, List.singleton_append, List.isChain_split]
  exact ⟨h, List.isChain_pair.2 hdep⟩

/-- A visit that fails has come by a walk along imports, and reports where that closes a circle. -/
theorem isCircle_of_visit {g : Graph} (fuel : Nat) {path order : List Url} {url : Url} {c : Cycle}
    (hn : path.Nodup) (hchain : (path ++ [url]).IsChain g.Imports)
    (h : g.visit fuel path order url = .error c) : g.IsCircle c.closing c.path := by
  induction fuel generalizing path order url with
  | zero =>
    by_cases hdone : url ∈ order
    · cases (visit_of_mem 0 hdone).symm.trans h
    by_cases hpath : url ∈ path
    · cases (visit_of_mem_path 0 hdone hpath).symm.trans h
      exact isCircle_cyclePath hn hchain hpath
    rw [visit, if_neg hdone, if_neg hpath] at h
    cases h
  | succ fuel ih =>
    by_cases hdone : url ∈ order
    · cases (visit_of_mem (fuel + 1) hdone).symm.trans h
    by_cases hpath : url ∈ path
    · cases (visit_of_mem_path (fuel + 1) hdone hpath).symm.trans h
      exact isCircle_cyclePath hn hchain hpath
    rw [visit_of_notMem fuel hdone hpath] at h
    cases hfold : (g.dependencies url).foldlM
        (fun order dep => g.visit fuel (path ++ [url]) order dep) order with
    | ok order₁ =>
      rw [hfold] at h
      cases h
    | error c' =>
      rw [hfold] at h
      cases h
      -- the walk goes on by the import whose visit fails
      obtain ⟨dep, hdep, order', hvisit⟩ := exists_of_foldlM_eq_error hfold
      have hn' : (path ++ [url]).Nodup := List.concat_eq_append ▸ hn.concat hpath
      exact ih hn' (isChain_extend hchain hdep) hvisit

/-! ## The sort -/

/-- The sort gives a sorted list of all modules. -/
theorem sorted_of_topologicalSort {g : Graph} (hg : g.WellFormed) {order : List Url}
    (h : g.topologicalSort = .ok order) :
    g.Sorted order ∧ ∀ url, url ∈ order ↔ url ∈ g.urls := by
  have hvisit : ∀ url ∈ g.urls, ∀ order order', g.Sorted order →
      g.visit g.size [] order url = .ok order' → g.Visited [] order order' ∧ url ∈ order' :=
    fun url hurl order order' hs h =>
      visited_of_visit hg g.size List.nodup_nil (by simp) hurl (by simp) hs h
  obtain ⟨hv, hmem⟩ := visited_foldlM hvisit (.nil g) h
  refine ⟨hv.sorted, fun url => ⟨fun hmem' => ?_, hmem url⟩⟩
  exact (hv.listed url hmem').resolve_left (by simp)

/-- When the sort fails, it reports a circle. -/
theorem isCircle_of_topologicalSort {g : Graph} {c : Cycle} (h : g.topologicalSort = .error c) :
    g.IsCircle c.closing c.path := by
  obtain ⟨url, -, order, hvisit⟩ := exists_of_foldlM_eq_error h
  exact isCircle_of_visit g.size List.nodup_nil (List.isChain_singleton url) hvisit

/-- The sort succeeds exactly when no module imports itself, directly or through others. -/
theorem exists_topologicalSort_iff {g : Graph} (hg : g.WellFormed) :
    (∃ order, g.topologicalSort = .ok order) ↔ g.Acyclic := by
  constructor
  · rintro ⟨order, h⟩ url hself
    obtain ⟨hs, hmem⟩ := sorted_of_topologicalSort hg h
    obtain ⟨dep, himp, -⟩ := TransGen.head'_iff.1 hself
    exact hs.not_imports_self ((hmem url).2 himp.mem_urls) hself
  · intro hacyclic
    cases h : g.topologicalSort with
    | ok order => exact ⟨order, rfl⟩
    | error c => exact absurd (isCircle_of_topologicalSort h).transGen (hacyclic c.closing)

end ModuleLoader.Graph
