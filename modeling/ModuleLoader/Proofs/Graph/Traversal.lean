import ModuleLoader.Proofs.Graph.Sorting

/-! # Visits and walks without a bound

The sort and the search for circles are written with a bound on their depth. Here are the rules they
go by, which have none: a derivation is a run that comes to an end. Both runs do come to an end, and
they go the same way until the first circle is closed.

* **`Graph.Visits`** are the rules of the sort, **`Graph.visits_iff`** says what it comes to by
  them.
* **`Graph.SortsOut`** is what a sort should come to, and does for a well-formed graph.
* **`Graph.Walks`** are the rules of the search for circles, **`Graph.exists_walks`** says that it
  comes to an end by them.
* **`Graph.Visits.agrees`** compares a sort with a search for circles. -/

namespace ModuleLoader.Graph

variable {g : Graph} {path order order' : List Url} {url : Url} {urls rest : List Url}

/-- Visits of some modules, one after the other, on the way along `path` with `order` finished; the
first circle ends them. -/
inductive Visits (g : Graph) :
    List Url → List Url → List Url → Except Cycle (List Url) → Prop
  /-- There is nothing to visit. -/
  | nil (path order : List Url) : Visits g path order [] (.ok order)
  /-- A module has been finished before. -/
  | finished {path order : List Url} {url : Url} {rest : List Url}
      {r : Except Cycle (List Url)} (hdone : url ∈ order) (hrest : Visits g path order rest r) :
      Visits g path order (url :: rest) r
  /-- A module is on the path. -/
  | circle {path order : List Url} {url : Url} (rest : List Url) (hnew : url ∉ order)
      (hpath : url ∈ path) : Visits g path order (url :: rest) (.error ⟨url, cyclePath path url⟩)
  /-- There is a circle among what a module leads to. -/
  | failed {path order : List Url} {url : Url} {c : Cycle} (rest : List Url) (hnew : url ∉ order)
      (hpath : url ∉ path)
      (hdeps : Visits g (path ++ [url]) order (g.dependencies url) (.error c)) :
      Visits g path order (url :: rest) (.error c)
  /-- What a module imports is visited, and then it is finished itself. -/
  | visited {path order order' : List Url} {url : Url} {rest : List Url}
      {r : Except Cycle (List Url)} (hnew : url ∉ order) (hpath : url ∉ path)
      (hdeps : Visits g (path ++ [url]) order (g.dependencies url) (.ok order'))
      (hrest : Visits g path (order' ++ [url]) rest r) : Visits g path order (url :: rest) r

/-- Walks from some modules, one after the other, on the way along `path`. -/
inductive Walks (g : Graph) : List Url → Walk → List Url → Walk → Prop
  /-- There is nothing to walk to. -/
  | nil (path : List Url) (w : Walk) : Walks g path w [] w
  /-- A module is on the path: a circle is closed. -/
  | closes {path : List Url} {w w' : Walk} {url : Url} {rest : List Url} (hpath : url ∈ path)
      (hrest : Walks g path { w with cycles := w.cycles ++ [cyclePath path url] } rest w') :
      Walks g path w (url :: rest) w'
  /-- A module has been finished before. -/
  | finished {path : List Url} {w w' : Walk} {url : Url} {rest : List Url} (hpath : url ∉ path)
      (hdone : url ∈ w.finished) (hrest : Walks g path w rest w') : Walks g path w (url :: rest) w'
  /-- The walk goes on to what a module imports, and then the module is finished itself. -/
  | walked {path : List Url} {w w₁ w' : Walk} {url : Url} {rest : List Url} (hpath : url ∉ path)
      (hnew : url ∉ w.finished) (hdeps : Walks g (path ++ [url]) w (g.dependencies url) w₁)
      (hrest : Walks g path { w₁ with finished := w₁.finished ++ [url] } rest w') :
      Walks g path w (url :: rest) w'

/-! ## The sort goes by the rules -/

namespace Visits

variable {r : Except Cycle (List Url)}

/-- Visits that succeed, and then more. -/
theorem append (h : g.Visits path order urls (.ok order')) (h' : g.Visits path order' rest r) :
    g.Visits path order (urls ++ rest) r := by
  generalize hr : Except.ok order' = r' at h
  induction h with
  | nil path order =>
    cases hr
    exact h'
  | finished hdone _ ih => exact .finished hdone (ih h' hr)
  | circle => cases hr
  | failed => cases hr
  | visited hnew hpath hdeps _ _ ih => exact .visited hnew hpath hdeps (ih h' hr)

/-- Visits that fail are not followed by others. -/
theorem append_of_error {c : Cycle} (h : g.Visits path order urls (.error c)) (rest : List Url) :
    g.Visits path order (urls ++ rest) (.error c) := by
  generalize hr : Except.error c = r' at h
  induction h with
  | nil => cases hr
  | finished hdone _ ih => exact .finished hdone (ih hr)
  | circle _ hnew hpath =>
    cases hr
    exact .circle _ hnew hpath
  | failed _ hnew hpath hdeps =>
    cases hr
    exact .failed _ hnew hpath hdeps
  | visited hnew hpath hdeps _ _ ih => exact .visited hnew hpath hdeps (ih hr)

/-- Visits come to one thing only. -/
theorem eq {r' : Except Cycle (List Url)} (h : g.Visits path order urls r)
    (h' : g.Visits path order urls r') : r = r' := by
  induction h generalizing r' with
  | nil =>
    cases h'
    rfl
  | finished hdone _ ih =>
    cases h' with
    | finished _ hrest => exact ih hrest
    | circle _ hnew _ | failed _ hnew _ _ | visited hnew _ _ _ => exact absurd hdone hnew
  | circle _ hnew hpath =>
    cases h' with
    | finished hdone _ => exact absurd hdone hnew
    | circle => rfl
    | failed _ _ hpath' _ | visited _ hpath' _ _ => exact absurd hpath hpath'
  | failed _ hnew hpath _ ih =>
    cases h' with
    | finished hdone _ => exact absurd hdone hnew
    | circle _ _ hpath' => exact absurd hpath' hpath
    | failed _ _ _ hdeps => exact ih hdeps
    | visited _ _ hdeps _ => cases ih hdeps
  | visited hnew hpath _ _ ih ih' =>
    cases h' with
    | finished hdone _ => exact absurd hdone hnew
    | circle _ _ hpath' => exact absurd hpath' hpath
    | failed _ _ _ hdeps => cases ih hdeps
    | visited _ _ hdeps hrest =>
      cases ih hdeps
      exact ih' hrest

end Visits

/-- Steps that each visit one module visit all. -/
theorem visits_foldlM {f : List Url → Url → Except Cycle (List Url)}
    (hf : ∀ url ∈ urls, ∀ order, g.Visits path order [url] (f order url)) (order : List Url) :
    g.Visits path order urls (urls.foldlM f order) := by
  induction urls generalizing order with
  | nil => exact .nil path order
  | cons url urls ih =>
    have hfirst := hf url List.mem_cons_self order
    rw [List.foldlM_cons]
    cases hx : f order url with
    | error c =>
      rw [hx] at hfirst
      exact hfirst.append_of_error urls
    | ok order₁ =>
      rw [hx] at hfirst
      exact hfirst.append (ih (fun v hv => hf v (List.mem_cons_of_mem url hv)) order₁)

/-- A path that goes on to a new module is as far from what has been finished as before. -/
theorem fresh_extend (hfresh : ∀ v ∈ path, v ∉ order) (hnew : url ∉ order) :
    ∀ v ∈ path ++ [url], v ∉ order := by
  simpa [or_imp, forall_and, hnew] using hfresh

/-- A visit with a bound that the path cannot reach goes by the rules. -/
theorem visits_visit (hg : g.WellFormed) (fuel : Nat) (hn : path.Nodup)
    (hp : ∀ v ∈ path, v ∈ g.urls) (hurl : url ∈ g.urls) (hfuel : g.size ≤ fuel + path.length)
    (order : List Url) : g.Visits path order [url] (g.visit fuel path order url) := by
  induction fuel generalizing path order url with
  | zero =>
    -- the path has all modules, this one among them
    have hpath := mem_path_of_size_le hn hp (by omega) hurl
    by_cases hdone : url ∈ order
    · rw [visit_of_mem 0 hdone]
      exact .finished hdone (.nil path order)
    · rw [visit_of_mem_path 0 hdone hpath]
      exact .circle [] hdone hpath
  | succ fuel ih =>
    by_cases hdone : url ∈ order
    · rw [visit_of_mem (fuel + 1) hdone]
      exact .finished hdone (.nil path order)
    by_cases hpath : url ∈ path
    · rw [visit_of_mem_path (fuel + 1) hdone hpath]
      exact .circle [] hdone hpath
    rw [visit_of_notMem fuel hdone hpath]
    obtain ⟨hn', hp'⟩ := extend_path hn hp hpath hurl
    have hdeps := visits_foldlM (fun dep hdep order =>
      ih hn' hp' (hg.closed url dep hdep) (by simp; omega) order) order
    cases hfold : (g.dependencies url).foldlM
        (fun order dep => g.visit fuel (path ++ [url]) order dep) order with
    | error c =>
      rw [hfold] at hdeps
      exact .failed [] hdone hpath hdeps
    | ok order₁ =>
      rw [hfold] at hdeps
      exact .visited hdone hpath hdeps (.nil path (order₁ ++ [url]))

/-- What the sort comes to is what visits of all modules come to. -/
theorem visits_iff (hg : g.WellFormed) {r : Except Cycle (List Url)} :
    g.Visits [] [] g.urls r ↔ g.topologicalSort = r := by
  have hsort : g.Visits [] [] g.urls g.topologicalSort :=
    visits_foldlM (fun url hurl order =>
      visits_visit hg g.size List.nodup_nil (by simp) hurl (by simp) order) []
  exact ⟨hsort.eq, fun h => h ▸ hsort⟩

/-- What a sort should come to. -/
structure SortsOut (g : Graph) : Prop where
  /-- It comes to what visits of all modules come to, however long the paths. -/
  visits : ∀ r, g.Visits [] [] g.urls r ↔ g.topologicalSort = r
  /-- If no module imports itself, directly or through others, that is a sorted list of all. -/
  sorts : g.Acyclic → ∃ order, g.topologicalSort = .ok order ∧ g.Sorted order ∧
    ∀ url, url ∈ order ↔ url ∈ g.urls
  /-- If one does, it is the report of a circle. -/
  reports : ¬ g.Acyclic → ∃ c, g.topologicalSort = .error c ∧ g.IsCircle c.closing c.path

/-- A sort of a well-formed graph comes to what it should. -/
theorem WellFormed.sortsOut (hg : g.WellFormed) : g.SortsOut where
  visits := fun _ => visits_iff hg
  sorts := fun hacyclic => by
    obtain ⟨order, hsort⟩ := (exists_topologicalSort_iff hg).2 hacyclic
    exact ⟨order, hsort, sorted_of_topologicalSort hg hsort⟩
  reports := fun hcircle => by
    cases hsort : g.topologicalSort with
    | ok order => exact absurd ((exists_topologicalSort_iff hg).1 ⟨order, hsort⟩) hcircle
    | error c => exact ⟨c, rfl, isCircle_of_topologicalSort hsort⟩

/-! ## The search for circles goes by the rules -/

/-- Walks, and then more. -/
theorem Walks.append {w w₁ w' : Walk} (h : g.Walks path w urls w₁)
    (h' : g.Walks path w₁ rest w') : g.Walks path w (urls ++ rest) w' := by
  induction h with
  | nil => exact h'
  | closes hpath _ ih => exact .closes hpath (ih h')
  | finished hpath hdone _ ih => exact .finished hpath hdone (ih h')
  | walked hpath hnew hdeps _ _ ih => exact .walked hpath hnew hdeps (ih h')

/-- Steps that each walk from one module walk from all. -/
theorem walks_foldl {f : Walk → Url → Walk} (hf : ∀ url ∈ urls, ∀ w, g.Walks path w [url] (f w url))
    (w : Walk) : g.Walks path w urls (urls.foldl f w) := by
  induction urls generalizing w with
  | nil => exact .nil path w
  | cons url urls ih =>
    exact (hf url List.mem_cons_self w).append
      (ih (fun v hv => hf v (List.mem_cons_of_mem url hv)) (f w url))

/-- A walk with a bound that the path cannot reach goes by the rules. -/
theorem walks_walk (hg : g.WellFormed) (fuel : Nat) (hn : path.Nodup)
    (hp : ∀ v ∈ path, v ∈ g.urls) (hurl : url ∈ g.urls) (hfuel : g.size ≤ fuel + path.length)
    (hpath : url ∉ path) {w : Walk} (hnew : url ∉ w.finished) :
    g.Walks path w [url] (g.walk fuel path w url) := by
  induction fuel generalizing path w url with
  | zero => exact absurd (mem_path_of_size_le hn hp (by omega) hurl) hpath
  | succ fuel ih =>
    obtain ⟨hn', hp'⟩ := extend_path hn hp hpath hurl
    refine .walked hpath hnew (walks_foldl (fun dep hdep w => ?_) w) (.nil path _)
    by_cases hdep' : dep ∈ path ++ [url]
    · rw [if_pos hdep']
      exact .closes hdep' (.nil _ _)
    by_cases hdone : dep ∈ w.finished
    · rw [if_neg hdep', if_pos hdone]
      exact .finished hdep' hdone (.nil _ w)
    · rw [if_neg hdep', if_neg hdone]
      exact ih hn' hp' (hg.closed url dep hdep) (by simp; omega) hdep' hdone

/-- The search for circles is a walk from all modules. -/
theorem exists_walks (hg : g.WellFormed) :
    ∃ w, g.Walks [] ⟨[], []⟩ g.urls w ∧ w.cycles = g.cycles := by
  refine ⟨_, walks_foldl (fun url hurl w => ?_) ⟨[], []⟩, rfl⟩
  by_cases hdone : url ∈ w.finished
  · rw [if_pos hdone]
    exact .finished List.not_mem_nil hdone (.nil [] w)
  · rw [if_neg hdone]
    exact walks_walk hg g.size List.nodup_nil (by simp) hurl (by simp) List.not_mem_nil hdone

/-! ## The two compared -/

namespace Walks

variable {w w' : Walk}

/-- A walk finishes no module of its path. -/
theorem mem_finished_of_mem_path (h : g.Walks path w urls w') :
    ∀ v ∈ path, v ∈ w'.finished → v ∈ w.finished := by
  -- what is finished on the way is off the path when its walk begins
  induction h with
  | nil => exact fun _ _ hv => hv
  | closes _ _ ih => exact ih
  | finished _ _ _ ih => exact ih
  | walked hpath _ _ _ ih ih' =>
    intro v hvp hv
    rcases List.mem_append.1 (ih' v hvp hv) with hv | hv
    · exact ih v (List.mem_append_left _ hvp) hv
    · exact absurd (List.mem_singleton.1 hv ▸ hvp) hpath

/-- When what the last module of a path imports has been walked and the module is finished, the path
that led to it is as far from what has been finished as before. -/
theorem fresh_finish (h : g.Walks (path ++ [url]) w urls w')
    (hfresh : ∀ v ∈ path ++ [url], v ∉ w.finished) (hpath : url ∉ path) :
    ∀ v ∈ path, v ∉ w'.finished ++ [url] := by
  intro v hv hmem
  rcases List.mem_append.1 hmem with hmem | hmem
  · have hv' : v ∈ path ++ [url] := List.mem_append_left _ hv
    exact hfresh v hv' (h.mem_finished_of_mem_path v hv' hmem)
  · exact hpath (List.mem_singleton.1 hmem ▸ hv)

/-- What has been finished stays so, and the circles that have been closed stay in front. -/
theorem grows (h : g.Walks path w urls w') :
    (∀ v ∈ w.finished, v ∈ w'.finished) ∧ w.cycles <+: w'.cycles := by
  induction h with
  | nil path w => exact ⟨fun _ hv => hv, List.prefix_refl _⟩
  | closes _ _ ih => exact ⟨ih.1, (List.prefix_append _ _).trans ih.2⟩
  | finished _ _ _ ih => exact ih
  | walked _ _ _ _ ih ih' =>
    exact ⟨fun v hv => ih'.1 v (List.mem_append_left _ (ih.1 v hv)), ih.2.trans ih'.2⟩

end Walks

/-- A search for circles goes the way of a sort. Where the sort succeeds, the search finishes the
same modules and closes no circle; where the sort fails, the circle that it reports is the first
that the search closes. -/
theorem Visits.agrees {r : Except Cycle (List Url)} (h : g.Visits path order urls r)
    (hfresh : ∀ v ∈ path, v ∉ order) {closed : List (List Url)} {w' : Walk}
    (hw : g.Walks path ⟨order, closed⟩ urls w') :
    (∀ order', r = .ok order' → w' = ⟨order', closed⟩) ∧
      ∀ c, r = .error c → closed ++ [c.path] <+: w'.cycles := by
  -- the search goes by the cases of the sort: the hypotheses of a step of one rule out all steps of
  -- the other but the one that does the same
  induction h generalizing closed w' with
  | nil path order =>
    cases hw
    refine ⟨?_, (fun _ hr => nomatch hr)⟩
    rintro _ ⟨⟩
    rfl
  | finished hdone _ ih =>
    cases hw with
    | closes hpath _ => exact absurd hdone (hfresh _ hpath)
    | finished _ _ hrest => exact ih hfresh hrest
    | walked _ hnew _ _ => exact absurd hdone hnew
  | circle rest hnew hpath =>
    cases hw with
    | closes _ hrest =>
      refine ⟨(fun _ hr => nomatch hr), ?_⟩
      rintro _ ⟨⟩
      exact hrest.grows.2
    | finished hpath' _ _ | walked hpath' _ _ _ => exact absurd hpath hpath'
  | @failed path order url c rest hnew hpath _ ih =>
    cases hw with
    | closes hpath' _ => exact absurd hpath' hpath
    | finished _ hdone _ => exact absurd hdone hnew
    | walked _ _ hdeps hrest =>
      refine ⟨(fun _ hr => nomatch hr), ?_⟩
      rintro _ ⟨⟩
      exact ((ih (fresh_extend hfresh hnew) hdeps).2 c rfl).trans hrest.grows.2
  | @visited path order order' url rest r hnew hpath _ _ ih ih' =>
    cases hw with
    | closes hpath' _ => exact absurd hpath' hpath
    | finished _ hdone _ => exact absurd hdone hnew
    | walked _ _ hdeps hrest =>
      obtain rfl := (ih (fresh_extend hfresh hnew) hdeps).1 order' rfl
      exact ih' (hdeps.fresh_finish (fresh_extend hfresh hnew) hpath) hrest

end ModuleLoader.Graph
