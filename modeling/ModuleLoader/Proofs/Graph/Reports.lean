import Mathlib.Data.List.Rotate
import ModuleLoader.Loader.Call
import ModuleLoader.Proofs.Graph.Circles

/-! # Which circles are reported

The search for circles goes on from a module once. Of several circles that share an edge it closes
those that it comes by, and which these are hangs on the order in which the graph was recorded.

* **`Graph.Reports`** says that a circle is reported, from whichever of its modules on.
* **`Graph.SameEdges`** compares graphs that differ in the order of what was recorded only.
* **`Graph.IsCircle.exists_rotation`** lets a circle end with any of its edges.
* **`Graph.mem_cycles_of_first`** says that a circle is reported that was recorded first.
* **`Graph.reports_in_every_order_iff`** says which circles are reported in every order. -/

namespace ModuleLoader.Graph

variable {g : Graph} {path path' : List Url} {closing u v : Url} {e : Url × Url}

/-- The circle is reported, from whichever of its modules on. -/
def Reports (g : Graph) (path : List Url) : Prop :=
  ∃ p ∈ g.cycles, p.dropLast.IsRotated path.dropLast

instance (g : Graph) (path : List Url) : Decidable (g.Reports path) :=
  inferInstanceAs (Decidable (∃ p ∈ g.cycles, p.dropLast.IsRotated path.dropLast))

/-- Two graphs have the same modules and the same edges, in whichever order. -/
structure SameEdges (g g' : Graph) : Prop where
  /-- They have the same modules. -/
  urls : ∀ u, u ∈ g'.urls ↔ u ∈ g.urls
  /-- They have the same edges. -/
  imports : ∀ u v, g'.Imports u v ↔ g.Imports u v

/-! ## Turning a circle -/

/-- A list paired with what comes next around, from another place on. -/
theorem zip_rotate (vs : List Url) (n : Nat) :
    (vs.rotate n).zip ((vs.rotate n).rotate 1) = (vs.zip (vs.rotate 1)).rotate n := by
  have hswap : (vs.rotate n).rotate 1 = (vs.rotate 1).rotate n := by
    rw [List.rotate_rotate, List.rotate_rotate, Nat.add_comm]
  rw [hswap]
  exact (List.zipWith_rotate_distrib Prod.mk vs _ n (List.length_rotate ..).symm).symm

/-- A walk around has the modules from which it goes on. -/
theorem mem_around {others : List Url} : v ∈ u :: (others ++ [u]) ↔ v ∈ u :: others := by
  simp only [List.mem_cons, List.mem_append, List.not_mem_nil, or_false]
  tauto

/-- The edges of a walk around lead from each of its modules to the next one around. -/
theorem edges_around (u : Url) (others : List Url) :
    edges (u :: (others ++ [u])) = (u :: others).zip ((u :: others).rotate 1) := by
  rw [List.rotate_cons_succ, List.rotate_zero, edges, ← List.cons_append, List.dropLast_concat]
  rfl

/-- Different modules each of which imports the next one around make a circle. -/
theorem isCircle_around {others : List Url} (hn : (u :: others).Nodup)
    (himp : ∀ e ∈ edges (u :: (others ++ [u])), g.Imports e.1 e.2) :
    g.IsCircle u (u :: (others ++ [u])) where
  starts := rfl
  ends := by rw [← List.cons_append, List.getLast?_concat]
  two_le_length := by simp
  follows := isChain_iff_edges.2 himp
  nodup := (List.perm_append_singleton u others).nodup_iff.2 hn

namespace IsCircle

/-- A circle of one graph is a circle of another that has its edges. -/
theorem of_imports {g' : Graph} (h : g.IsCircle closing path)
    (himp : ∀ u v, g.Imports u v → g'.Imports u v) : g'.IsCircle closing path :=
  { h with follows := h.follows.imp himp }

/-- A circle goes from its module past others back to it. -/
theorem exists_eq (h : g.IsCircle closing path) :
    ∃ others, path = closing :: (others ++ [closing]) := by
  obtain ⟨rest, rfl⟩ := List.head?_eq_some_iff.1 h.starts
  have hne : rest ≠ [] := by
    rintro rfl
    simpa using h.two_le_length
  obtain ⟨others, rfl⟩ := List.getLast?_eq_some_iff.1
    ((List.getLast?_append_of_ne_nil [closing] hne).symm.trans h.ends)
  exact ⟨others, rfl⟩

/-- The edges of a circle lead from each of its modules to the next one around. -/
theorem edges_eq (h : g.IsCircle closing path) :
    edges path = path.dropLast.zip (path.dropLast.rotate 1) := by
  obtain ⟨others, rfl⟩ := h.exists_eq
  rw [edges_around, ← List.cons_append, List.dropLast_concat]

/-- Before it ends, a circle comes to no module twice. -/
theorem nodup_dropLast (h : g.IsCircle closing path) : path.dropLast.Nodup := by
  obtain ⟨others, rfl⟩ := h.exists_eq
  rw [← List.cons_append, List.dropLast_concat]
  exact (List.perm_append_singleton closing others).nodup_iff.1 h.nodup

/-- Circles that differ in their start only have the same edges. -/
theorem mem_edges_iff {g' : Graph} {closing' : Url} (h : g.IsCircle closing path)
    (h' : g'.IsCircle closing' path') (hr : path.dropLast.IsRotated path'.dropLast) :
    e ∈ edges path ↔ e ∈ edges path' := by
  obtain ⟨n, hn⟩ := hr
  rw [h.edges_eq, h'.edges_eq, ← hn, zip_rotate, List.mem_rotate]

/-- The last edge of a circle leads to its start. -/
theorem exists_lastEdge?_eq (h : g.IsCircle closing path) :
    ∃ u, lastEdge? path = some (u, closing) := by
  obtain ⟨others, rfl⟩ := h.exists_eq
  obtain ⟨front, u, hfront⟩ : ∃ front u, closing :: others = front ++ [u] :=
    (List.eq_nil_or_concat' _).resolve_left (List.cons_ne_nil closing others)
  rw [← List.cons_append, hfront, lastEdge?, edges_concat, List.getLast?_concat]
  exact ⟨u, rfl⟩

/-- The edge of a circle that leads to its start is its last. -/
theorem lastEdge?_eq (h : g.IsCircle closing path) (he : e ∈ edges path) (hto : e.2 = closing) :
    lastEdge? path = some e := by
  have hsnd : (edges path).map Prod.snd = path.tail :=
    List.map_snd_zip (by rw [List.length_dropLast, List.length_tail])
  have hn : ((edges path).map Prod.snd).Nodup := hsnd ▸ h.nodup
  obtain ⟨u, hlast⟩ := h.exists_lastEdge?_eq
  rw [hlast, List.inj_on_of_nodup_map hn (List.mem_of_getLast? hlast) he hto.symm]

/-- A circle can be gone around so that it ends with any of its edges. -/
theorem exists_rotation (h : g.IsCircle closing path) (he : e ∈ edges path) :
    ∃ path', g.IsCircle e.2 path' ∧ lastEdge? path' = some e ∧
      path'.dropLast.IsRotated path.dropLast := by
  obtain ⟨before, after, hsplit⟩ := List.append_of_mem he
  have hrotate : (edges path).rotate (before.length + 1) = after ++ before ++ [e] := by
    have hlen : before.length + 1 = (before ++ [e]).length := by simp
    rw [hsplit, List.append_cons, hlen, List.rotate_append_length_eq, List.append_assoc]
  have hr : (path.dropLast.rotate (before.length + 1)).IsRotated path.dropLast :=
    List.IsRotated.forall _ _
  -- only that it is a rotation matters from here on, not by how much
  rw [h.edges_eq, ← zip_rotate] at hrotate
  generalize path.dropLast.rotate (before.length + 1) = turned at hrotate hr
  cases turned with
  | nil => simp at hrotate
  | cons start others =>
    rw [← edges_around] at hrotate
    have hlast : lastEdge? (start :: (others ++ [start])) = some e := by
      rw [lastEdge?, hrotate, List.getLast?_concat]
    have hcircle : g.IsCircle start (start :: (others ++ [start])) := by
      refine isCircle_around (hr.nodup_iff.2 h.nodup_dropLast) fun d hd => ?_
      -- going around another way follows the same edges
      refine isChain_iff_edges.1 h.follows d ?_
      rw [hrotate] at hd
      rw [hsplit]
      simp only [List.mem_append, List.mem_cons, List.not_mem_nil, or_false] at hd ⊢
      tauto
    obtain ⟨u, hend⟩ := hcircle.exists_lastEdge?_eq
    obtain rfl : (u, start) = e := Option.some.inj (hend.symm.trans hlast)
    refine ⟨_, hcircle, hlast, ?_⟩
    rw [← List.cons_append, List.dropLast_concat]
    exact hr

end IsCircle

/-! ## The order in which a circle is reported -/

/-- A circle has the modules of the path that it closes on. -/
theorem mem_of_mem_cyclePath {dep : Url} (hdep : dep ∈ path) (h : v ∈ cyclePath path dep) :
    v ∈ path := by
  obtain ⟨front, back, rfl, hfront⟩ := List.eq_append_cons_of_mem hdep
  rw [cyclePath_append hfront, mem_around] at h
  exact List.mem_append_right front h

/-- A circle that has the first module of the path that it closes on starts there. -/
theorem head?_cyclePath {rest : List Url} {dep : Url} (hn : (u :: rest).Nodup)
    (hdep : dep ∈ u :: rest) (hu : u ∈ cyclePath (u :: rest) dep) :
    (cyclePath (u :: rest) dep).head? = some u := by
  obtain ⟨front, back, hpath, hfront⟩ := List.eq_append_cons_of_mem hdep
  rw [hpath] at hn hu ⊢
  rw [cyclePath_append hfront] at hu ⊢
  cases front with
  | nil =>
    cases hpath
    rfl
  | cons first front =>
    -- the circle is what is behind the first module, which does not come again
    obtain rfl : u = first := (List.cons.inj hpath).1
    exact absurd rfl ((List.nodup_append.1 hn).2.2 u List.mem_cons_self u (mem_around.1 hu))

/-- A report that has the module which is listed first starts there. -/
theorem head?_of_mem_cycles (hg : g.WellFormed) {rest : List Url} (hurls : g.urls = u :: rest)
    {p : List Url} (hp : p ∈ g.cycles) (hu : u ∈ p) : p.head? = some u := by
  obtain ⟨w, hw, hcycles⟩ := exists_walks hg
  rw [hurls] at hw
  rw [← hcycles] at hp
  cases hw with
  | closes hpath _ => cases hpath
  | finished _ hdone _ => cases hdone
  | @walked _ _ w₁ _ _ _ _ _ hdeps hrest =>
    have hafter := hrest.reports List.nodup_nil (fun _ _ => List.isChain_singleton _) (by simp) p hp
    rcases hafter with hp | ⟨more, dep, rfl, hdep, -, -, hfresh⟩
    · -- on the way from the module all paths start there
      have hfrom := hdeps.reports (List.nodup_singleton u)
        (fun dep hdep => List.isChain_pair.2 hdep) (by simp) p hp
      rcases hfrom with hp | ⟨more, dep, rfl, hdep, hn, -, -⟩
      · cases hp
      · exact head?_cyclePath hn hdep hu
    -- later paths do not come to the module, which is finished
    · exact absurd (List.mem_append_right _ (List.mem_singleton.2 rfl))
        (hfresh u (mem_of_mem_cyclePath hdep hu))

/-- The edges of a walk have every step that it takes. -/
theorem mem_edges_append (front back : List Url) (u v : Url) :
    (u, v) ∈ edges (front ++ u :: v :: back) := by
  have hchain : (front ++ u :: v :: back).IsChain fun a b =>
      (a, b) ∈ edges (front ++ u :: v :: back) := isChain_iff_edges.2 fun _ he => he
  exact (List.isChain_append_cons_cons.1 hchain).2.1

/-- A walk that goes on along the first imports closes the circle that they make. -/
theorem Walks.follows {front back rest : List Url} {w' : Walk}
    (h : g.Walks front ⟨[], []⟩ (u :: rest) w')
    (hcircle : g.IsCircle closing (front ++ u :: back ++ [closing]))
    (hfirst : ∀ e ∈ edges (front ++ u :: back ++ [closing]),
      (g.dependencies e.1).head? = some e.2) :
    front ++ u :: back ++ [closing] ∈ w'.cycles := by
  have hn := hcircle.nodup_dropLast
  rw [List.dropLast_concat] at hn
  have hnew : u ∉ front := fun hu => (List.nodup_append.1 hn).2.2 u hu u List.mem_cons_self rfl
  induction back generalizing front u rest w' with
  | nil =>
    cases h with
    | closes hpath _ => exact absurd hpath hnew
    | finished _ hdone _ => cases hdone
    | walked _ _ hdeps hrest =>
      -- the circle is the path on which the walk is now
      obtain ⟨others, hpath⟩ := hcircle.exists_eq
      obtain ⟨hpath, -⟩ := List.append_inj' (hpath.trans (List.cons_append ..).symm) rfl
      obtain ⟨deps, hdep⟩ := List.head?_eq_some_iff.1
        (hfirst (u, closing) (by simpa using mem_edges_append front [] u closing))
      rw [hdep, hpath] at hdeps
      rw [hpath]
      cases hdeps with
      | closes _ hclosed =>
        refine hrest.grows.2.subset (hclosed.grows.2.subset (List.mem_append_right _ ?_))
        rw [← List.nil_append (closing :: others), cyclePath_append List.not_mem_nil]
        exact List.mem_singleton.2 rfl
      | finished hout _ _ | walked hout _ _ _ => exact absurd List.mem_cons_self hout
  | cons v back ih =>
    cases h with
    | closes hpath _ => exact absurd hpath hnew
    | finished _ hdone _ => cases hdone
    | walked _ _ hdeps hrest =>
      obtain ⟨deps, hdep⟩ := List.head?_eq_some_iff.1
        (hfirst (u, v) (by simpa using mem_edges_append front (back ++ [closing]) u v))
      rw [hdep] at hdeps
      have hpath : front ++ u :: v :: back = front ++ [u] ++ v :: back := List.append_cons ..
      rw [hpath] at hcircle hfirst hn ⊢
      have hmem := ih hdeps hcircle hfirst hn fun hv =>
        (List.nodup_append.1 hn).2.2 v hv v List.mem_cons_self rfl
      exact hrest.grows.2.subset hmem

/-- A circle is reported if the module from which it starts is listed first and every module of the
circle imports the next one first of all. -/
theorem mem_cycles_of_first (hg : g.WellFormed) (h : g.IsCircle closing path) {rest : List Url}
    (hurls : g.urls = closing :: rest)
    (hfirst : ∀ e ∈ edges path, (g.dependencies e.1).head? = some e.2) : path ∈ g.cycles := by
  obtain ⟨w, hw, hcycles⟩ := exists_walks hg
  obtain ⟨others, rfl⟩ := h.exists_eq
  rw [hurls] at hw
  rw [← hcycles]
  have hfollowed : [] ++ closing :: others ++ [closing] ∈ w.cycles := hw.follows h hfirst
  exact hfollowed

/-! ## Recording a circle first -/

/-- The notes that record the edges of a walk, one by one. -/
def notesAlong (path : List Url) : List Note := (edges path).map fun e => .imports e.1 [e.2]

/-- A graph in which a walk is recorded that it has already has the same edges. -/
theorem sameEdges_notesAlong {notes : List Note} (h : path.IsChain (ofNotes notes).Imports) :
    (ofNotes notes).SameEdges (ofNotes (notesAlong path ++ notes)) := by
  have hedges := isChain_iff_edges.1 h
  have hg := wellFormed_ofNotes notes
  refine ⟨fun v => ?_, fun m v => ?_⟩
  · simp only [ofNotes, mem_urls_foldl_note, List.mem_append, or_and_right, exists_or]
    rw [← or_assoc, or_right_comm, ← mem_urls_foldl_note, ← ofNotes, or_iff_left_iff_imp]
    rintro ⟨n, hn, hv⟩
    obtain ⟨e, he, rfl⟩ := List.mem_map.1 hn
    obtain rfl | hv := hv
    · exact (hedges e he).mem_urls
    · rw [List.mem_singleton.1 hv]
      exact hg.closed e.1 e.2 (hedges e he)
  · simp only [Imports, ofNotes, mem_dependencies_foldl_note, List.mem_append, or_and_right,
      exists_or]
    rw [← or_assoc, or_right_comm, ← mem_dependencies_foldl_note, ← ofNotes, or_iff_left_iff_imp]
    rintro ⟨n, hn, hv⟩
    obtain ⟨e, he, rfl⟩ := List.mem_map.1 hn
    obtain ⟨rfl, hv⟩ := hv
    rw [List.mem_singleton.1 hv]
    exact hedges e he

/-- When the edges of a circle are recorded first, the module at its start is listed first. -/
theorem exists_urls_notesAlong (h : g.IsCircle closing path) (notes : List Note) :
    ∃ rest, (ofNotes (notesAlong path ++ notes)).urls = closing :: rest := by
  obtain ⟨others, rfl⟩ := h.exists_eq
  obtain ⟨second, more, hmore⟩ : ∃ second more, others ++ [closing] = second :: more :=
    List.exists_cons_of_ne_nil (by simp)
  rw [hmore]
  have hfirst : (empty.note (.imports closing [second])).urls =
      closing :: [second].filter (· ≠ closing) := by
    rw [note, urls_add]
    by_cases hself : second = closing <;> simp [addOnce, urls, empty, hself]
  obtain ⟨rest, hrest⟩ := (prefix_foldl_note (notesAlong (second :: more) ++ notes)
    (empty.note (.imports closing [second]))).1
  rw [hfirst] at hrest
  exact ⟨_, hrest.symm⟩

/-- When the edges of a walk that leaves no module twice are recorded first, each is the first of
those that leave the module. -/
theorem head?_dependencies_notesAlong (notes : List Note) (hn : path.dropLast.Nodup)
    (he : e ∈ edges path) :
    ((ofNotes (notesAlong path ++ notes)).dependencies e.1).head? = some e.2 := by
  obtain ⟨before, after, hsplit⟩ := List.append_of_mem he
  have hfst : (edges path).map Prod.fst = path.dropLast :=
    List.map_fst_zip (by rw [List.length_dropLast, List.length_tail])
  rw [← hfst, hsplit, List.map_append, List.map_cons] at hn
  -- the module has no edges when this one is recorded
  have hnone : (ofNotes (before.map fun e => .imports e.1 [e.2])).dependencies e.1 = [] := by
    refine List.eq_nil_iff_forall_not_mem.2 fun v hv => ?_
    rcases (mem_dependencies_foldl_note _ empty e.1 v).1 hv with hv | ⟨n, hmem, hsays⟩
    · cases hv
    · obtain ⟨d, hd, rfl⟩ := List.mem_map.1 hmem
      refine (List.nodup_append.1 hn).2.2 e.1 ?_ e.1 List.mem_cons_self rfl
      exact List.mem_map.2 ⟨d, hd, hsays.1.symm⟩
  have hfirst : ((ofNotes (before.map fun e => .imports e.1 [e.2])).note
      (.imports e.1 [e.2])).dependencies e.1 = [e.2] := by
    rw [note, dependencies_add, if_pos rfl, hnone]
    rfl
  obtain ⟨more, hmore⟩ := (prefix_foldl_note (after.map (fun e => .imports e.1 [e.2]) ++ notes)
    ((ofNotes (before.map fun e => .imports e.1 [e.2])).note (.imports e.1 [e.2]))).2 e.1
  have hnotes : ofNotes (notesAlong path ++ notes) =
      (after.map (fun e => Note.imports e.1 [e.2]) ++ notes).foldl note
        ((ofNotes (before.map fun e => .imports e.1 [e.2])).note (.imports e.1 [e.2])) := by
    rw [notesAlong, hsplit, List.map_append, List.map_cons, List.append_assoc, ofNotes,
      List.foldl_append]
    rfl
  rw [hnotes, ← hmore, hfirst]
  rfl

/-- A circle whose edges are recorded first is reported as it is. -/
theorem mem_cycles_notesAlong {notes : List Note} (h : (ofNotes notes).IsCircle closing path) :
    path ∈ (ofNotes (notesAlong path ++ notes)).cycles := by
  have hg := wellFormed_ofNotes (notesAlong path ++ notes)
  have hcircle := h.of_imports fun u v => ((sameEdges_notesAlong h.follows).imports u v).2
  have hfirst := fun e he => head?_dependencies_notesAlong notes (e := e) h.nodup_dropLast he
  obtain ⟨rest, hurls⟩ := exists_urls_notesAlong h notes
  exact mem_cycles_of_first hg hcircle hurls hfirst

/-! ## Every order -/

/-- A circle is reported, in whichever order its graph is recorded, exactly if no other circle has
an edge of it. -/
theorem reports_in_every_order_iff (notes : List Note)
    (h : (ofNotes notes).IsCircle closing path) :
    (∀ notes', (ofNotes notes).SameEdges (ofNotes notes') → (ofNotes notes').Reports path) ↔
      ∀ closing' path', (ofNotes notes).IsCircle closing' path' →
        (∃ e ∈ edges path, e ∈ edges path') → path'.dropLast.IsRotated path.dropLast := by
  constructor
  · rintro hall closing' path' h' ⟨e, he, he'⟩
    -- record the other circle first, so that the edge is its last
    obtain ⟨first, hcircle, hlast, hturned⟩ := h'.exists_rotation he'
    have hsame := sameEdges_notesAlong hcircle.follows
    have hg := wellFormed_ofNotes (notesAlong first ++ notes)
    have hreported := mem_cycles_notesAlong hcircle
    obtain ⟨p, hp, hrotated⟩ := hall _ hsame
    obtain ⟨closing₁, hp₁⟩ := hg.isCircle_of_mem_cycles hp
    -- the report of this one has the edge too, and starts where that one does
    have hep : e ∈ edges p := (hp₁.mem_edges_iff h hrotated).2 he
    obtain ⟨rest, hurls⟩ := exists_urls_notesAlong hcircle notes
    have hstarts : p.head? = some e.2 :=
      head?_of_mem_cycles hg hurls hp (List.mem_of_mem_tail (List.of_mem_zip hep).2)
    have hend : e.2 = closing₁ := Option.some.inj (hstarts.symm.trans hp₁.starts)
    -- and so the two are one, as no edge is the last of two
    have hone : p = first := List.inj_on_of_nodup_map
      (hg.nodup_lastEdge?_cycles (nodup_dependencies_ofNotes _)) hp hreported
      ((hp₁.lastEdge?_eq hep hend).trans hlast.symm)
    exact hturned.symm.trans (hone ▸ hrotated)
  · intro honly notes' hsame
    have hg := wellFormed_ofNotes notes'
    have hcircle := h.of_imports fun u v => (hsame.imports u v).2
    obtain ⟨p, hp, e, hlast, he⟩ := hg.exists_lastEdge?_mem
      (hcircle.starts.trans hcircle.ends.symm) hcircle.two_le_length hcircle.follows
    obtain ⟨closing', hp'⟩ := hg.isCircle_of_mem_cycles hp
    have hp'' := hp'.of_imports fun u v => (hsame.imports u v).1
    exact ⟨p, hp, honly closing' p hp'' ⟨e, he, List.mem_of_getLast? hlast⟩⟩

/-- Two circles that share the edge from `d.js` to `a.js`. -/
def forked : List Note :=
  [.imports (fileUrl "a.js") [fileUrl "b.js", fileUrl "c.js"],
    .imports (fileUrl "b.js") [fileUrl "d.js"], .imports (fileUrl "c.js") [fileUrl "d.js"],
    .imports (fileUrl "d.js") [fileUrl "a.js"]]

/-- The circle of `forked` by `b.js`. -/
theorem isCircle_forked_left : (ofNotes forked).IsCircle (fileUrl "a.js")
    [fileUrl "a.js", fileUrl "b.js", fileUrl "d.js", fileUrl "a.js"] :=
  ⟨rfl, rfl, by decide, isChain_iff_edges.2 (by decide +kernel), by decide +kernel⟩

/-- The circle of `forked` by `c.js`. -/
theorem isCircle_forked_right : (ofNotes forked).IsCircle (fileUrl "a.js")
    [fileUrl "a.js", fileUrl "c.js", fileUrl "d.js", fileUrl "a.js"] :=
  ⟨rfl, rfl, by decide, isChain_iff_edges.2 (by decide +kernel), by decide +kernel⟩

/-- The circle by `b.js` is reported as it was recorded first, but not in every order. -/
theorem reports_in_some_order_of_forked :
    (ofNotes forked).Reports [fileUrl "a.js", fileUrl "b.js", fileUrl "d.js", fileUrl "a.js"] ∧
      ¬ ∀ notes', (ofNotes forked).SameEdges (ofNotes notes') → (ofNotes notes').Reports
        [fileUrl "a.js", fileUrl "b.js", fileUrl "d.js", fileUrl "a.js"] := by
  refine ⟨by decide +kernel, fun hall => ?_⟩
  have hturned := (reports_in_every_order_iff forked isCircle_forked_left).1 hall (fileUrl "a.js")
    [fileUrl "a.js", fileUrl "c.js", fileUrl "d.js", fileUrl "a.js"] isCircle_forked_right
    ⟨(fileUrl "d.js", fileUrl "a.js"), by decide +kernel, by decide +kernel⟩
  exact absurd hturned (by decide +kernel)

/-- The circle by `c.js` is not reported. -/
theorem not_reports_of_forked :
    (ofNotes forked).IsCircle (fileUrl "a.js")
        [fileUrl "a.js", fileUrl "c.js", fileUrl "d.js", fileUrl "a.js"] ∧
      ¬ (ofNotes forked).Reports
        [fileUrl "a.js", fileUrl "c.js", fileUrl "d.js", fileUrl "a.js"] :=
  ⟨isCircle_forked_right, by decide +kernel⟩

end ModuleLoader.Graph
