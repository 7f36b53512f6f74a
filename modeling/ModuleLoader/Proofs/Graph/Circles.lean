import Mathlib.Data.List.Nodup
import ModuleLoader.Proofs.Graph.Traversal

/-! # Circles that a search closes

Each circle that is reported is closed by its last edge, and no edge closes two. Without these edges
there are no circles left, as the modules are finished in an order that all other edges respect.

* **`Graph.edges`** are the edges of a walk, **`Graph.lastEdge?`** the last of them.
* **`Graph.withoutEdges`** takes edges out of a graph.
* **`Graph.Walks.reports`** says where a circle comes from that is reported.
* **`Graph.Walks.sorted`** says in what order modules are finished.
* **`Graph.Walks.closings`** says that no edge closes two circles.
* **`Graph.cycles_of_notes`** says what the search comes to. -/

namespace ModuleLoader.Graph

open Relation

variable {g : Graph} {path : List Url} {url dep : Url} {urls rest : List Url} {w w' : Walk}

/-! ## Edges -/

/-- The edges of a walk: every module but the last, with the next one. -/
def edges (path : List Url) : List (Url × Url) := path.dropLast.zip path.tail

/-- The last edge of a walk. -/
def lastEdge? (path : List Url) : Option (Url × Url) := (edges path).getLast?

/-- The edges of a walk that goes one step further. -/
theorem edges_concat (front : List Url) (u v : Url) :
    edges (front ++ [u] ++ [v]) = edges (front ++ [u]) ++ [(u, v)] := by
  have htail : (front ++ [u] ++ [v]).tail = (front ++ [u]).tail ++ [v] :=
    List.tail_append_of_ne_nil (by simp)
  rw [edges, edges, htail, List.dropLast_concat, List.dropLast_concat]
  exact List.zip_append (by simp)

/-- A list is a walk exactly if all its edges are steps. -/
theorem isChain_iff_edges {R : Url → Url → Prop} :
    path.IsChain R ↔ ∀ e ∈ edges path, R e.1 e.2 := by
  rw [List.isChain_iff_forall₂, List.forall₂_iff_zip, List.length_dropLast, List.length_tail,
    edges]
  simp

/-- The last edge of a circle leads from the last module of the path to where it closes. -/
theorem lastEdge?_cyclePath (hlast : path.getLast? = some url) (hdep : dep ∈ path) :
    lastEdge? (cyclePath path dep) = some (url, dep) := by
  obtain ⟨front, back, rfl, hfront⟩ := List.eq_append_cons_of_mem hdep
  rw [List.getLast?_append_of_ne_nil _ (List.cons_ne_nil dep back)] at hlast
  obtain ⟨walked, hwalked⟩ := List.getLast?_eq_some_iff.1 hlast
  rw [cyclePath_append hfront, ← List.cons_append, hwalked, lastEdge?, edges_concat,
    List.getLast?_concat]

/-- The graph without some of its edges. -/
def withoutEdges (g : Graph) (es : List (Url × Url)) : Graph :=
  ⟨g.nodes.map fun (url, n) => (url,
    { dependencies := n.dependencies.filter fun dep => (url, dep) ∉ es
      dependents := n.dependents.filter fun importer => (importer, url) ∉ es
      lazy := n.lazy.filter fun dep => (url, dep) ∉ es })⟩

/-- The imports that are left. -/
theorem imports_withoutEdges (g : Graph) (es : List (Url × Url)) (url dep : Url) :
    (g.withoutEdges es).Imports url dep ↔ g.Imports url dep ∧ (url, dep) ∉ es := by
  unfold Imports dependencies node? withoutEdges
  rw [List.find?_map]
  simp only [Function.comp_def]
  cases hfind : g.nodes.find? (fun e => decide (e.1 = url)) with
  | none => simp [Node.bare]
  | some e =>
    have he : e.1 = url := by simpa using List.find?_some hfind
    simp [he]

/-! ## Reports -/

namespace Walks

/-- A circle that is reported is that of some path on which a walk has gone on, past modules that
had not been finished. -/
theorem reports (h : g.Walks path w urls w') (hn : path.Nodup)
    (hchain : ∀ url ∈ urls, (path ++ [url]).IsChain g.Imports)
    (hfresh : ∀ v ∈ path, v ∉ w.finished) :
    ∀ p ∈ w'.cycles, p ∈ w.cycles ∨ ∃ more dep, p = cyclePath (path ++ more) dep ∧
      dep ∈ path ++ more ∧ (path ++ more).Nodup ∧ (path ++ more ++ [dep]).IsChain g.Imports ∧
      ∀ v ∈ path ++ more, v ∉ w.finished := by
  induction h with
  | nil => exact fun p hp => .inl hp
  | @closes path w w' url rest hpath _ ih =>
    obtain ⟨hurl, hrest⟩ := List.forall_mem_cons.1 hchain
    intro p hp
    rcases ih hn hrest hfresh p hp with hold | hnew
    · refine (List.mem_append.1 hold).imp_right fun hnew => ⟨[], url, ?_⟩
      simpa using ⟨by simpa using hnew, hpath, hn, hurl, hfresh⟩
    · exact .inr hnew
  | finished _ _ _ ih => exact ih hn (List.forall_mem_cons.1 hchain).2 hfresh
  | @walked path w w₁ w' url rest hpath hnew hdeps _ ih ih' =>
    obtain ⟨hurl, hrest⟩ := List.forall_mem_cons.1 hchain
    have hfresh₁ := fresh_extend hfresh hnew
    intro p hp
    rcases ih' hn hrest (hdeps.fresh_finish hfresh₁ hpath) p hp with hold | hafter
    · have hn' : (path ++ [url]).Nodup := List.concat_eq_append ▸ hn.concat hpath
      refine (ih hn' (fun dep hdep => isChain_extend hurl hdep) hfresh₁ p hold).imp_right ?_
      rintro ⟨more, dep, hmore⟩
      exact ⟨url :: more, dep, by simpa using hmore⟩
    -- what is not finished later was not finished before
    · obtain ⟨more, dep, hp, hdep, hn', hchain', hfresh'⟩ := hafter
      refine .inr ⟨more, dep, hp, hdep, hn', hchain', fun v hv hdone => hfresh' v hv ?_⟩
      exact List.mem_append_left _ (hdeps.grows.1 v hdone)

/-- A module that a walk comes to has been finished, or a circle has been closed there. -/
theorem finished_or_closed (h : g.Walks path w urls w') :
    ∀ url ∈ urls, url ∈ w'.finished ∨ url ∈ path ∧ cyclePath path url ∈ w'.cycles := by
  induction h with
  | nil => simp
  | @closes path w w' url rest hpath hrest ih =>
    refine List.forall_mem_cons.2 ⟨.inr ⟨hpath, hrest.grows.2.subset ?_⟩, ih⟩
    exact List.mem_append_right _ (List.mem_singleton.2 rfl)
  | @finished path w w' url rest _ hdone hrest ih =>
    exact List.forall_mem_cons.2 ⟨.inl (hrest.grows.1 url hdone), ih⟩
  | @walked path w w₁ w' url rest _ _ _ hrest _ ih' =>
    refine List.forall_mem_cons.2 ⟨.inl (hrest.grows.1 url ?_), ih'⟩
    exact List.mem_append_right _ (List.mem_singleton.2 rfl)

/-- Modules are finished behind those that they import, but for the edges that close circles. -/
theorem sorted {g' : Graph} (h : g.Walks path w urls w')
    (hg' : ∀ u v, g'.Imports u v → g.Imports u v ∧ ∀ p ∈ w'.cycles, lastEdge? p ≠ some (u, v))
    (hfresh : ∀ v ∈ path, v ∉ w.finished) (hs : g'.Sorted w.finished) :
    g'.Sorted w'.finished := by
  induction h with
  | nil => exact hs
  | closes _ _ ih => exact ih hg' hfresh hs
  | finished _ _ _ ih => exact ih hg' hfresh hs
  | @walked path w w₁ w' url rest hpath hnew hdeps hrest ih ih' =>
    have hfresh₁ := fresh_extend hfresh hnew
    have hs₁ : g'.Sorted w₁.finished :=
      ih (fun u v huv => ⟨(hg' u v huv).1, fun p hp => (hg' u v huv).2 p (hrest.grows.2.subset hp)⟩)
        hfresh₁ hs
    -- walking on cannot have finished the module itself: it is on the path
    have hurl : url ∉ w₁.finished := fun hdone =>
      hnew (hdeps.mem_finished_of_mem_path url (by simp) hdone)
    refine ih' hg' (hdeps.fresh_finish hfresh₁ hpath) (hs₁.concat hurl fun dep hdep => ?_)
    obtain ⟨himp, hopen⟩ := hg' url dep hdep
    refine (hdeps.finished_or_closed dep himp).resolve_right fun hclosed => ?_
    refine hopen _ (hrest.grows.2.subset hclosed.2) (lastEdge?_cyclePath ?_ hclosed.1)
    exact List.getLast?_concat

/-- A walk may close a circle with the edge: it leads from a module that the walk finishes, or from
the end of the path to a module to which the walk goes. -/
def MayClose (path : List Url) (w : Walk) (urls : List Url) (w' : Walk)
    (e : Option (Url × Url)) : Prop :=
  ∃ u v, e = some (u, v) ∧
    (u ∉ w.finished ∧ u ∈ w'.finished ∨ path.getLast? = some u ∧ v ∈ urls)

/-- A walk that goes to one more module may close circles with the same edges. -/
theorem MayClose.cons {e : Option (Url × Url)} (h : MayClose path w urls w' e) (url : Url) :
    MayClose path w (url :: urls) w' e := by
  obtain ⟨u, v, he, hmem⟩ := h
  exact ⟨u, v, he, hmem.imp_right fun h => ⟨h.1, List.mem_cons_of_mem url h.2⟩⟩

/-- No edge closes two circles. -/
theorem closings (hg : ∀ u, (g.dependencies u).Nodup) (h : g.Walks path w urls w')
    (hn : urls.Nodup) (hfresh : ∀ v ∈ path, v ∉ w.finished) :
    ∃ new, w'.cycles.map lastEdge? = w.cycles.map lastEdge? ++ new ∧ new.Nodup ∧
      ∀ e ∈ new, MayClose path w urls w' e := by
  induction h with
  | nil => exact ⟨[], by simp, List.nodup_nil, by simp⟩
  | @closes path w w' url rest hpath hrest ih =>
    obtain ⟨hurl, hn⟩ := List.nodup_cons.1 hn
    obtain ⟨new, heq, hnew, hfrom⟩ := ih hn hfresh
    obtain ⟨last, hlast⟩ : ∃ last, path.getLast? = some last :=
      Option.isSome_iff_exists.1 (by simp [List.ne_nil_of_mem hpath])
    have hlastmem : last ∈ path := List.mem_of_getLast? hlast
    refine ⟨some (last, url) :: new, ?_, List.nodup_cons.2 ⟨fun hmem => ?_, hnew⟩, ?_⟩
    · rw [heq, List.map_append, List.append_assoc, List.map_singleton,
        lastEdge?_cyclePath hlast hpath, List.singleton_append]
    -- a later edge leads from a module that is off the path, or to one that comes later
    · obtain ⟨u, v, he, hmem⟩ := hfrom _ hmem
      cases he
      rcases hmem with ⟨hold, hdone⟩ | ⟨-, hrest⟩
      · exact hold (hrest.mem_finished_of_mem_path last hlastmem hdone)
      · exact hurl hrest
    · intro e he
      rcases List.mem_cons.1 he with rfl | he
      · exact ⟨last, url, rfl, .inr ⟨hlast, by simp⟩⟩
      · exact (hfrom e he).cons url
  | @finished path w w' url rest _ _ _ ih =>
    obtain ⟨new, heq, hnew, hfrom⟩ := ih (List.nodup_cons.1 hn).2 hfresh
    exact ⟨new, heq, hnew, fun e he => (hfrom e he).cons url⟩
  | @walked path w w₁ w' url rest hpath hnew hdeps hrest ih ih' =>
    have hfresh₁ := fresh_extend hfresh hnew
    have hfresh₂ := hdeps.fresh_finish hfresh₁ hpath
    obtain ⟨new₁, heq₁, hnew₁, hfrom₁⟩ := ih (hg url) hfresh₁
    obtain ⟨new₂, heq₂, hnew₂, hfrom₂⟩ := ih' (List.nodup_cons.1 hn).2 hfresh₂
    -- the edges found further on leave modules that are finished by then
    have hfrom : ∀ e ∈ new₁, ∃ u v, e = some (u, v) ∧ u ∉ w.finished ∧
        u ∈ w₁.finished ++ [url] := by
      intro e he
      obtain ⟨u, v, rfl, ⟨hold, hdone⟩ | ⟨hlast, -⟩⟩ := hfrom₁ e he
      · exact ⟨u, v, rfl, hold, List.mem_append_left _ hdone⟩
      · obtain rfl : url = u := by simpa using hlast
        exact ⟨url, v, rfl, hnew, by simp⟩
    refine ⟨new₁ ++ new₂, by rw [heq₂, heq₁, List.append_assoc],
      List.nodup_append.2 ⟨hnew₁, hnew₂, ?_⟩, fun e he => ?_⟩
    -- a module that is finished by then is not finished again, nor is it on the path
    · rintro e he _ he' rfl
      obtain ⟨u, v, rfl, -, hdone⟩ := hfrom e he
      obtain ⟨u', v', huv, hmem⟩ := hfrom₂ _ he'
      cases huv
      rcases hmem with ⟨hopen, -⟩ | ⟨hlast, -⟩
      · exact hopen hdone
      · exact hfresh₂ u (List.mem_of_getLast? hlast) hdone
    · rcases List.mem_append.1 he with he | he
      · obtain ⟨u, v, rfl, hold, hdone⟩ := hfrom e he
        exact ⟨u, v, rfl, .inl ⟨hold, hrest.grows.1 u hdone⟩⟩
      · obtain ⟨u, v, rfl, ⟨hopen, hdone⟩ | ⟨hlast, hv⟩⟩ := hfrom₂ e he
        · refine ⟨u, v, rfl, .inl ⟨fun hold => hopen ?_, hdone⟩⟩
          exact List.mem_append_left _ (hdeps.grows.1 u hold)
        · exact ⟨u, v, rfl, .inr ⟨hlast, List.mem_cons_of_mem _ hv⟩⟩

end Walks

/-! ## What the search comes to -/

/-- Every walk that is reported is a circle. -/
theorem WellFormed.isCircle_of_mem_cycles (hg : g.WellFormed) {p : List Url} (hp : p ∈ g.cycles) :
    ∃ closing, g.IsCircle closing p := by
  obtain ⟨w, hw, hcycles⟩ := exists_walks hg
  rw [← hcycles] at hp
  rcases hw.reports List.nodup_nil (fun _ _ => List.isChain_singleton _) (by simp) p hp with
    hold | ⟨more, dep, rfl, hdep, hn, hchain, -⟩
  · cases hold
  · exact ⟨dep, isCircle_cyclePath hn hchain hdep⟩

/-- No edge is the last of two reports. -/
theorem WellFormed.nodup_lastEdge?_cycles (hg : g.WellFormed)
    (hd : ∀ u, (g.dependencies u).Nodup) : (g.cycles.map lastEdge?).Nodup := by
  obtain ⟨w, hw, hcycles⟩ := exists_walks hg
  obtain ⟨new, heq, hnew, -⟩ := hw.closings hd hg.nodup (by simp)
  rw [← hcycles, heq]
  simpa using hnew

/-- The search reports nothing if the graph can be sorted, and first of all what the sort reports if
it cannot. -/
theorem WellFormed.cycles_agrees (hg : g.WellFormed) :
    (∀ order, g.topologicalSort = .ok order → g.cycles = []) ∧
      ∀ c, g.topologicalSort = .error c → g.cycles.head? = some c.path := by
  obtain ⟨w, hw, hcycles⟩ := exists_walks hg
  obtain ⟨hok, herror⟩ := ((visits_iff hg).2 rfl).agrees (by simp) hw
  refine ⟨fun order h => ?_, fun c h => ?_⟩
  · rw [← hcycles, hok order h]
  · obtain ⟨more, hmore⟩ := herror c h
    rw [← hcycles, ← hmore]
    rfl

/-- Without the last edges of the reports, no module imports itself. -/
theorem WellFormed.acyclic_withoutEdges (hg : g.WellFormed) :
    (g.withoutEdges (g.cycles.filterMap lastEdge?)).Acyclic := by
  obtain ⟨w, hw, hcycles⟩ := exists_walks hg
  have hleft : ∀ u v, (g.withoutEdges (g.cycles.filterMap lastEdge?)).Imports u v →
      g.Imports u v ∧ ∀ p ∈ w.cycles, lastEdge? p ≠ some (u, v) := by
    intro u v huv
    obtain ⟨himp, hopen⟩ := (imports_withoutEdges g _ u v).1 huv
    refine ⟨himp, fun p hp hlast => hopen (List.mem_filterMap.2 ⟨p, ?_, hlast⟩)⟩
    rwa [← hcycles]
  have hsorted := hw.sorted hleft (by simp) (.nil _)
  intro url hself
  -- a module that imports something is listed, and so it is finished
  obtain ⟨dep, himp, -⟩ := TransGen.head'_iff.1 hself
  have hurl : url ∈ g.urls := (hleft url dep himp).1.mem_urls
  refine hsorted.not_imports_self ?_ hself
  exact (hw.finished_or_closed url hurl).resolve_right (by simp)

/-- Every walk along imports from a module around to it has an edge that is the last of a report. -/
theorem WellFormed.exists_lastEdge?_mem (hg : g.WellFormed) (hclosed : path.head? = path.getLast?)
    (hlen : 2 ≤ path.length) (hchain : path.IsChain g.Imports) :
    ∃ p ∈ g.cycles, ∃ e, lastEdge? p = some e ∧ e ∈ edges path := by
  by_contra hnone
  have hleft : path.IsChain (g.withoutEdges (g.cycles.filterMap lastEdge?)).Imports := by
    refine isChain_iff_edges.2 fun e he =>
      (imports_withoutEdges g _ e.1 e.2).2 ⟨?_, fun hlast => ?_⟩
    · exact isChain_iff_edges.1 hchain e he
    · obtain ⟨p, hp, hlast⟩ := List.mem_filterMap.1 hlast
      exact hnone ⟨p, hp, e, hlast, he⟩
  obtain ⟨closing, hend⟩ : ∃ closing, path.getLast? = some closing :=
    Option.isSome_iff_exists.1 (by
      rw [List.getLast?_isSome]
      rintro rfl
      cases hlen)
  exact hg.acyclic_withoutEdges closing
    (transGen_of_isChain (hclosed.trans hend) hend hlen hleft)

/-- Whatever has been recorded, every walk that is reported is a circle, and none is reported twice.
Nothing is reported exactly if the graph can be sorted, and what the sort reports otherwise is the
first report. Without the last edge of every report no module of the graph imports itself, directly
or through others, and so every walk from a module around to it has such an edge. -/
theorem cycles_of_notes (notes : List Note) :
    (∀ p ∈ (ofNotes notes).cycles, ∃ closing, (ofNotes notes).IsCircle closing p) ∧
      (ofNotes notes).cycles.Nodup ∧
      ((ofNotes notes).cycles = [] ↔ ∃ order, (ofNotes notes).topologicalSort = .ok order) ∧
      (∀ c, (ofNotes notes).topologicalSort = .error c →
        (ofNotes notes).cycles.head? = some c.path) ∧
      ((ofNotes notes).withoutEdges ((ofNotes notes).cycles.filterMap lastEdge?)).Acyclic ∧
      ∀ path : List Url, path.head? = path.getLast? → 2 ≤ path.length →
        path.IsChain (ofNotes notes).Imports →
          ∃ p ∈ (ofNotes notes).cycles, ∃ e, lastEdge? p = some e ∧ e ∈ edges path := by
  have hg := wellFormed_ofNotes notes
  obtain ⟨hok, herror⟩ := hg.cycles_agrees
  refine ⟨fun p => hg.isCircle_of_mem_cycles,
    .of_map _ (hg.nodup_lastEdge?_cycles (nodup_dependencies_ofNotes notes)), ⟨fun hnone => ?_, ?_⟩,
    herror, hg.acyclic_withoutEdges, fun _ => hg.exists_lastEdge?_mem⟩
  · cases hsort : (ofNotes notes).topologicalSort with
    | ok order => exact ⟨order, rfl⟩
    | error c =>
      have hfirst := herror c hsort
      rw [hnone] at hfirst
      cases hfirst
  · rintro ⟨order, hsort⟩
    exact hok order hsort

end ModuleLoader.Graph
