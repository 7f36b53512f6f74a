import ModuleLoader.Proofs.Loader.Failures
import ModuleLoader.Proofs.Loader.Inference
import ModuleLoader.Proofs.Loader.Learning
import ModuleLoader.Proofs.Loader.Requests

/-! # Extensions are looked for once

What a URL without extension stands for is remembered, so nobody looks for its extension again
before everything is forgotten. Modules are compiled without looking for any.

* **`AsksForSources`** is what whatever does not look for extensions promises.
* **`Loader.Probes`** is what has been probed for between two worlds: the step is a wave,
  `Loader.probes_infer`, the run `Loader.probes_performAll`.
* **`Loader.probed_in_order_once`** puts a search and whole runs together. -/

namespace ModuleLoader

open Relation

variable {ω : Type} {server : Server ω} {l : Loader} {w w' w'' : World Session ω}

/-- The request asks whether there is a module at a candidate. -/
def Request.isProbe (q : Request) : Bool := decide (q.purpose ≠ .source)

/-! ## Asking for sources -/

/-- Nothing but sources is asked for, and what has been found for URLs stays. -/
structure AsksForSources (w w' : World Session ω) : Prop where
  /-- The requests are for sources. -/
  requests : ∃ qs, w'.requests = w.requests ++ qs ∧ ∀ q ∈ qs, q.purpose = .source
  /-- What URLs stand for stays. -/
  resolutions : w.state.cache.resolutions.Extends w'.state.cache.resolutions

namespace AsksForSources

theorem refl (w : World Session ω) : AsksForSources w w :=
  ⟨⟨[], (List.append_nil _).symm, by simp⟩, .refl _⟩

theorem trans (h : AsksForSources w w') (h' : AsksForSources w' w'') : AsksForSources w w'' where
  requests := by
    obtain ⟨qs, hqs, hsource⟩ := h.requests
    obtain ⟨qs', hqs', hsource'⟩ := h'.requests
    refine ⟨qs ++ qs', by rw [hqs', hqs, List.append_assoc], fun q hq => ?_⟩
    exact (List.mem_append.1 hq).elim (hsource q) (hsource' q)
  resolutions := h.resolutions.trans h'.resolutions

/-- Asking for sources in some steps is asking for sources. -/
theorem of_steps (h : ReflTransGen AsksForSources w w') : AsksForSources w w' := by
  induction h with
  | refl => exact .refl _
  | tail _ h ih => exact ih.trans h

/-- A change that keeps what URLs stand for asks for nothing. -/
theorem of_extends {s : Session}
    (h : w.state.cache.resolutions.Extends s.cache.resolutions) :
    AsksForSources w { w with state := s } :=
  ⟨⟨[], (List.append_nil _).symm, by simp⟩, h⟩

/-- Inquiring for sources alone asks for sources. -/
theorem of_inquires {possible : Url → Answer → Prop}
    (h : l.Inquires possible (fun q => q.purpose = .source) w w') : AsksForSources w w' :=
  ⟨h.requests, h.learns.resolutions⟩

end AsksForSources

namespace Loader

/-- Fetching a source asks for sources. -/
theorem asksForSources_fetchSource (url : Url) (qs : List Request) (w : World Session ω) :
    (fetchSource url).Keeps server (fun _ _ => False) AsksForSources (fun _ _ _ => True) qs w :=
  (((inquires_fetchSource default (fun q => q.purpose = .source) server.says_something url rfl qs
    w).alone.mono (fun _ _ h => h) fun _ _ => .of_inquires).imp fun _ _ _ _ => trivial)

/-- Compiling a module asks for sources. -/
theorem asksForSources_compileModule (l : Loader) (m : Url) (w : World Session ω) :
    (Op.one (l.compileModule m)).Keeps server AsksForSources (fun _ _ => True) w := by
  refine Op.keeps_one ?_
  unfold compileModule
  refine Task.keeps_look (.refl _) fun w₁ _ => ?_
  split
  · exact fun _ => trivial
  · refine Task.keeps_bind ((asksForSources_fetchSource m [] w₁).imp fun r qs w₂ _ => ?_)
    cases r with
    | ok source =>
      have hgrows := (compiles_register l m source w₂.state).grows
      exact Task.keeps_act (.of_extends hgrows.resolutions) fun _ _ _ => trivial
    | error cause =>
      have hgrows := (compiles_registerFailure m cause w₂.state).grows
      exact Task.keeps_act (.of_extends hgrows.resolutions) fun _ _ _ => trivial

/-- Compiling modules in whatever order asks for sources. -/
theorem asksForSources_compileModules (l : Loader) (order : List Url) (w : World Session ω) :
    (l.compileModules order).Keeps server AsksForSources (fun _ _ => True) w :=
  keeps_compileModules (fun _ _ => True)
    (fun _ m _ w₁ _ _ => asksForSources_compileModule l m w₁) trivial

/-- What a load does once it has the graph asks for sources. -/
theorem asksForSources_finish (l : Loader) (url : Url) (g : Graph) (w : World Session ω) :
    (l.finish url g).Keeps server AsksForSources (fun _ _ => True) w := by
  unfold finish
  cases g.topologicalSort with
  | error circle => trivial
  | ok order =>
    refine Op.keeps_bind ((asksForSources_compileModules l order w).imp fun _ w₁ _ => ?_)
    exact Op.keeps_act (.of_extends (imports_importEntry url g w₁.state).resolutions) trivial

/-! ## Probes -/

/-- Between two worlds, extensions have been looked for: `found` lists the URLs with the candidates
that have been asked for. -/
structure Probes (l : Loader) (w w' : World Session ω) (found : List (Url × List Url)) : Prop where
  /-- No URL is there twice. -/
  nodup : (found.map Prod.fst).Nodup
  /-- Each has no extension, and nothing had been found for it. -/
  new : ∀ e ∈ found, e.1.hasExtension = false ∧ w.state.cache.resolutions.contains e.1 = false
  /-- The candidates are asked for until one has a module, and what that comes to is remembered. -/
  searched : ∀ e ∈ found, ∃ answers r,
    Resolver.ComesTo l.config e.1 (Resolver.candidates l.config e.1) e.2 answers r ∧
      w'.state.cache.resolutions.get? e.1 = some r.url
  /-- No other candidates have been asked for. -/
  probes : (w'.requests.filter Request.isProbe).Perm (w.requests.filter Request.isProbe ++
    found.flatMap fun e => e.2.map (Resolver.probe l.config))
  /-- What had been found stays. -/
  kept : w.state.cache.resolutions.Extends w'.state.cache.resolutions

/-- Where sources alone are asked for, no extension is looked for. -/
theorem probes_of_asksForSources (l : Loader) (h : AsksForSources w w') : l.Probes w w' [] where
  nodup := List.nodup_nil
  new := by simp
  searched := by simp
  probes := by
    obtain ⟨qs, hqs, hsource⟩ := h.requests
    have hnone : qs.filter Request.isProbe = [] := by
      rw [List.filter_eq_nil_iff]
      intro q hq
      simp [Request.isProbe, hsource q hq]
    rw [hqs, List.filter_append, hnone, List.flatMap_nil]
  kept := h.resolutions

/-- What has been looked for is remembered. -/
theorem Probes.contains {found : List (Url × List Url)} (h : l.Probes w w' found)
    {e : Url × List Url} (he : e ∈ found) :
    w'.state.cache.resolutions.contains e.1 = true := by
  obtain ⟨_, _, -, hfound⟩ := h.searched e he
  exact Memo.contains_of_get? hfound

/-- What has been looked for before is remembered, and so not looked for later. -/
theorem Probes.trans {found found' : List (Url × List Url)} (h : l.Probes w w' found)
    (h' : l.Probes w' w'' found') : l.Probes w w'' (found ++ found') where
  nodup := by
    rw [List.map_append, List.nodup_append]
    refine ⟨h.nodup, h'.nodup, ?_⟩
    rintro u hu v hv rfl
    obtain ⟨e, he, rfl⟩ := List.mem_map.1 hu
    obtain ⟨e', he', heq⟩ := List.mem_map.1 hv
    have hnew := (h'.new e' he').2
    rw [heq, h.contains he] at hnew
    exact Bool.noConfusion hnew
  new := by
    intro e he
    rcases List.mem_append.1 he with he | he
    · exact h.new e he
    · obtain ⟨hext, hnew⟩ := h'.new e he
      refine ⟨hext, ?_⟩
      by_contra hold
      rw [Bool.not_eq_false] at hold
      rw [h.kept.contains hold] at hnew
      exact Bool.noConfusion hnew
  searched := by
    intro e he
    rcases List.mem_append.1 he with he | he
    · obtain ⟨answers, r, hcomes, hfound⟩ := h.searched e he
      exact ⟨answers, r, hcomes, h'.kept e.1 r.url hfound⟩
    · exact h'.searched e he
  probes := by
    refine h'.probes.trans ((h.probes.append_right _).trans ?_)
    rw [List.flatMap_append, List.append_assoc]
  kept := h.kept.trans h'.kept

/-- Extensions have been looked for between two worlds, for whichever URLs. -/
def HasProbed (l : Loader) (w w' : World Session ω) : Prop := ∃ found, l.Probes w w' found

theorem HasProbed.refl (l : Loader) (w : World Session ω) : l.HasProbed w w :=
  ⟨[], probes_of_asksForSources l (.refl w)⟩

/-- Asking for sources alone looks for no more extensions. -/
theorem HasProbed.asksForSources (h : l.HasProbed w w') (h' : AsksForSources w' w'') :
    l.HasProbed w w'' := by
  obtain ⟨found, hfound⟩ := h
  exact ⟨found ++ [], hfound.trans (probes_of_asksForSources l h')⟩

/-- Work that asks for sources alone looks for no more extensions. -/
theorem HasProbed.keeps {α : Type} {w₀ : World Session ω} {x : Op Session α}
    (h : l.HasProbed w₀ w) (hx : x.Keeps server AsksForSources (fun _ _ => True) w) :
    x.Keeps server (fun _ _ => True) (fun _ w' => l.HasProbed w₀ w') w :=
  ((hx.moved .refl).mono fun _ _ _ => trivial).imp fun _ _ hx =>
    h.asksForSources (.of_steps hx.2)

/-! ## Waves -/

/-- What the tasks of a wave promise: what has been found stays. -/
def keeping (w w' : World Session ω) : Prop :=
  w.state.cache.resolutions.Extends w'.state.cache.resolutions

/-- What the task that looks for the extension of a URL promises: nothing is found for others. -/
def findingFor (u : Url) (w w' : World Session ω) : Prop :=
  keeping w w' ∧ ∀ v, v ≠ u →
    w'.state.cache.resolutions.get? v = w.state.cache.resolutions.get? v

/-- What the task counts on the others for: they leave its URL as it is. -/
def leaving (u : Url) (w w' : World Session ω) : Prop :=
  w'.state.cache.resolutions.get? u = w.state.cache.resolutions.get? u

/-- What has been found stays in however many steps. -/
theorem extends_of_keeping (h : ReflTransGen keeping w w') : keeping w w' := by
  induction h with
  | refl => exact .refl _
  | tail _ h ih => exact ih.trans h

/-- Nothing is found for a URL in however many steps of others. -/
theorem get?_of_leaving {u : Url} (h : ReflTransGen (leaving u) w w') : leaving u w w' := by
  induction h with
  | refl => rfl
  | tail _ h ih => exact h.trans ih

/-- A step that finds nothing finds nothing for others. -/
theorem findingFor_of_eq {u : Url}
    (h : w'.state.cache.resolutions = w.state.cache.resolutions) : findingFor u w w' := by
  refine ⟨?_, fun v _ => by rw [h]⟩
  rw [keeping, h]
  exact .refl _

/-- Asking for candidates comes to what it may, with nothing found for the URL until then. -/
theorem comesTo_probeAll (c : Config) (u : Url) (cs : List Url) (qs : List Request)
    {w : World Session ω} (hw : w.state.cache.resolutions.get? u = none) :
    (Resolver.probeAll c (fun e => Task.act (Session.report e)) u cs).Keeps server (leaving u)
      (findingFor u)
      (fun r qs' w' => w'.state.cache.resolutions.get? u = none ∧ ∃ asked answers,
        qs' = qs ++ asked.map (Resolver.probe c) ∧ Resolver.ComesTo c u cs asked answers r)
      qs w := by
  -- the induction is on the candidates that are still to be asked for: others leave the URL alone,
  -- so that nothing is found for it between two of them
  induction cs generalizing qs w with
  | nil =>
    refine Task.keeps_bind (Task.keeps_act (findingFor_of_eq rfl) fun w₁ hw₁ => ?_)
    exact ⟨(get?_of_leaving hw₁).trans hw, [], [], (List.append_nil qs).symm,
      Resolver.comesTo_nil c u⟩
  | cons t cs ih =>
    refine Task.keeps_bind (Task.keeps_ask (findingFor_of_eq rfl) fun w₁ hw₁ => ?_)
    have hnone : w₁.state.cache.resolutions.get? u = none := (get?_of_leaving hw₁).trans hw
    cases hbody : (World.ask server (Resolver.probe c t) w).1.moduleBody? with
    | some body =>
      refine Task.keeps_bind (Task.keeps_act (findingFor_of_eq rfl) fun w₂ hw₂ => ?_)
      exact ⟨(get?_of_leaving hw₂).trans hnone, [t], [_], rfl,
        Resolver.comesTo_cons_of_some hbody t cs⟩
    | none =>
      refine Task.keeps_bind (Task.keeps_act (findingFor_of_eq rfl) fun w₂ hw₂ => ?_)
      refine (ih _ ((get?_of_leaving hw₂).trans hnone)).imp fun r qs' _ hr => ?_
      obtain ⟨hnone', asked, answers, rfl, hcomes⟩ := hr
      refine ⟨hnone', t :: asked, _ :: answers, ?_, Resolver.comesTo_cons_of_none hbody t hcomes⟩
      rw [List.append_assoc]
      rfl

/-- Looking for an extension asks for candidates, and remembers what is found. -/
theorem comesTo_infer (l : Loader) {u : Url} {w : World Session ω}
    (hw : w.state.cache.resolutions.get? u = none) :
    (l.infer u).Keeps server (leaving u) (findingFor u)
      (fun _ qs w' => ∃ asked answers r, qs = asked.map (Resolver.probe l.config) ∧
        Resolver.ComesTo l.config u (Resolver.candidates l.config u) asked answers r ∧
        w'.state.cache.resolutions.get? u = some r.url) [] w := by
  refine Task.keeps_bind ((comesTo_probeAll l.config u _ [] hw).imp fun r qs w₁ hr => ?_)
  obtain ⟨hnone, asked, answers, rfl, hcomes⟩ := hr
  have hinsert : findingFor u w₁ { w₁ with state :=
      (Session.remember (fun c => ((), c.insertResolution u r.url)) w₁.state).2 } :=
    ⟨Memo.extends_insert _ u r.url, fun v hv => Memo.get?_insert_of_ne _ u v r.url hv⟩
  refine Task.keeps_bind (Task.keeps_act hinsert fun w₂ hw₂ => ?_)
  have hfound : w₂.state.cache.resolutions.get? u = some r.url := by
    refine (get?_of_leaving hw₂).trans ?_
    change (w₁.state.cache.resolutions.insert u r.url).get? u = _
    rw [Memo.get?_insert_self, hnone]
    rfl
  cases r.source with
  | some body =>
    refine Task.keeps_act (findingFor_of_eq rfl) fun w₃ hw₃ => ?_
    exact ⟨asked, answers, r, rfl, hcomes, (get?_of_leaving hw₃).trans hfound⟩
  | none => exact ⟨asked, answers, r, rfl, hcomes, hfound⟩

/-- What the searches of a wave have come to, each with the candidates that it has asked for. -/
theorem exists_found {β : Type} {requested : List Url} {results : List (β × List Request)}
    (h : List.Forall₂ (fun u (r : β × List Request) =>
      ∃ asked answers resolution, r.2 = asked.map (Resolver.probe l.config) ∧
        Resolver.ComesTo l.config u (Resolver.candidates l.config u) asked answers resolution ∧
        w.state.cache.resolutions.get? u = some resolution.url) requested results) :
    ∃ found : List (Url × List Url), found.map Prod.fst = requested ∧
      results.flatMap Prod.snd = found.flatMap (fun e => e.2.map (Resolver.probe l.config)) ∧
      ∀ e ∈ found, ∃ answers resolution, Resolver.ComesTo l.config e.1
        (Resolver.candidates l.config e.1) e.2 answers resolution ∧
          w.state.cache.resolutions.get? e.1 = some resolution.url := by
  induction h with
  | nil => exact ⟨[], rfl, rfl, by simp⟩
  | @cons u r requested results hu _ ih =>
    obtain ⟨found, hurls, hasked, hfound⟩ := ih
    obtain ⟨asked, answers, resolution, hr, hcomes⟩ := hu
    refine ⟨(u, asked) :: found, by rw [List.map_cons, hurls], ?_, ?_⟩
    · rw [List.flatMap_cons, List.flatMap_cons, hr, hasked]
    · exact List.forall_mem_cons.2 ⟨⟨answers, resolution, hcomes⟩, hfound⟩

/-- Looking for the extensions of different URLs, for which nothing has been found, looks for each
of them once. -/
theorem probes_infer {w₀ : World Session ω} {requested : List Url} (hr : requested.Nodup)
    (hnew : ∀ u ∈ requested, u.hasExtension = false ∧
      w.state.cache.resolutions.contains u = false)
    (h : l.HasProbed w₀ w) :
    (Op.together (requested.map l.infer)).Keeps server (fun _ _ => True)
      (fun _ w' => l.HasProbed w₀ w') w := by
  have hnone : ∀ u ∈ requested, w.state.cache.resolutions.get? u = none :=
    fun u hu => Memo.contains_eq_false_iff.1 (hnew u hu).2
  -- the URLs are different, and so no task finds anything for the URL of another
  have hsuits : requested.Pairwise fun u v =>
      (∀ w₁ w₂ : World Session ω, findingFor u w₁ w₂ → leaving v w₁ w₂) ∧
        ∀ w₁ w₂ : World Session ω, findingFor v w₁ w₂ → leaving u w₁ w₂ := by
    refine List.Pairwise.imp (fun huv => ?_) hr
    exact ⟨fun _ _ h => h.2 _ (Ne.symm huv), fun _ _ h => h.2 _ huv⟩
  refine Op.keeps_together_apart keeping leaving findingFor l.infer _ (fun _ _ _ => trivial)
    (fun _ _ _ _ h => h.1) hsuits
    (fun u hu w₁ hw₁ => comesTo_infer l ((get?_of_leaving hw₁).trans (hnone u hu)))
    fun results w₁ hw₁ hpost hperm => ?_
  obtain ⟨found, hurls, hasked, hfound⟩ := exists_found hpost
  obtain ⟨before, hbefore⟩ := h
  refine ⟨before ++ found, hbefore.trans ?_⟩
  have hprobes : (results.flatMap Prod.snd).filter Request.isProbe = results.flatMap Prod.snd := by
    rw [List.filter_eq_self, hasked]
    intro q hq
    obtain ⟨e, -, hq⟩ := List.mem_flatMap.1 hq
    obtain ⟨t, -, rfl⟩ := List.mem_map.1 hq
    rfl
  have hurl : ∀ e ∈ found, e.1 ∈ requested := by
    intro e he
    rw [← hurls]
    exact List.mem_map_of_mem he
  exact
    { nodup := hurls ▸ hr
      new := fun e he => hnew e.1 (hurl e he)
      searched := hfound
      probes := by
        have hfiltered := hperm.filter Request.isProbe
        rwa [List.filter_append, hprobes, hasked] at hfiltered
      kept := extends_of_keeping hw₁ }

/-- Scanning modules asks for sources. -/
theorem asksForSources_scan (l : Loader) (batch : List Url) (w : World Session ω) :
    (Op.together (batch.map l.scanModule)).Keeps server AsksForSources (fun _ _ => True) w := by
  refine Op.keeps_together (l.Inquires (fun _ _ => True) fun q => q.purpose = .source) batch
    l.scanModule (fun _ _ _ _ => True) (fun _ _ => .of_inquires) (fun m _ w₁ _ => ?_)
    fun _ _ _ _ _ => trivial
  have hmay : (fun q : Request => q.purpose = .source) ⟨m, .source⟩ := rfl
  exact (inquires_scanModule server.says_something hmay w₁).imp fun _ _ _ _ => trivial

/-! ## Calls -/

/-- A wave looks for extensions, for no URL twice. -/
theorem probes_wave {w₀ : World Session ω} (waves : Nat) (d : Discovery)
    (h : l.HasProbed w₀ w) :
    (l.wave waves d).Keeps server (fun _ _ => True) (fun _ w' => l.HasProbed w₀ w') w := by
  have hreport : l.HasProbed w₀ { w with
      state := (Session.report (.discovering waves d.pending.length) w.state).2 } :=
    h.asksForSources (.of_extends (.refl _))
  refine Op.keeps_bind (Op.keeps_act trivial ?_)
  refine Op.keeps_bind ((hreport.keeps (asksForSources_scan l d.pending _)).imp
    fun scans w₁ h₁ => ?_)
  refine Op.keeps_bind (Op.keeps_act trivial ?_)
  refine Op.keeps_bind ((probes_infer (nodup_unresolved _ _)
    (fun u hu => (mem_unresolved.1 hu).2) h₁).imp fun _ w₂ h₂ => ?_)
  exact Op.keeps_act trivial (h₂.asksForSources (.of_extends (.refl _)))

/-- A discovery looks for extensions, for no URL twice. -/
theorem probes_discover {w₀ : World Session ω} (limit waves : Nat) (d : Discovery)
    (h : l.HasProbed w₀ w) :
    (l.discover limit waves d).Keeps server (fun _ _ => True)
      (fun _ w' => l.HasProbed w₀ w') w :=
  (keeps_discover_of_wave (fun _ w => l.HasProbed w₀ w)
    (fun waves d _ h _ => probes_wave waves d h) limit waves h).imp fun _ _ ⟨_, h, _⟩ => h

/-- Building a graph looks for extensions, for no URL twice. -/
theorem probes_buildGraph {w₀ : World Session ω} (limit : Nat) (entry : Url)
    (h : l.HasProbed w₀ w) :
    (l.buildGraph limit entry).Keeps server (fun _ _ => True)
      (fun _ w' => l.HasProbed w₀ w') w := by
  unfold buildGraph
  refine Op.keeps_look trivial ?_
  cases w.state.cache.graphs.get? entry with
  | some g =>
    refine Op.keeps_bind (Op.keeps_act trivial ?_)
    exact h.asksForSources (.of_extends (.refl _))
  | none =>
    refine Op.keeps_bind ((probes_discover limit 0 (.start entry) h).imp ?_)
    intro (graph, waves) w₁ h₁
    refine Op.keeps_bind (Op.keeps_act trivial ?_)
    exact Op.keeps_act trivial (h₁.asksForSources (.of_extends (.refl _)))

/-- A load looks for extensions, for no URL twice. -/
theorem probes_loadModule {w₀ : World Session ω} (limit : Nat) (url : Url)
    (h : l.HasProbed w₀ w) :
    (l.loadModule limit url).Keeps server (fun _ _ => True)
      (fun _ w' => l.HasProbed w₀ w') w := by
  unfold loadModule
  refine Op.keeps_look trivial ?_
  cases w.state.cache.modules.get? url with
  | some m =>
    refine Op.keeps_bind (Op.keeps_act trivial ?_)
    exact h.asksForSources (.of_extends (.refl _))
  | none =>
    refine Op.keeps_bind ((probes_buildGraph limit url h).imp fun g w₁ h₁ => ?_)
    exact h₁.keeps (asksForSources_finish l url g w₁)

/-- Every call but the one that forgets everything looks for extensions, for no URL twice. -/
theorem probes_perform {w₀ : World Session ω} {c : Call} (hc : c ≠ .cleanup)
    (h : l.HasProbed w₀ w) :
    (l.perform c).Keeps server (fun _ _ => True) (fun _ w' => l.HasProbed w₀ w') w := by
  cases c with
  | load limit entry =>
    refine Op.keeps_bind ?_
    unfold load
    cases Url.parse entry with
    | error e => exact h
    | ok url => exact probes_loadModule limit url h
  | loadModule limit url => exact Op.keeps_bind (probes_loadModule limit url h)
  | buildGraph limit entry => exact Op.keeps_bind (probes_buildGraph limit entry h)
  | fetchSource url =>
    have hfetch : (Op.one (fetchSource url)).Keeps server AsksForSources (fun _ _ => True) w :=
      Op.keeps_one ((asksForSources_fetchSource url [] w).imp fun _ _ _ _ _ => trivial)
    exact Op.keeps_bind (h.keeps hfetch)
  | compileModules order =>
    exact h.keeps (asksForSources_compileModules l order w)
  | importCompiled url =>
    refine Op.keeps_bind (Op.keeps_act trivial ?_)
    exact h.asksForSources (.of_extends (imports_importCompiled url w.state).resolutions)
  | cleanup => exact absurd rfl hc

/-- Calls, one after the other, look for extensions, for no URL twice. -/
theorem probes_performAll {w₀ : World Session ω} {calls : List Call}
    (hc : ∀ c ∈ calls, c ≠ .cleanup) (h : l.HasProbed w₀ w) :
    (l.performAll calls).Keeps server (fun _ _ => True) (fun _ w' => l.HasProbed w₀ w') w := by
  induction calls generalizing w with
  | nil => exact h
  | cons c calls ih =>
    rw [List.forall_mem_cons] at hc
    exact Op.keeps_bind ((probes_perform hc.1 h).imp fun _ _ h₁ => ih hc.2 h₁)

/-! ## Searches and runs -/

/-- Whatever the answers of a server are, the search for an extension asks for just the candidates
in their order up to the first whose answer is a module, and comes to that with the body of the
answer; if there is none, it has asked for all and comes to the fallback. The body is what fetching
the source comes to when it gets the same answer. Between two times that everything is forgotten,
calls look for the extension of no URL twice, and ask for no candidates but those that this takes:
what is found is remembered, and what has been found is not looked for. What a load does once it has
the graph asks for sources alone. -/
theorem probed_in_order_once (l : Loader) (server : Server ω) :
    (∀ (u : Url) (w : World Session ω), ∃ asked answers,
      ((Resolver.infer l.config (fun e => Task.act (Session.report e)) u).run server
        w).2.requests = w.requests ++ asked.map (Resolver.probe l.config) ∧
      (asked.map (Resolver.probe l.config)).mapM server w.server =
        (answers, ((Resolver.infer l.config (fun e => Task.act (Session.report e)) u).run server
          w).2.server) ∧
      Resolver.ComesTo l.config u (Resolver.candidates l.config u) asked answers
        ((Resolver.infer l.config (fun e => Task.act (Session.report e)) u).run server w).1) ∧
    (∀ (t : Url) (a : Answer) (body : String) (w : World Session ω),
      w.state.cache.sources.get? t = none → (World.ask server ⟨t, .source⟩ w).1 = a →
        (a.moduleBody? = some body ↔ ((fetchSource t).run server w).1 = .ok body)) ∧
    (∀ (calls : List Call) (w w' : World Session ω), (∀ c ∈ calls, c ≠ .cleanup) →
      Op.Steps server (l.performAll calls, w) (.done (), w') →
        ∃ found, l.Probes w w' found) ∧
    ∀ (url : Url) (g : Graph) (op : Op Session (Except Failure Module)) (w w' : World Session ω),
      Op.Steps server (l.finish url g, w) (op, w') → AsksForSources w w' := by
  refine ⟨fun u w => Resolver.run_infer l.config server Session.report u w, ?_, ?_, ?_⟩
  · rintro t a body w hnew rfl
    rw [Answer.moduleBody?_eq_some_iff _ t, run_fetchSource_of_none hnew]
    cases (World.ask server ⟨t, .source⟩ w).1.source t <;> rfl
  · intro calls w w' hc hsteps
    exact ((probes_performAll hc (.refl l w)).steps hsteps).2
  · intro url g op w w' hsteps
    exact .of_steps ((asksForSources_finish l url g w).steps hsteps).1

end Loader

end ModuleLoader
