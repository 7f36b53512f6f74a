import ModuleLoader.Proofs.Loader.Learning
import ModuleLoader.Proofs.Loader.Requests
import ModuleLoader.Proofs.Loader.Termination

/-! # The order of answers

The tasks of a wave do not get into each other's way: each fetches the source of a module of its
own, or finds what a URL of its own stands for. So a server that always answers a URL the same way
decides what a wave leaves behind, and with it the whole discovery, in whatever order its answers
come.

* **`Session.KnowsSame`** is two states in which the same is remembered.
* **`Loader.scans_of_steps`** and **`Loader.searches_of_steps`** say what the two stages of a wave
  come to in any order.
* **`Loader.agree_of_buildGraph`** says that a graph is built in the same way in any order. -/

namespace ModuleLoader

open Relation

variable {ω : Type} {server : Server ω} {f : Url → Answer}

/-! ## The same knowledge -/

/-- The same is remembered of every URL, but for the modules that have been imported. -/
structure Session.KnowsSame (s s' : Session) : Prop where
  /-- The sources are the same. -/
  sources : ∀ u, s.cache.sources.get? u = s'.cache.sources.get? u
  /-- URLs without extension stand for the same. -/
  resolutions : ∀ u, s.cache.resolutions.get? u = s'.cache.resolutions.get? u
  /-- The same came of compiling modules. -/
  compiled : s.cache.compiled = s'.cache.compiled
  /-- The graphs are the same. -/
  graphs : s.cache.graphs = s'.cache.graphs

/-- A state knows the same as itself. -/
theorem Session.KnowsSame.refl (s : Session) : s.KnowsSame s :=
  ⟨fun _ => rfl, fun _ => rfl, rfl, rfl⟩

/-- The same is remembered, and the same requests have been sent, in whatever order. -/
structure World.Agrees (w w' : World Session ω) : Prop where
  /-- The same is remembered. -/
  state : w.state.KnowsSame w'.state
  /-- The requests are the same. -/
  requests : w.requests.Perm w'.requests

/-- A world agrees with itself. -/
theorem World.Agrees.refl (w : World Session ω) : w.Agrees w := ⟨.refl _, .refl _⟩

/-- Worlds agree still when the same is remembered next. -/
theorem World.Agrees.of_knowsSame {w w' : World Session ω} (h : w.Agrees w') {s s' : Session}
    (hs : s.KnowsSame s') : World.Agrees { w with state := s } { w' with state := s' } :=
  ⟨hs, h.requests⟩

namespace Loader

variable {l : Loader} {s s' t t' : Session}

/-! ## Scanning the modules of a wave -/

/-- The source of a module that a fetch finds: the one that is remembered, or else what is
answered. -/
def sourceFrom (f : Url → Answer) (s : Session) (m : Url) : Option String :=
  (s.cache.sources.get? m).or (f m).moduleBody?

/-- What a module is found to import; nothing if it has no source. -/
def importsFrom (l : Loader) (f : Url → Answer) (s : Session) (m : Url) : List (Url × Bool) :=
  ((sourceFrom f s m).map (l.importsIn m)).getD []

/-- The requests that fetching a source takes. -/
def fetchesFrom (s : Session) (m : Url) : List Request :=
  if s.cache.sources.contains m then [] else [⟨m, .source⟩]

/-- What fetching the sources of some modules does: nothing is learnt but these. -/
structure FetchesIn (ms : List Url) (s s' : Session) : Prop extends s.Searches s' where
  /-- No URL is resolved. -/
  sameResolutions : s'.cache.resolutions = s.cache.resolutions
  /-- The other sources are what they were. -/
  elsewhere : ∀ u, u ∉ ms → s'.cache.sources.get? u = s.cache.sources.get? u

namespace FetchesIn

variable {ms : List Url} {m : Url}

/-- Doing nothing fetches nothing. -/
theorem refl (ms : List Url) (s : Session) : FetchesIn ms s s :=
  ⟨.refl s, rfl, fun _ _ => rfl⟩

/-- Fetching twice is fetching. -/
theorem trans {s'' : Session} (h : FetchesIn ms s s') (h' : FetchesIn ms s' s'') :
    FetchesIn ms s s'' where
  toSearches := h.toSearches.trans h'.toSearches
  sameResolutions := h'.sameResolutions.trans h.sameResolutions
  elsewhere := fun u hu => (h'.elsewhere u hu).trans (h.elsewhere u hu)

/-- The source of one of some modules is fetched. -/
theorem of_mem (h : FetchesIn [m] s s') (hm : m ∈ ms) : FetchesIn ms s s' where
  toSearches := h.toSearches
  sameResolutions := h.sameResolutions
  elsewhere := fun u hu => h.elsewhere u fun hmem => hu (List.mem_singleton.1 hmem ▸ hm)

/-- Reporting something fetches nothing. -/
theorem report (ms : List Url) (e : Event) (s : Session) :
    FetchesIn ms s (Session.report e s).2 :=
  ⟨Session.searches_report e s, rfl, fun _ _ => rfl⟩

/-- Remembering the source of a module fetches it. -/
theorem insertSource (m : Url) (text : String) (s : Session) :
    FetchesIn [m] s (Session.remember (fun c => c.insertSource m text) s).2 where
  toSearches := Session.searches_insertSource m text s
  sameResolutions := rfl
  elsewhere := fun u hu =>
    Memo.get?_insert_of_ne s.cache.sources m u text (mt List.mem_singleton.2 hu)

/-- Scanning a source fetches nothing. -/
theorem scanSource (l : Loader) (ms : List Url) (m : Url) (source : String) (s : Session) :
    FetchesIn ms s (l.scanSource m source s).2 where
  toSearches := (searches_scanSource l m source s).2
  sameResolutions := by rw [cache_scanSource]
  elsewhere := fun u _ => by rw [cache_scanSource]

end FetchesIn

/-- What fetching the sources of some modules promises. -/
def fetching (ms : List Url) (w w' : World Session ω) : Prop := FetchesIn ms w.state w'.state

/-- What fetching the source of a module counts on: that others do not. -/
def sparing (m : Url) (w w' : World Session ω) : Prop :=
  w'.state.cache.sources.get? m = w.state.cache.sources.get? m

/-- Fetching for some steps is fetching. -/
theorem fetchesIn_of_fetching {ms : List Url} {w w' : World Session ω}
    (h : ReflTransGen (fetching ms) w w') : FetchesIn ms w.state w'.state := by
  induction h with
  | refl => exact .refl ms _
  | tail _ h ih => exact ih.trans h

/-- A source that is spared for some steps is what it was. -/
theorem sources_of_sparing {m : Url} {w w' : World Session ω}
    (h : ReflTransGen (sparing m) w w') :
    w'.state.cache.sources.get? m = w.state.cache.sources.get? m := by
  induction h with
  | refl => rfl
  | tail _ h ih => exact h.trans ih

/-- Fetching a source finds the one that is remembered, or else what is answered, and asks for it
only then. -/
theorem fetches_fetchSource (hf : server.AnswersBy f) (m : Url) (w : World Session ω) :
    (fetchSource m).Keeps server (sparing m) (fetching [m])
      (fun r qs w' => r.toOption = sourceFrom f w.state m ∧ qs = fetchesFrom w.state m ∧
        w'.state.cache.sources.get? m = sourceFrom f w.state m) [] w := by
  unfold fetchSource
  refine Task.keeps_look (.refl [m] _) fun w₁ hw₁ => ?_
  have hsame := sources_of_sparing hw₁
  cases hsource : w.state.cache.sources.get? m with
  | some source =>
    rw [hsource] at hsame
    have hfrom : sourceFrom f w.state m = some source := by rw [sourceFrom, hsource, Option.some_or]
    have hnone : fetchesFrom w.state m = [] := by
      rw [fetchesFrom, if_pos (by rw [Memo.contains, hsource, Option.isSome_some])]
    exact ⟨hfrom.symm, hnone.symm, hsame.trans hfrom.symm⟩
  | none =>
    rw [hsource] at hsame
    have hfrom : sourceFrom f w.state m = (f m).moduleBody? := by
      rw [sourceFrom, hsource, Option.none_or]
    -- the others spare this source, so that it is still missing when the answer comes
    have hask : fetchesFrom w.state m = [⟨m, .source⟩] := by
      rw [fetchesFrom, if_neg (by rw [Memo.contains, hsource]; exact Bool.false_ne_true)]
    refine Task.keeps_bind (Task.keeps_ask (.refl [m] _) fun w₂ hw₂ => ?_)
    have hsame₂ : w₂.state.cache.sources.get? m = none := (sources_of_sparing hw₂).trans hsame
    rw [hf.ask]
    cases hanswer : (f m).source m with
    | error e =>
      have hbody : (f m).moduleBody? = none := Answer.moduleBody?_of_source_error hanswer
      rw [hfrom, hbody, hask]
      exact ⟨rfl, rfl, hsame₂⟩
    | ok text =>
      have hbody : (f m).moduleBody? = some text :=
        (Answer.moduleBody?_eq_some_iff _ m text).2 hanswer
      refine Task.keeps_map (Task.keeps_act (FetchesIn.insertSource m text _) fun w₃ hw₃ => ?_)
      have hget : (w₂.state.cache.sources.insert m text).get? m = some text := by
        rw [Memo.get?_insert_self, hsame₂]
        rfl
      rw [hfrom, hbody, hask]
      refine ⟨?_, rfl, (sources_of_sparing hw₃).trans hget⟩
      change some (((w₂.state.cache.sources.insert m text).get? m).getD text) = some text
      rw [hget]
      rfl

/-- Scanning a module finds its imports in the source that a fetch finds. -/
theorem fetches_scanModule (hf : server.AnswersBy f) (m : Url) (w : World Session ω) :
    (l.scanModule m).Keeps server (sparing m) (fetching [m])
      (fun imports qs w' => imports = l.importsFrom f w.state m ∧ qs = fetchesFrom w.state m ∧
        w'.state.cache.sources.get? m = sourceFrom f w.state m) [] w := by
  unfold scanModule
  refine Task.keeps_bind ((fetches_fetchSource hf m w).imp fun r qs w₁ hr => ?_)
  obtain ⟨hsource, hqs, hsame⟩ := hr
  cases r with
  | ok source =>
    have himports := (searches_scanSource l m source w₁.state).1
    have hscan := FetchesIn.scanSource l [m] m source w₁.state
    refine Task.keeps_act hscan fun w₂ hw₂ => ⟨?_, hqs, ?_⟩
    · rw [himports, importsFrom, ← hsource]
      rfl
    · rw [sources_of_sparing hw₂, ← hsame, cache_scanSource]
  | error e =>
    refine Task.keeps_bind (Task.keeps_act (FetchesIn.report [m] _ _) fun w₂ hw₂ => ⟨?_, hqs, ?_⟩)
    · rw [importsFrom, ← hsource]
      rfl
    · exact (sources_of_sparing hw₂).trans hsame

/-- Results that are decided by their keys are those of the keys. -/
theorem eq_map_of_forall₂ {κ β : Type} {p : κ → Prop} {g : κ → β} {keys : List κ}
    {results : List β} (h : List.Forall₂ (fun k r => p k ∧ g k = r) keys results) :
    (∀ k ∈ keys, p k) ∧ keys.map g = results := by
  obtain ⟨hp, heq⟩ := (List.forall₂_and_left _ _).1 h
  refine ⟨hp, ?_⟩
  rw [← List.forall₂_map_left_iff (R := fun b r => b = r), List.forall₂_eq_eq_eq] at heq
  exact heq

/-- What scanning the modules of a wave leaves behind. -/
structure ScansAll (f : Url → Answer) (ms : List Url) (s s' : Session) : Prop
    extends FetchesIn ms s s' where
  /-- The sources of the modules are as they are found. -/
  found : ∀ m ∈ ms, s'.cache.sources.get? m = sourceFrom f s m

/-- However the answers for a wave come, its modules are found to import the same, the same sources
are remembered, and the same requests are sent. -/
theorem scans_of_steps (hf : server.AnswersBy f) {ms : List Url} (hms : ms.Nodup)
    {w w' : World Session ω} {scans : List (List (Url × Bool))}
    (h : Op.Steps server (Op.together (ms.map l.scanModule), w) (.done scans, w')) :
    scans = ms.map (l.importsFrom f w.state) ∧ ScansAll f ms w.state w'.state ∧
      w'.requests.Perm (w.requests ++ ms.flatMap (fetchesFrom w.state)) := by
  have hkeeps : (Op.together (ms.map l.scanModule)).Keeps server (fetching ms)
      (fun scans w' => scans = ms.map (l.importsFrom f w.state) ∧
        ScansAll f ms w.state w'.state ∧
        w'.requests.Perm (w.requests ++ ms.flatMap (fetchesFrom w.state))) w := by
    refine Op.keeps_together_apart (fetching ms) sparing (fun m => fetching [m]) l.scanModule
      (fun m imports qs w' => imports = l.importsFrom f w.state m ∧ qs = fetchesFrom w.state m ∧
        w'.state.cache.sources.get? m = sourceFrom f w.state m)
      (fun _ _ h => h) (fun m hm _ _ h => FetchesIn.of_mem h hm) ?_ ?_ ?_
    -- two tasks of the wave fetch the sources of different modules
    · refine hms.imp fun {m m'} hne => ⟨fun w₁ w₂ h => ?_, fun w₁ w₂ h => ?_⟩
      · exact h.elsewhere m' fun hmem => hne (List.mem_singleton.1 hmem).symm
      · exact h.elsewhere m fun hmem => hne (List.mem_singleton.1 hmem)
    -- a task that starts late starts with the source that the wave started with
    · intro m _ w₁ hw₁
      have hsame := sources_of_sparing hw₁
      have hkeeps := fetches_scanModule (l := l) hf m w₁
      simp only [importsFrom, fetchesFrom, sourceFrom, Memo.contains, hsame] at hkeeps ⊢
      exact hkeeps
    · intro results w₁ hw₁ hresults hrequests
      obtain ⟨hfound, rfl⟩ := eq_map_of_forall₂
        (p := fun m => w₁.state.cache.sources.get? m = sourceFrom f w.state m)
        (g := fun m => (l.importsFrom f w.state m, fetchesFrom w.state m))
        (hresults.imp fun m r hr => ⟨hr.2.2, Prod.ext hr.1.symm hr.2.1.symm⟩)
      refine ⟨by rw [List.map_map]; rfl, ⟨fetchesIn_of_fetching hw₁, hfound⟩, ?_⟩
      rw [List.flatMap_map] at hrequests
      exact hrequests
  exact (hkeeps.steps h).2

/-! ## Resolving what a wave imports -/

/-- The candidate for a URL without extension that is found to be a module, if there is one. -/
def found? (l : Loader) (f : Url → Answer) (u : Url) : Option Url :=
  (Resolver.candidates l.config u).find? (Resolver.isModuleAt f)

/-- A URL without extension stands for the module that is found for it. -/
theorem standsFor_of_found? {u t : Url} (h : l.found? f u = some t) :
    Resolver.standsFor l.config f u = t := by
  change (l.found? f u).getD _ = t
  rw [h]
  rfl

/-- What is found for a URL without extension has the body of a module. -/
theorem exists_moduleBody?_of_found? {u t : Url} (h : l.found? f u = some t) :
    ∃ body, (f t).moduleBody? = some body :=
  Option.isSome_iff_exists.1 (List.find?_some (p := Resolver.isModuleAt f) h)

/-- The requests that it takes to find what a URL without extension stands for. -/
def probesFrom (l : Loader) (f : Url → Answer) (u : Url) : List Request :=
  (Resolver.asked f (Resolver.candidates l.config u)).map (Resolver.probe l.config)

/-- What finding what some URLs stand for does: nothing is learnt but that, and the sources of the
modules that are found. -/
structure FindsIn (l : Loader) (f : Url → Answer) (us : List Url) (s s' : Session) : Prop
    extends s.Searches s' where
  /-- A new resolution is of one of the URLs, and is what that stands for. -/
  resolved : ∀ u, s'.cache.resolutions.get? u = s.cache.resolutions.get? u ∨
    u ∈ us ∧ s.cache.resolutions.get? u = none ∧
      s'.cache.resolutions.get? u = some (Resolver.standsFor l.config f u)
  /-- A new source is of a module that is found for one of the URLs. -/
  sourced : ∀ v, s'.cache.sources.get? v = s.cache.sources.get? v ∨
    (∃ u ∈ us, l.found? f u = some v) ∧ s.cache.sources.get? v = none ∧
      s'.cache.sources.get? v = (f v).moduleBody?

namespace FindsIn

variable {us : List Url} {u : Url}

/-- Searching that remembers no source and no resolution finds nothing. -/
theorem of_searches (h : s.Searches s') (hsources : s'.cache.sources = s.cache.sources)
    (hresolutions : s'.cache.resolutions = s.cache.resolutions) : l.FindsIn f us s s' :=
  ⟨h, fun _ => .inl (by rw [hresolutions]), fun _ => .inl (by rw [hsources])⟩

/-- Finding twice is finding. -/
theorem trans {s'' : Session} (h : l.FindsIn f us s s') (h' : l.FindsIn f us s' s'') :
    l.FindsIn f us s s'' where
  toSearches := h.toSearches.trans h'.toSearches
  resolved := by
    intro u
    rcases h.resolved u with hsame | ⟨hu, hnone, hnew⟩
    · rw [← hsame]
      exact h'.resolved u
    · exact .inr ⟨hu, hnone, h'.resolutions u _ hnew⟩
  sourced := by
    intro v
    rcases h.sourced v with hsame | ⟨hv, hnone, hnew⟩
    · rw [← hsame]
      exact h'.sourced v
    -- a source that is new is the body of the answer, and it is not written twice
    · rcases h'.sourced v with hsame' | ⟨-, -, hnew'⟩
      · exact .inr ⟨hv, hnone, hsame'.trans hnew⟩
      · exact .inr ⟨hv, hnone, hnew'⟩

/-- Remembering what one of the URLs stands for is finding. -/
theorem insertResolution (hu : u ∈ us) (s : Session) :
    l.FindsIn f us s (Session.remember (fun c =>
      ((), c.insertResolution u (Resolver.standsFor l.config f u))) s).2 where
  toSearches := Session.searches_insertResolution u _ s
  resolved := by
    intro v
    by_cases hv : v = u
    · subst hv
      cases hold : s.cache.resolutions.get? v with
      | some t => exact .inl ((Memo.extends_insert s.cache.resolutions v _) v t hold)
      | none =>
        refine .inr ⟨hu, rfl, ?_⟩
        change (s.cache.resolutions.insert v _).get? v = _
        rw [Memo.get?_insert_self, hold]
        rfl
    · exact .inl (Memo.get?_insert_of_ne s.cache.resolutions u v _ hv)
  sourced := fun _ => .inl rfl

/-- Remembering the source of a module that is found for one of the URLs is finding. -/
theorem insertSource (hu : u ∈ us) {t : Url} (ht : l.found? f u = some t) {text : String}
    (htext : (f t).moduleBody? = some text) (s : Session) :
    l.FindsIn f us s (Session.remember (fun c => ((), (c.insertSource t text).2)) s).2 where
  toSearches := Session.searches_insertSource t text s
  resolved := fun _ => .inl rfl
  sourced := by
    intro v
    by_cases hv : v = t
    · subst hv
      cases hold : s.cache.sources.get? v with
      | some body => exact .inl ((Memo.extends_insert s.cache.sources v text) v body hold)
      | none =>
        refine .inr ⟨⟨u, hu, ht⟩, rfl, ?_⟩
        change (s.cache.sources.insert v text).get? v = _
        rw [Memo.get?_insert_self, hold, htext]
        rfl
    · exact .inl (Memo.get?_insert_of_ne s.cache.sources t v text hv)

end FindsIn

/-- What finding what some URLs stand for promises. -/
def finding (l : Loader) (f : Url → Answer) (us : List Url) (w w' : World Session ω) : Prop :=
  l.FindsIn f us w.state w'.state

/-- Finding for some steps is finding. -/
theorem findsIn_of_finding {us : List Url} {w w' : World Session ω}
    (h : ReflTransGen (l.finding f us) w w') : l.FindsIn f us w.state w'.state := by
  induction h with
  | refl => exact .of_searches (.refl _) rfl rfl
  | tail _ h ih => exact ih.trans h

/-- Finding what a URL stands for asks for its candidates up to the first that is a module. In the
end it is remembered what the URL stands for, and the source of the module that is found. -/
theorem finds_infer (hf : server.AnswersBy f) {us : List Url} {u : Url} (hu : u ∈ us)
    (w : World Session ω) :
    (l.infer u).Keeps server (l.finding f us) (l.finding f us)
      (fun _ qs w' => qs = l.probesFrom f u ∧ w'.state.cache.resolutions.contains u = true ∧
        ∀ t, l.found? f u = some t → w'.state.cache.sources.contains t = true) [] w := by
  have hreport : ∀ (e : Event) (w : World Session ω),
      l.finding f us w { w with state := (Session.report e w.state).2 } :=
    fun e w => .of_searches (Session.searches_report e w.state) rfl rfl
  refine Task.keeps_bind ((asks_probeAll hf hreport (fun _ _ => .of_searches (.refl _) rfl rfl)
    l.config u _ [] w).imp fun r qs w₁ hr => ?_)
  obtain ⟨hurl, hsource, hqs⟩ := hr
  have hstands : r.url = Resolver.standsFor l.config f u := hurl
  have hbody : r.source = (l.found? f u).bind fun t => (f t).moduleBody? := hsource
  rw [hstands]
  refine Task.keeps_bind (Task.keeps_act (FindsIn.insertResolution hu _) fun w₂ hw₂ => ?_)
  have hresolved : w₂.state.cache.resolutions.contains u = true :=
    (findsIn_of_finding hw₂).resolutions.contains
      (Memo.contains_insert w₁.state.cache.resolutions u _)
  cases hfound : l.found? f u with
  | none =>
    -- there is no module: the URL stands for the fallback, and there is no source to remember
    rw [hbody, hfound]
    exact ⟨hqs, hresolved, fun _ h => nomatch h⟩
  | some t =>
    obtain ⟨body, htext⟩ := exists_moduleBody?_of_found? hfound
    rw [hbody, hfound, Option.bind_some, htext, standsFor_of_found? hfound]
    refine Task.keeps_act (FindsIn.insertSource hu hfound htext _) fun w₃ hw₃ => ⟨hqs, ?_, ?_⟩
    · exact (findsIn_of_finding hw₃).resolutions.contains hresolved
    · rintro _ ⟨rfl⟩
      exact (findsIn_of_finding hw₃).sources.contains
        (Memo.contains_insert w₂.state.cache.sources t body)

/-- What finding what some URLs stand for leaves behind. -/
structure FindsAll (l : Loader) (f : Url → Answer) (us : List Url) (s s' : Session) : Prop
    extends l.FindsIn f us s s' where
  /-- It is known what the URLs stand for. -/
  settled : ∀ u ∈ us, s'.cache.resolutions.contains u = true
  /-- The sources of the modules that are found are remembered. -/
  found : ∀ u ∈ us, ∀ t, l.found? f u = some t → s'.cache.sources.contains t = true

/-- However the answers for the candidates come, the same is found, and the same requests are
sent. -/
theorem finds_of_steps (hf : server.AnswersBy f) {us : List Url} {w w' : World Session ω}
    {results : List Unit}
    (h : Op.Steps server (Op.together (us.map l.infer), w) (.done results, w')) :
    l.FindsAll f us w.state w'.state ∧
      w'.requests.Perm (w.requests ++ us.flatMap (l.probesFrom f)) := by
  have hkeeps : (Op.together (us.map l.infer)).Keeps server (l.finding f us)
      (fun _ w' => l.FindsAll f us w.state w'.state ∧
        w'.requests.Perm (w.requests ++ us.flatMap (l.probesFrom f))) w := by
    -- tasks may find the same module, but then they remember the same source of it
    refine Op.keeps_together (l.finding f us) us l.infer
      (fun u _ qs w' => qs = l.probesFrom f u ∧ w'.state.cache.resolutions.contains u = true ∧
        ∀ t, l.found? f u = some t → w'.state.cache.sources.contains t = true)
      (fun _ _ h => h) (fun u hu w₁ _ => finds_infer hf hu w₁) ?_
    intro results w₁ hw₁ hresults hrequests
    obtain ⟨hends, rfl⟩ := eq_map_of_forall₂
      (p := fun u => w₁.state.cache.resolutions.contains u = true ∧
        ∀ t, l.found? f u = some t → w₁.state.cache.sources.contains t = true)
      (g := fun u => ((), l.probesFrom f u))
      (hresults.imp fun u r hr => ⟨hr.2, Prod.ext rfl hr.1.symm⟩)
    refine ⟨⟨findsIn_of_finding hw₁, fun u hu => (hends u hu).1, fun u hu => (hends u hu).2⟩, ?_⟩
    rw [List.flatMap_map] at hrequests
    exact hrequests
  exact (hkeeps.steps h).2

/-! ## Agreement of two orders -/

/-- A source after scanning was there before, or is what is answered for one of the modules. -/
theorem ScansAll.sources_eq {ms : List Url} (h : ScansAll f ms s s') (u : Url) :
    s'.cache.sources.get? u =
      (s.cache.sources.get? u).or (if u ∈ ms then (f u).moduleBody? else none) := by
  by_cases hu : u ∈ ms
  · rw [if_pos hu]
    exact h.found u hu
  · rw [if_neg hu, Option.or_none]
    exact h.elsewhere u hu

/-- What a URL stands for after finding was known before, or has been found. -/
theorem FindsIn.resolutions_eq {us : List Url} (h : l.FindsIn f us s s')
    (hsettled : ∀ u ∈ us, s'.cache.resolutions.contains u = true) (u : Url) :
    s'.cache.resolutions.get? u = (s.cache.resolutions.get? u).or
      (if u ∈ us then some (Resolver.standsFor l.config f u) else none) := by
  rcases h.resolved u with hsame | ⟨hu, hnone, hnew⟩
  · by_cases hu : u ∈ us
    · have hthere := hsettled u hu
      rw [Memo.contains, hsame] at hthere
      obtain ⟨t, ht⟩ := Option.isSome_iff_exists.1 hthere
      rw [hsame, ht, Option.some_or]
    · rw [if_neg hu, Option.or_none, hsame]
  · rw [hnew, hnone, if_pos hu, Option.none_or]

/-- So it is when all of them have been found. -/
theorem FindsAll.resolutions_eq {us : List Url} (h : l.FindsAll f us s s') (u : Url) :
    s'.cache.resolutions.get? u = (s.cache.resolutions.get? u).or
      (if u ∈ us then some (Resolver.standsFor l.config f u) else none) :=
  h.toFindsIn.resolutions_eq h.settled u

/-- A source after finding was there before, or is that of a module that is found. -/
theorem FindsAll.sources_eq {us : List Url} (h : l.FindsAll f us s s') (v : Url) :
    s'.cache.sources.get? v = (s.cache.sources.get? v).or
      (if some v ∈ us.map (l.found? f) then (f v).moduleBody? else none) := by
  have hmem : some v ∈ us.map (l.found? f) ↔ ∃ u ∈ us, l.found? f u = some v := List.mem_map
  rcases h.sourced v with hsame | ⟨hv, hnone, hnew⟩
  · by_cases hv : ∃ u ∈ us, l.found? f u = some v
    · obtain ⟨u, hu, hfound⟩ := hv
      have hthere := h.found u hu v hfound
      rw [Memo.contains, hsame] at hthere
      obtain ⟨text, htext⟩ := Option.isSome_iff_exists.1 hthere
      rw [hsame, htext, Option.some_or]
    · rw [if_neg (mt hmem.1 hv), Option.or_none, hsame]
  · rw [hnew, hnone, if_pos (hmem.2 hv), Option.none_or]

/-- Two scans of a wave from the same knowledge come to the same knowledge. -/
theorem ScansAll.knowsSame {ms : List Url} (h : ScansAll f ms s s') (h' : ScansAll f ms t t')
    (hst : s.KnowsSame t) : s'.KnowsSame t' where
  sources := fun u => by rw [h.sources_eq, h'.sources_eq, hst.sources]
  resolutions := fun u => by rw [h.sameResolutions, h'.sameResolutions, hst.resolutions]
  compiled := by rw [h.sameCompiled, h'.sameCompiled, hst.compiled]
  graphs := by rw [h.sameGraphs, h'.sameGraphs, hst.graphs]

/-- Two searches from the same knowledge come to the same knowledge. -/
theorem FindsAll.knowsSame {us : List Url} (h : l.FindsAll f us s s') (h' : l.FindsAll f us t t')
    (hst : s.KnowsSame t) : s'.KnowsSame t' where
  sources := fun v => by rw [h.sources_eq, h'.sources_eq, hst.sources]
  resolutions := fun u => by rw [h.resolutions_eq, h'.resolutions_eq, hst.resolutions]
  compiled := by rw [h.sameCompiled, h'.sameCompiled, hst.compiled]
  graphs := by rw [h.sameGraphs, h'.sameGraphs, hst.graphs]

variable {w w' v v' : World Session ω}

/-- Two scans of a wave by worlds that agree, in whatever orders, find the same imports, and the
worlds agree then. -/
theorem agree_of_scans (hf : server.AnswersBy f) {ms : List Url} (hms : ms.Nodup)
    (h : w.Agrees v) {scans scans' : List (List (Url × Bool))}
    (hw : Op.Steps server (Op.together (ms.map l.scanModule), w) (.done scans, w'))
    (hv : Op.Steps server (Op.together (ms.map l.scanModule), v) (.done scans', v')) :
    scans = scans' ∧ w'.Agrees v' := by
  obtain ⟨rfl, hscans, hrequests⟩ := scans_of_steps hf hms hw
  obtain ⟨rfl, hscans', hrequests'⟩ := scans_of_steps hf hms hv
  have himports : l.importsFrom f w.state = l.importsFrom f v.state := by
    funext m
    rw [importsFrom, importsFrom, sourceFrom, sourceFrom, h.state.sources]
  have hfetches : fetchesFrom w.state = fetchesFrom v.state := by
    funext m
    rw [fetchesFrom, fetchesFrom, Memo.contains, Memo.contains, h.state.sources]
  rw [himports]
  rw [hfetches] at hrequests
  refine ⟨rfl, hscans.knowsSame hscans' h.state, hrequests.trans ?_⟩
  exact (h.requests.append_right _).trans hrequests'.symm

/-- Two searches by worlds that agree, in whatever orders, leave worlds that agree. -/
theorem agree_of_finds (hf : server.AnswersBy f) {us : List Url} (h : w.Agrees v)
    {results results' : List Unit}
    (hw : Op.Steps server (Op.together (us.map l.infer), w) (.done results, w'))
    (hv : Op.Steps server (Op.together (us.map l.infer), v) (.done results', v')) :
    w'.Agrees v' := by
  obtain ⟨hfinds, hrequests⟩ := finds_of_steps hf hw
  obtain ⟨hfinds', hrequests'⟩ := finds_of_steps hf hv
  refine ⟨hfinds.knowsSame hfinds' h.state, hrequests.trans ?_⟩
  exact (h.requests.append_right _).trans hrequests'.symm

/-! ## Agreement of two discoveries -/

/-- A wave adds the same where the same is known. -/
theorem settle_of_knowsSame (h : s.KnowsSame t) (d : Discovery)
    (wave : List (Url × List (Url × Bool))) : (l.settle d wave s).1 = (l.settle d wave t).1 := by
  have hlocal : l.localDependencies s.cache = l.localDependencies t.cache :=
    localDependencies_congr (lookupTarget_congr h.resolutions fun u => by
      rw [Cache.isCompiled, Cache.isCompiled, h.compiled])
  change wave.foldl (fun d e => d.add e.1 (l.localDependencies s.cache e.2)) d =
    wave.foldl (fun d e => d.add e.1 (l.localDependencies t.cache e.2)) d
  rw [hlocal]

/-- Reporting changes nothing of what is known. -/
theorem knowsSame_reportAll (h : s.KnowsSame t) (es es' : List Event) :
    (Session.reportAll es s).2.KnowsSame (Session.reportAll es' t).2 :=
  ⟨h.sources, h.resolutions, h.compiled, h.graphs⟩

/-- Work that has ended has nothing to disagree on. -/
theorem agree_of_done {α : Type} {x r r' : α} (h : w.Agrees v)
    (hw : Op.Steps server (.done x, w) (.done r, w'))
    (hv : Op.Steps server (.done x, v) (.done r', v')) : r = r' ∧ w'.Agrees v' := by
  obtain ⟨rfl, rfl⟩ := Op.eq_of_steps_done hw
  obtain ⟨rfl, rfl⟩ := Op.eq_of_steps_done hv
  exact ⟨rfl, h⟩

/-- One wave from worlds that agree comes to the same, in whatever orders the answers come, and the
worlds agree then. -/
theorem agree_of_wave (hf : server.AnswersBy f) (waves : Nat) {d d₁ d₂ : Discovery}
    (hd : d.pending.Nodup) (h : w.Agrees v)
    (hw : Op.Steps server (l.wave waves d, w) (.done d₁, w'))
    (hv : Op.Steps server (l.wave waves d, v) (.done d₂, v')) :
    d₁ = d₂ ∧ d₁.pending.Nodup ∧ w'.Agrees v' := by
  unfold wave at hw hv
  rw [Op.steps_act_iff] at hw hv
  obtain ⟨scans, w₁, hscan, hw⟩ := Op.steps_bind_done.1 hw
  obtain ⟨scans', v₁, hscan', hv⟩ := Op.steps_bind_done.1 hv
  have hbegun := h.of_knowsSame (knowsSame_reportAll h.state
    [.discovering waves d.pending.length] [.discovering waves d.pending.length])
  obtain ⟨rfl, h₁⟩ := agree_of_scans hf hd hbegun hscan hscan'
  rw [Op.steps_look_iff] at hw hv
  obtain ⟨_, w₂, hfind, hw⟩ := Op.steps_bind_done.1 hw
  obtain ⟨_, v₂, hfind', hv⟩ := Op.steps_bind_done.1 hv
  -- the same imports are unresolved, and so both runs have the same second stage
  rw [← unresolved_congr h₁.state.resolutions] at hfind'
  have h₂ := agree_of_finds hf h₁ hfind hfind'
  rw [Op.steps_act_done_iff] at hw hv
  obtain ⟨rfl, rfl⟩ := hw
  obtain ⟨rfl, rfl⟩ := hv
  exact ⟨settle_of_knowsSame h₂.state _ _, nodup_pending_settle l _ _ w₂.state List.nodup_nil,
    h₂.of_knowsSame (knowsSame_reportAll h₂.state _ _)⟩

/-- Two discoveries from worlds that agree come to the same, in whatever orders the answers of their
waves come, and the worlds agree then. -/
theorem agree_of_discover (hf : server.AnswersBy f) (limit waves : Nat) {d : Discovery}
    (hd : d.pending.Nodup) (h : w.Agrees v) {r r' : Option (Graph × Nat)}
    (hw : Op.Steps server ((l.discover limit waves d).attempt, w) (.done r, w'))
    (hv : Op.Steps server ((l.discover limit waves d).attempt, v) (.done r', v')) :
    r = r' ∧ w'.Agrees v' := by
  -- by induction on the waves that are left: after each of them the worlds agree
  induction limit generalizing waves d w v with
  | zero =>
    by_cases hp : d.pending = []
    · rw [attempt_discover_of_nil 0 waves hp] at hw hv
      exact agree_of_done h hw hv
    · rw [attempt_discover_zero waves hp] at hw hv
      exact agree_of_done h hw hv
  | succ limit ih =>
    by_cases hp : d.pending = []
    · rw [attempt_discover_of_nil (limit + 1) waves hp] at hw hv
      exact agree_of_done h hw hv
    · rw [attempt_discover_succ limit waves hp] at hw hv
      obtain ⟨d₁, w₁, hwave, hw⟩ := Op.steps_bind_done.1 hw
      obtain ⟨d₂, v₁, hwave', hv⟩ := Op.steps_bind_done.1 hv
      obtain ⟨rfl, hd₁, h₁⟩ := agree_of_wave hf (waves + 1) hd h hwave hwave'
      exact ih (waves + 1) hd₁ h₁ hw hv

/-! ## Agreement of two graphs -/

/-- Remembering a graph where the same is known gives the same graph, and the same is known then. -/
theorem knowsSame_insertGraph (h : s.KnowsSame t) (entry : Url) (g : Graph) :
    (Session.remember (fun c => c.insertGraph entry g) s).1 =
        (Session.remember (fun c => c.insertGraph entry g) t).1 ∧
      (Session.remember (fun c => c.insertGraph entry g) s).2.KnowsSame
        (Session.remember (fun c => c.insertGraph entry g) t).2 := by
  have hgraphs : s.cache.graphs.insert entry g = t.cache.graphs.insert entry g := by rw [h.graphs]
  refine ⟨?_, h.sources, h.resolutions, h.compiled, hgraphs⟩
  change ((s.cache.graphs.insert entry g).get? entry).getD g =
    ((t.cache.graphs.insert entry g).get? entry).getD g
  rw [hgraphs]

/-- Worlds that agree do so when the same graph is remembered, and have the same graph then. -/
theorem agree_of_insertGraph (h : w.Agrees v) {entry : Url} {g : Graph} {r r' : Option Graph}
    (hw : Op.Steps server (Op.act (Session.remember fun c => c.insertGraph entry g) >>= fun g =>
      Op.done (some g), w) (.done r, w'))
    (hv : Op.Steps server (Op.act (Session.remember fun c => c.insertGraph entry g) >>= fun g =>
      Op.done (some g), v) (.done r', v')) : r = r' ∧ w'.Agrees v' := by
  rw [Op.steps_act_iff] at hw hv
  obtain ⟨hgiven, hknown⟩ := knowsSame_insertGraph h.state entry g
  rw [← hgiven] at hv
  exact agree_of_done (h.of_knowsSame hknown) hw hv

/-- Two attempts to build a graph from worlds that agree come to the same. -/
theorem agree_of_attempt (hf : server.AnswersBy f) (limit : Nat) (entry : Url) (h : w.Agrees v)
    {r r' : Option Graph}
    (hw : Op.Steps server ((l.buildGraph limit entry).attempt, w) (.done r, w'))
    (hv : Op.Steps server ((l.buildGraph limit entry).attempt, v) (.done r', v')) :
    r = r' ∧ w'.Agrees v' := by
  unfold buildGraph at hw hv
  rw [Op.attempt_act_bind, Op.steps_look_iff] at hw hv
  rw [← h.state.graphs] at hv
  cases hgraph : w.state.cache.graphs.get? entry with
  | some g =>
    -- both find the graph remembered
    simp only [hgraph, Op.attempt_act_bind] at hw hv
    rw [Op.steps_act_iff] at hw hv
    exact agree_of_done (h.of_knowsSame (knowsSame_reportAll h.state _ _)) hw hv
  | none =>
    -- both discover it, with the same outcome, and remember it
    simp only [hgraph, Op.attempt_bind] at hw hv
    obtain ⟨x, w₁, hdiscover, hw⟩ := Op.steps_bind_done.1 hw
    obtain ⟨x', v₁, hdiscover', hv⟩ := Op.steps_bind_done.1 hv
    obtain ⟨rfl, h₁⟩ := agree_of_discover hf limit 0 (List.nodup_singleton entry) h hdiscover
      hdiscover'
    cases x with
    | none => exact agree_of_done h₁ hw hv
    | some x =>
      obtain ⟨g, waves⟩ := x
      change Op.Steps server (Op.act (Session.report (.graphBuilt entry g.size waves)) >>= fun _ =>
        Op.act (Session.remember fun c => c.insertGraph entry g) >>= fun g =>
          Op.done (some g), _) _ at hw hv
      rw [Op.steps_act_iff] at hw hv
      exact agree_of_insertGraph (h₁.of_knowsSame (knowsSame_reportAll h₁.state _ _)) hw hv

/-- A server that always answers a URL the same way decides how a graph is built. Whatever orders
the answers of two runs come in, the graphs that they end with are the same, with the same order of
modules and imports and the same lazy marks; the same sources and resolutions are remembered, and
the same requests have been sent. And if one order of answers ends with a graph, every order
does. -/
theorem agree_of_buildGraph (hf : server.AnswersBy f) (limit : Nat) (entry : Url)
    (w : World Session ω) :
    (∀ g w₁ g' w₂, Op.Steps server (l.buildGraph limit entry, w) (.done g, w₁) →
      Op.Steps server (l.buildGraph limit entry, w) (.done g', w₂) → g = g' ∧ w₁.Agrees w₂) ∧
    ((∃ g w₁, Op.Steps server (l.buildGraph limit entry, w) (.done g, w₁)) →
      Op.Terminates server (l.buildGraph limit entry, w)) := by
  constructor
  · intro g w₁ g' w₂ h h'
    obtain ⟨hsame, hagrees⟩ := agree_of_attempt hf limit entry (.refl w) h.attempt h'.attempt
    exact ⟨Option.some.inj hsame, hagrees⟩
  · rintro ⟨g, w₁, h⟩
    refine Op.terminates_of_ne_endless ?_
    rintro ⟨op, w₂⟩ h' rfl
    -- an order that came to a point where it never ends would not agree with the one that ends
    obtain ⟨hsame, -⟩ := agree_of_attempt hf limit entry (.refl w) h.attempt h'.attempt
    cases hsame

/-- A module that imports one without extension, one that there is not, and one more. -/
def importingThree : List (String × String) :=
  [("main.js", "import \"./util\";\nimport \"./gone.js\";\nimport \"./last.js\";\n"),
    ("util.js", "export const u = 1;\n"), ("last.js", "")]

/-- In whatever order the answers for them come, the graph of the module lists them in the same
order, and the same requests have been sent. -/
theorem agree_of_buildGraph_importingThree :
    Op.Terminates (Server.ofModules importingThree)
        (default.buildGraph 3 (fileUrl "main.js"), default.start ()) ∧
      ∀ g w', Op.Steps (Server.ofModules importingThree)
          (default.buildGraph 3 (fileUrl "main.js"), default.start ()) (.done g, w') →
        g.urls = ["main.js", "util.js", "gone.js", "last.js"].map fileUrl ∧
        w'.state.cache.resolutions.get? (fileUrl "util") = some (fileUrl "util.js") ∧
        w'.requests.Perm [⟨fileUrl "main.js", .source⟩,
          Resolver.probe .default (fileUrl "util.jsx"), Resolver.probe .default (fileUrl "util.js"),
          ⟨fileUrl "gone.js", .source⟩, ⟨fileUrl "last.js", .source⟩] := by
  obtain ⟨hagree, hterminates⟩ := agree_of_buildGraph (l := default)
    (answersBy_ofModules importingThree) 3 (fileUrl "main.js") (default.start ())
  -- the answers at once are one order, and all others agree with it
  obtain ⟨hurls, hresolution, hrequests⟩ :
      ((default.buildGraph 3 (fileUrl "main.js")).run (Server.ofModules importingThree)
          (default.start ())).1.map Graph.urls =
        some (["main.js", "util.js", "gone.js", "last.js"].map fileUrl) ∧
      ((default.buildGraph 3 (fileUrl "main.js")).run (Server.ofModules importingThree)
          (default.start ())).2.state.cache.resolutions.get? (fileUrl "util") =
        some (fileUrl "util.js") ∧
      ((default.buildGraph 3 (fileUrl "main.js")).run (Server.ofModules importingThree)
          (default.start ())).2.requests = [⟨fileUrl "main.js", .source⟩,
        Resolver.probe .default (fileUrl "util.jsx"), Resolver.probe .default (fileUrl "util.js"),
        ⟨fileUrl "gone.js", .source⟩, ⟨fileUrl "last.js", .source⟩] := by
    decide +kernel
  obtain ⟨g₀, hrun, hurls⟩ := Option.map_eq_some_iff.1 hurls
  have hsteps := Op.steps_of_fst_run hrun
  refine ⟨hterminates ⟨g₀, _, hsteps⟩, fun g w' h => ?_⟩
  obtain ⟨rfl, hknown, hperm⟩ := hagree g w' g₀ _ h hsteps
  exact ⟨hurls, (hknown.resolutions _).trans hresolution, hrequests ▸ hperm⟩

end Loader

end ModuleLoader
