import ModuleLoader.Proofs.Loader.Compilation

/-! # What the tasks of a discovery ask for

A server that always answers a URL the same way is asked for the source of a module that is not
remembered, and for the candidates of a URL without extension up to the first that is a module.

* **`Server.AnswersBy`** is a server that always answers a URL the same way.
* **`Resolver.standsFor`** is the module that a URL without extension stands for then, and
  **`Resolver.asked`** what is asked for to find it.
* **`Loader.Resolves`** is what the tasks of a wave do, and **`Loader.Fetched`** what fetching a
  source has asked for. -/

namespace ModuleLoader

open Relation

variable {ω : Type} {server : Server ω} {f : Url → Answer}

/-- The server always answers a URL the same way, whatever the request is for. -/
def Server.AnswersBy (server : Server ω) (f : Url → Answer) : Prop :=
  ∀ q x, (server q x).1 = f q.url

/-- The answer to a request is that for its URL. -/
theorem Server.AnswersBy.ask {σ : Type} (h : server.AnswersBy f) (q : Request) (w : World σ ω) :
    (World.ask server q w).1 = f q.url :=
  h q w.server

/-! ## What a search for an extension finds -/

namespace Resolver

/-- There is a module at the URL. -/
def isModuleAt (f : Url → Answer) (u : Url) : Bool := (f u).moduleBody?.isSome

/-- What a URL without extension stands for: the first candidate with a module, or the URL with the
fallback extension. -/
def standsFor (c : Config) (f : Url → Answer) (requested : Url) : Url :=
  ((candidates c requested).find? (isModuleAt f)).getD (fallback c requested)

/-- The candidates that are asked for: all up to the first with a module. -/
def asked (f : Url → Answer) : List Url → List Url
  | [] => []
  | candidate :: rest =>
    if isModuleAt f candidate then [candidate] else candidate :: asked f rest

/-- A module is asked for once if it is found, and otherwise not at all. -/
theorem count_asked {t : Url} (ht : isModuleAt f t = true) (cs : List Url) :
    (asked f cs).count t = if cs.find? (isModuleAt f) = some t then 1 else 0 := by
  induction cs with
  | nil => simp [asked]
  | cons candidate rest ih =>
    by_cases hc : isModuleAt f candidate = true
    · simp [asked, hc, List.count_singleton]
    · have hne : candidate ≠ t := fun e => hc (e ▸ ht)
      simp [asked, hc, hne, ih]

/-- A module that is a candidate is what the URL stands for exactly if it is found. -/
theorem standsFor_eq_iff {c : Config} {requested t : Url} (ht : isModuleAt f t = true) :
    standsFor c f requested = t ∧ t ∈ candidates c requested ↔
      (candidates c requested).find? (isModuleAt f) = some t := by
  unfold standsFor
  cases hfind : (candidates c requested).find? (isModuleAt f) with
  | some u =>
    simp only [Option.getD_some, Option.some.injEq, and_iff_left_iff_imp]
    rintro rfl
    exact List.mem_of_find?_eq_some hfind
  | none =>
    simp only [reduceCtorEq, iff_false, not_and]
    exact fun _ hmem => List.find?_eq_none.1 hfind t hmem ht

end Resolver

/-! ## Counting requests -/

/-- How often the source of a module is asked for. -/
def sourceAsks (t : Url) (qs : List Request) : Nat := qs.count ⟨t, .source⟩

/-- How often a probe asks for a module. -/
def probeAsks (t : Url) (qs : List Request) : Nat :=
  qs.countP fun q => q.url = t ∧ q.purpose ≠ .source

/-- A request for a module asks for its source or probes. -/
theorem countP_url_eq (t : Url) (qs : List Request) :
    qs.countP (fun q => q.url = t) = sourceAsks t qs + probeAsks t qs := by
  unfold sourceAsks probeAsks
  induction qs with
  | nil => rfl
  | cons q qs ih =>
    obtain ⟨u, p⟩ := q
    rw [List.countP_cons, List.countP_cons, List.count_cons, ih]
    by_cases hu : u = t <;> by_cases hp : p = .source <;> simp [hu, hp] <;> omega

/-- Asking for candidates probes. -/
theorem asks_map_probe (c : Config) (t : Url) (us : List Url) :
    sourceAsks t (us.map (Resolver.probe c)) = 0 ∧
      probeAsks t (us.map (Resolver.probe c)) = us.count t := by
  unfold sourceAsks probeAsks
  induction us with
  | nil => exact ⟨rfl, rfl⟩
  | cons u us ih =>
    rw [List.map_cons, List.count_cons, List.countP_cons, List.count_cons, ih.1, ih.2]
    constructor
    · simp [Resolver.probe]
    · by_cases hu : u = t <;> simp [Resolver.probe, hu]

/-! ## The tasks of a wave -/

namespace Loader

variable {l : Loader} {s s' s'' : Session} {requested : List Url}

/-- What the tasks of a wave do while some URLs are resolved: nothing but search, and what is found
is what the URLs stand for. -/
structure Resolves (l : Loader) (f : Url → Answer) (requested : List Url) (s s' : Session) :
    Prop extends s.Searches s' where
  /-- What is found is what the URLs stand for. -/
  resolved : ∀ e ∈ s'.cache.resolutions.entries, e ∈ s.cache.resolutions.entries ∨
    e.1 ∈ requested ∧ e.2 = Resolver.standsFor l.config f e.1
  /-- No URL is resolved twice. -/
  nodup : s.cache.resolutions.keys.Nodup → s'.cache.resolutions.keys.Nodup

theorem Resolves.trans (h : l.Resolves f requested s s') (h' : l.Resolves f requested s' s'') :
    l.Resolves f requested s s'' where
  toSearches := h.toSearches.trans h'.toSearches
  resolved := by
    intro e he
    rcases h'.resolved e he with he | he
    · exact h.resolved e he
    · exact .inr he
  nodup := fun hn => h'.nodup (h.nodup hn)

/-- Searching without resolving is all right. -/
theorem resolves_of_searches (h : s.Searches s')
    (hr : s'.cache.resolutions = s.cache.resolutions) : l.Resolves f requested s s' where
  toSearches := h
  resolved := by
    intro e he
    rw [hr] at he
    exact .inl he
  nodup := by
    rw [hr]
    exact id

/-- Remembering what one of the URLs stands for is all right. -/
theorem resolves_insertResolution {u : Url} (hu : u ∈ requested) :
    l.Resolves f requested s
      (Session.remember (fun c =>
        ((), c.insertResolution u (Resolver.standsFor l.config f u))) s).2 where
  toSearches := Session.searches_insertResolution u _ s
  resolved := by
    intro e he
    refine (Memo.mem_entries_insert he).imp_right ?_
    rintro rfl
    exact ⟨hu, rfl⟩
  nodup := by
    intro hn
    change (s.cache.resolutions.insert u _).keys.Nodup
    rw [Memo.keys_insert]
    exact nodup_addOnce hn

/-- What the tasks of a wave promise each other while some URLs are resolved. -/
def resolving (l : Loader) (f : Url → Answer) (requested : List Url) (w w' : World Session ω) :
    Prop :=
  l.Resolves f requested w.state w'.state

/-- Resolving for some steps is resolving. -/
theorem resolves_of_resolving {w w' : World Session ω}
    (h : ReflTransGen (l.resolving f requested) w w') :
    l.Resolves f requested w.state w'.state := by
  induction h with
  | refl => exact resolves_of_searches (.refl _) rfl
  | tail _ h ih => exact ih.trans h

/-- A report resolves nothing. -/
theorem resolves_report (e : Event) (s : Session) :
    l.Resolves f requested s (Session.report e s).2 :=
  resolves_of_searches (Session.searches_report e s) rfl

/-- A source resolves nothing. -/
theorem resolves_insertSource (url : Url) (text : String) (s : Session) :
    l.Resolves f requested s (Session.remember (fun c => c.insertSource url text) s).2 :=
  resolves_of_searches (Session.searches_insertSource url text s) rfl

/-- What fetching a source has asked for: the source, if it was not remembered, and then it is if
there is a module. -/
def Fetched (f : Url → Answer) (s : Session) (url : Url) (qs : List Request) (s' : Session) :
    Prop :=
  qs = [] ∨ qs = [⟨url, .source⟩] ∧ s.cache.sources.contains url = false ∧
    (Resolver.isModuleAt f url = true → s'.cache.sources.contains url = true)

/-- Fetching a source asks for it only if it is not remembered. -/
theorem asks_fetchSource (hf : server.AnswersBy f) (requested : List Url) (url : Url)
    (w : World Session ω) :
    (fetchSource url).Keeps server (l.resolving f requested) (l.resolving f requested)
      (fun _ qs w' => Fetched f w.state url qs w'.state) [] w := by
  unfold fetchSource
  refine Task.keeps_look (resolves_of_searches (.refl _) rfl) fun w₁ hw₁ => ?_
  cases hsource : w.state.cache.sources.get? url with
  | some source => exact .inl rfl
  | none =>
    have hnew : w.state.cache.sources.contains url = false := by
      rw [Memo.contains, hsource]
      rfl
    refine Task.keeps_bind
      (Task.keeps_ask (resolves_of_searches (.refl _) rfl) fun w₂ hw₂ => ?_)
    rw [hf.ask]
    cases hanswer : (f url).source url with
    -- an answer that is a module has a source, so there is none here
    | error e =>
      refine .inr ⟨rfl, hnew, fun hmodule => ?_⟩
      obtain ⟨body, hbody⟩ := Option.isSome_iff_exists.1 hmodule
      rw [(Answer.moduleBody?_eq_some_iff _ url body).1 hbody] at hanswer
      cases hanswer
    | ok text =>
      refine Task.keeps_map (Task.keeps_act (resolves_insertSource url text _) fun w₃ hw₃ => ?_)
      refine .inr ⟨rfl, hnew, fun _ => ?_⟩
      exact (resolves_of_resolving hw₃).sources.contains
        (Memo.contains_insert w₂.state.cache.sources url text)

/-- What is remembered stays. -/
theorem Fetched.of_searches {url : Url} {qs : List Request} (h : Fetched f s url qs s')
    (hs : s'.Searches s'') : Fetched f s url qs s'' :=
  h.imp_right fun h => ⟨h.1, h.2.1, fun hm => hs.sources.contains (h.2.2 hm)⟩

/-- Scanning a module asks for its source only if it is not remembered. -/
theorem asks_scanModule (hf : server.AnswersBy f) (url : Url) (w : World Session ω) :
    (l.scanModule url).Keeps server (l.resolving f requested) (l.resolving f requested)
      (fun _ qs w' => Fetched f w.state url qs w'.state) [] w := by
  unfold scanModule
  refine Task.keeps_bind ((asks_fetchSource hf _ url w).imp fun r qs w₁ hr => ?_)
  cases r with
  | ok source =>
    have hscan := (searches_scanSource l url source w₁.state).2
    have hsame : (l.scanSource url source w₁.state).2.cache.resolutions =
        w₁.state.cache.resolutions := by rw [cache_scanSource]
    refine Task.keeps_act (resolves_of_searches hscan hsame) fun w₂ hw₂ => ?_
    exact hr.of_searches (hscan.trans (resolves_of_resolving hw₂).toSearches)
  | error e =>
    have hreport := Session.searches_report (.discoveryFailed url e) w₁.state
    refine Task.keeps_bind (Task.keeps_act (resolves_report _ _) fun w₂ hw₂ => ?_)
    exact hr.of_searches (hreport.trans (resolves_of_resolving hw₂).toSearches)

/-- Asking for candidates finds the first with a module, with its body, and asks for no more than it
takes. It does nothing but report. -/
theorem asks_probeAll (hf : server.AnswersBy f)
    {others own : World Session ω → World Session ω → Prop}
    (hreport : ∀ e w, own w { w with state := (Session.report e w.state).2 })
    (hask : ∀ q w, own w (World.ask server q w).2) (c : Config) (u : Url) (cs : List Url)
    (qs : List Request) (w : World Session ω) :
    (Resolver.probeAll c (fun e => Task.act (Session.report e)) u cs).Keeps server others own
      (fun r qs' _ => r.url = (cs.find? (Resolver.isModuleAt f)).getD (Resolver.fallback c u) ∧
        r.source = (cs.find? (Resolver.isModuleAt f)).bind (fun t => (f t).moduleBody?) ∧
        qs' = qs ++ (Resolver.asked f cs).map (Resolver.probe c)) qs w := by
  induction cs generalizing qs w with
  | nil =>
    refine Task.keeps_bind (Task.keeps_act (hreport _ _) fun _ _ => ?_)
    exact ⟨rfl, rfl, (List.append_nil qs).symm⟩
  | cons candidate rest ih =>
    refine Task.keeps_bind (Task.keeps_ask (hask _ _) fun w₁ _ => ?_)
    have hanswer : (World.ask server (Resolver.probe c candidate) w).1 = f candidate := hf.ask _ w
    rw [hanswer]
    cases hbody : (f candidate).moduleBody? with
    | some body =>
      have hmodule : Resolver.isModuleAt f candidate = true := by
        rw [Resolver.isModuleAt, hbody]
        rfl
      refine Task.keeps_bind (Task.keeps_act (hreport _ _) fun _ _ => ?_)
      rw [List.find?_cons_of_pos hmodule, Resolver.asked, if_pos hmodule]
      exact ⟨rfl, hbody.symm, rfl⟩
    | none =>
      have hmodule : ¬ Resolver.isModuleAt f candidate = true := by
        rw [Resolver.isModuleAt, hbody]
        exact Bool.false_ne_true
      refine Task.keeps_bind (Task.keeps_act (hreport _ _) fun w₂ _ => ?_)
      rw [List.find?_cons_of_neg hmodule, Resolver.asked, if_neg hmodule]
      refine (ih _ w₂).imp fun r qs' _ hr => ⟨hr.1, hr.2.1, ?_⟩
      rw [hr.2.2, List.append_assoc]
      rfl

/-- Finding an extension asks for candidates, and remembers what the URL stands for. -/
theorem asks_infer (hf : server.AnswersBy f) {u : Url} (hu : u ∈ requested)
    (w : World Session ω) :
    (l.infer u).Keeps server (l.resolving f requested) (l.resolving f requested)
      (fun _ qs w' => w'.state.cache.resolutions.contains u = true ∧
        qs = (Resolver.asked f (Resolver.candidates l.config u)).map (Resolver.probe l.config))
      [] w := by
  refine Task.keeps_bind ((asks_probeAll hf (fun e w => resolves_report e w.state)
    (fun _ _ => resolves_of_searches (.refl _) rfl) l.config u _ [] w).imp fun r qs w₁ hr => ?_)
  obtain ⟨hurl, -, rfl⟩ := hr
  have hinsert : l.Resolves f requested w₁.state
      (Session.remember (fun c => ((), c.insertResolution u r.url)) w₁.state).2 := by
    rw [hurl]
    exact resolves_insertResolution hu
  refine Task.keeps_bind (Task.keeps_act hinsert fun w₂ hw₂ => ?_)
  have hfound : w₂.state.cache.resolutions.contains u = true :=
    (resolves_of_resolving hw₂).resolutions.contains
      (Memo.contains_insert w₁.state.cache.resolutions u r.url)
  cases r.source with
  | some body =>
    refine Task.keeps_act (resolves_insertSource r.url body _) fun w₃ hw₃ => ⟨?_, rfl⟩
    exact (resolves_of_resolving hw₃).resolutions.contains hfound
  | none => exact ⟨hfound, rfl⟩

end Loader

end ModuleLoader
