import ModuleLoader.Proofs.Loader.Compilation

/-! # What is learnt from a server

All that searching remembers comes from the answers of the server: a source is the body of an
answer, a URL without extension stands for what the answers for its candidates say, and a module
counts as one that imports nothing only if an answer was no module.

* **`Server.Says`** bounds what a server may answer; **`Resolver.Finds`** is what a search among
  candidates comes to then.
* **`Loader.Learns`** is searching that remembers nothing else, and **`Loader.Attested`** what the
  answers say of the imports of a module.
* **`Loader.Explores`** is what a discovery promises, and **`Loader.Inquires`** what the tasks of a
  wave promise each other. -/

namespace ModuleLoader

open Relation

variable {ω : Type} {server : Server ω} {possible : Url → Answer → Prop} {may : Request → Prop}

/-- What the server answers for a URL is an answer that is possible for it. -/
def Server.Says (server : Server ω) (possible : Url → Answer → Prop) : Prop :=
  ∀ q x, possible q.url (server q x).1

/-- Any server says something. -/
theorem Server.says_something (server : Server ω) : server.Says fun _ _ => True :=
  fun _ _ => trivial

/-- The answer to a request is one that is possible. -/
theorem Server.Says.ask {σ : Type} (h : server.Says possible) (q : Request) (w : World σ ω) :
    possible q.url (World.ask server q w).1 :=
  h q w.server

/-- What a search among candidates may come to: the first that is answered with a module, or else
the fallback. -/
inductive Resolver.Finds (possible : Url → Answer → Prop) (fallback : Url) : List Url → Url → Prop
  /-- There is no candidate left. -/
  | fallback : Finds possible fallback [] fallback
  /-- The candidate is a module. -/
  | module {candidate : Url} {rest : List Url} {a : Answer} {body : String}
      (ha : possible candidate a) (hbody : a.moduleBody? = some body) :
      Finds possible fallback (candidate :: rest) candidate
  /-- The candidate is no module, and the search goes on. -/
  | miss {candidate t : Url} {rest : List Url} {a : Answer} (ha : possible candidate a)
      (hbody : a.moduleBody? = none) (hrest : Finds possible fallback rest t) :
      Finds possible fallback (candidate :: rest) t

/-- A search comes to a candidate or to the fallback. -/
theorem Resolver.Finds.mem {fallback t : Url} {candidates : List Url}
    (h : Finds possible fallback candidates t) : t ∈ candidates ∨ t = fallback := by
  induction h with
  | fallback => exact .inr rfl
  | module => exact .inl List.mem_cons_self
  | miss _ _ _ ih => exact ih.imp_left (List.mem_cons_of_mem _)

/-- An answer that has no source for a module has no module body. -/
theorem Answer.moduleBody?_of_source_error {a : Answer} {url : Url} {cause : Failure}
    (h : a.source url = .error cause) : a.moduleBody? = none := by
  by_contra hbody
  obtain ⟨text, htext⟩ := Option.ne_none_iff_exists'.1 hbody
  rw [(moduleBody?_eq_some_iff a url text).1 htext] at h
  cases h

namespace Loader

variable {l : Loader} {s s' s'' : Session}

/-! ## Learning -/

/-- Searching that remembers only what possible answers say. -/
structure Learns (l : Loader) (possible : Url → Answer → Prop) (s s' : Session) : Prop
    extends s.Searches s' where
  /-- A new source is the body of an answer for its URL. -/
  sourced : ∀ u text, s'.cache.sources.get? u = some text →
    s.cache.sources.get? u = some text ∨ ∃ a, possible u a ∧ a.moduleBody? = some text
  /-- A new resolution is that of a URL without extension, and is what a search comes to. -/
  resolved : ∀ u t, s'.cache.resolutions.get? u = some t →
    s.cache.resolutions.get? u = some t ∨ u.hasExtension = false ∧
      Resolver.Finds possible (Resolver.fallback l.config u) (Resolver.candidates l.config u) t

theorem Learns.refl (l : Loader) (possible : Url → Answer → Prop) (s : Session) :
    l.Learns possible s s :=
  ⟨.refl s, fun _ _ => .inl, fun _ _ => .inl⟩

theorem Learns.trans (h : l.Learns possible s s') (h' : l.Learns possible s' s'') :
    l.Learns possible s s'' where
  toSearches := h.toSearches.trans h'.toSearches
  sourced := fun u text hu => (h'.sourced u text hu).elim (h.sourced u text) .inr
  resolved := fun u t hu => (h'.resolved u t hu).elim (h.resolved u t) .inr

/-- Reporting several things teaches nothing. -/
theorem learns_reportAll (es : List Event) (s : Session) :
    l.Learns possible s (Session.reportAll es s).2 where
  toSearches := Session.searches_reportAll es s
  sourced := fun _ _ => .inl
  resolved := fun _ _ => .inl

/-- Reporting something teaches nothing. -/
theorem learns_report (e : Event) (s : Session) : l.Learns possible s (Session.report e s).2 :=
  learns_reportAll [e] s

/-- A source is remembered when it is the body of an answer. -/
theorem learns_insertSource {url : Url} {a : Answer} {text : String} (ha : possible url a)
    (hbody : a.moduleBody? = some text) (s : Session) :
    l.Learns possible s (Session.remember (fun c => c.insertSource url text) s).2 where
  toSearches := Session.searches_insertSource url text s
  sourced := by
    intro u text' hu
    rcases Memo.get?_insert_elim hu with hold | ⟨rfl, rfl, -⟩
    · exact .inl hold
    · exact .inr ⟨a, ha, hbody⟩
  resolved := fun _ _ => .inl

/-- What a URL without extension stands for is remembered when a search has come to that. -/
theorem learns_insertResolution {u t : Url} (hu : u.hasExtension = false)
    (ht : Resolver.Finds possible (Resolver.fallback l.config u)
      (Resolver.candidates l.config u) t) (s : Session) :
    l.Learns possible s (Session.remember (fun c => ((), c.insertResolution u t)) s).2 where
  toSearches := Session.searches_insertResolution u t s
  sourced := fun _ _ => .inl
  resolved := by
    intro u' t' hu'
    rcases Memo.get?_insert_elim hu' with hold | ⟨rfl, rfl, -⟩
    · exact .inl hold
    · exact .inr ⟨hu, ht⟩

/-- What the answers say that a module imports: what its source does, or nothing if an answer was no
module. -/
def Attested (l : Loader) (possible : Url → Answer → Prop) (s : Session) (m : Url)
    (imports : List (Url × Bool)) : Prop :=
  (∃ source, s.cache.sources.get? m = some source ∧ imports = l.importsIn m source) ∨
    imports = [] ∧ ∃ a, possible m a ∧ a.moduleBody? = none

/-- What the answers say stays. -/
theorem Attested.of_grows {m : Url} {imports : List (Url × Bool)}
    (h : l.Attested possible s m imports) (hg : s.Grows s') : l.Attested possible s' m imports :=
  h.imp_left fun ⟨source, hs, hi⟩ => ⟨source, hg.sources m source hs, hi⟩

/-- The report is not of what was scanned in a module. -/
def IsAside : Event → Prop
  | .importsResolved _ _ _ => False
  | _ => True

/-- What is reported of a candidate without a module is aside. -/
theorem isAside_missEvent (candidate : Url) (a : Answer) :
    IsAside (Resolver.missEvent candidate a) := by
  cases a <;> trivial

/-- How often it has been reported what was scanned in a module. -/
def scans (s : Session) (m : Url) : Nat :=
  s.events.countP fun e => match e with
    | .importsResolved url _ _ => url = m
    | _ => false

/-- A report that is aside is of no scan. -/
theorem scans_report {e : Event} (he : IsAside e) (s : Session) (m : Url) :
    scans (Session.report e s).2 m = scans s m := by
  change (s.events ++ [e]).countP _ = s.events.countP _
  rw [List.countP_append, List.countP_singleton]
  cases e with
  | importsResolved url imports localModules => exact he.elim
  | _ => rfl

/-- What a discovery promises: to learn, and to send the requests it may. -/
structure Explores (l : Loader) (possible : Url → Answer → Prop) (may : Request → Prop)
    (w w' : World Session ω) : Prop where
  /-- Nothing is done but learning. -/
  learns : l.Learns possible w.state w'.state
  /-- The requests are such as may be sent. -/
  requests : ∃ qs, w'.requests = w.requests ++ qs ∧ ∀ q ∈ qs, may q

/-- What the tasks of a wave promise each other: to explore, and not to report what was scanned
before the wave is over. -/
structure Inquires (l : Loader) (possible : Url → Answer → Prop) (may : Request → Prop)
    (w w' : World Session ω) : Prop extends l.Explores possible may w w' where
  /-- Nothing is reported of what was scanned. -/
  sameScans : ∀ m, scans w'.state m = scans w.state m

namespace Explores

variable {w w' w'' : World Session ω}

theorem refl (l : Loader) (possible : Url → Answer → Prop) (may : Request → Prop)
    (w : World Session ω) : l.Explores possible may w w :=
  ⟨.refl l possible _, [], (List.append_nil _).symm, by simp⟩

theorem trans (h : l.Explores possible may w w') (h' : l.Explores possible may w' w'') :
    l.Explores possible may w w'' where
  learns := h.learns.trans h'.learns
  requests := by
    obtain ⟨qs, hqs, hmay⟩ := h.requests
    obtain ⟨qs', hqs', hmay'⟩ := h'.requests
    refine ⟨qs ++ qs', by rw [hqs', hqs, List.append_assoc], fun q hq => ?_⟩
    exact (List.mem_append.1 hq).elim (hmay q) (hmay' q)

/-- Exploring for some steps is exploring. -/
theorem of_steps (h : ReflTransGen (l.Explores possible may) w w') :
    l.Explores possible may w w' := by
  induction h with
  | refl => exact .refl l possible may _
  | tail _ h ih => exact ih.trans h

/-- Learning without a request is exploring. -/
theorem of_learns (h : l.Learns possible w.state s') :
    l.Explores possible may w { w with state := s' } :=
  ⟨h, [], (List.append_nil _).symm, by simp⟩

end Explores

namespace Inquires

variable {w w' : World Session ω}

/-- Inquiring for some steps is inquiring. -/
theorem of_steps (h : ReflTransGen (l.Inquires possible may) w w') :
    l.Inquires possible may w w' := by
  induction h with
  | refl => exact ⟨.refl l possible may _, fun _ => rfl⟩
  | tail _ h ih =>
    exact ⟨ih.toExplores.trans h.toExplores, fun m => (h.sameScans m).trans (ih.sameScans m)⟩

/-- Learning without a request and without a report of what was scanned is inquiring. -/
theorem of_learns (h : l.Learns possible w.state s')
    (hscans : ∀ m, scans s' m = scans w.state m) :
    l.Inquires possible may w { w with state := s' } :=
  ⟨.of_learns h, hscans⟩

/-- A request that may be sent is inquiring. -/
theorem of_ask {q : Request} (hq : may q) (w : World Session ω) :
    l.Inquires possible may w (World.ask server q w).2 :=
  ⟨⟨.refl l possible _, [q], rfl, by simpa using hq⟩, fun _ => rfl⟩

/-- A report that is aside is inquiring. -/
theorem of_report {e : Event} (he : IsAside e) (w : World Session ω) :
    l.Inquires possible may w { w with state := (Session.report e w.state).2 } :=
  .of_learns (learns_report e _) (scans_report he w.state)

end Inquires

/-! ## The tasks of a wave -/

/-- Fetching a source is inquiring; a source that is there at the end is remembered, and what it
fails with is what an answer stands for. -/
theorem inquires_fetchSource (l : Loader) (may : Request → Prop) (hs : server.Says possible)
    (url : Url) (hmay : may ⟨url, .source⟩) (qs : List Request) (w : World Session ω) :
    (fetchSource url).Keeps server (l.Inquires possible may) (l.Inquires possible may)
      (fun r _ w' => (∀ source, r = .ok source → w'.state.cache.sources.get? url = some source) ∧
        ∀ cause, r = .error cause → ∃ a, possible url a ∧ a.source url = .error cause) qs w := by
  have hfails : (fetchSource url).Keeps server (l.Inquires possible may) (l.Inquires possible may)
      (fun r _ _ => ∀ cause, r = .error cause → ∃ a, possible url a ∧ a.source url = .error cause)
      qs w := by
    unfold fetchSource
    refine Task.keeps_look (.of_learns (.refl l possible _) fun _ => rfl) fun w₁ _ => ?_
    cases w.state.cache.sources.get? url with
    | some source =>
      intro cause h
      cases h
    | none =>
      refine Task.keeps_bind (Task.keeps_ask (.of_ask hmay w₁) fun w₂ _ => ?_)
      have ha := hs.ask ⟨url, .source⟩ w₁
      cases hanswer : Answer.source (World.ask server ⟨url, .source⟩ w₁).1 url with
      | error cause =>
        rintro _ ⟨rfl⟩
        exact ⟨_, ha, hanswer⟩
      | ok text =>
        have hbody := (Answer.moduleBody?_eq_some_iff _ url text).2 hanswer
        refine Task.keeps_map (Task.keeps_act (.of_learns (learns_insertSource ha hbody _) ?_) ?_)
        · exact fun _ => rfl
        · intro w₃ hw₃ cause h
          cases h
  exact ((keeps_fetchSource url qs w).and hfails).mono
    (fun _ _ h => ⟨h.learns.toSearches, h⟩) fun _ _ h => h.2

/-- Scanning a module is inquiring; what it ends with has been scanned, and is what the answers
say. -/
theorem inquires_scanModule (hs : server.Says possible) {url : Url} (hmay : may ⟨url, .source⟩)
    (w : World Session ω) :
    (l.scanModule url).Keeps server (l.Inquires possible may) (l.Inquires possible may)
      (fun imports _ w' => l.Scanned w'.state url imports ∧
        l.Attested possible w'.state url imports) [] w := by
  have hattested : (l.scanModule url).Keeps server (l.Inquires possible may)
      (l.Inquires possible may)
      (fun imports _ w' => l.Attested possible w'.state url imports) [] w := by
    unfold scanModule
    refine Task.keeps_bind ((inquires_fetchSource l may hs url hmay [] w).imp fun r qs w₁ hr => ?_)
    obtain ⟨hsource, hfailure⟩ := hr
    cases r with
    | ok source =>
      obtain ⟨himports, hscan⟩ := searches_scanSource l url source w₁.state
      refine Task.keeps_act ?_ fun w₂ hw₂ => .inl ⟨source, ?_, himports⟩
      · unfold scanSource
        by_cases hf : (scan l.config.scanMode source url.pathText).faults > 0
        · simp only [if_pos hf]
          exact .of_report (e := .scanFailed _ _) trivial w₁
        · simp only [if_neg hf]
          exact .of_learns (.refl l possible _) fun _ => rfl
      · exact (Inquires.of_steps hw₂).learns.sources url source
          (hscan.sources url source (hsource source rfl))
    | error cause =>
      obtain ⟨a, ha, hanswer⟩ := hfailure cause rfl
      have hbody := Answer.moduleBody?_of_source_error hanswer
      refine Task.keeps_bind (Task.keeps_act ?_ fun _ _ => .inr ⟨rfl, a, ha, hbody⟩)
      exact .of_report (e := .discoveryFailed _ _) trivial w₁
  exact ((keeps_scanModule l url w).and hattested).mono
    (fun _ _ h => ⟨h.learns.toSearches, h⟩) fun _ _ h => h.2

/-- Asking for candidates is inquiring; it comes to what a search may come to, with the body of its
answer if that is a module. -/
theorem inquires_probeAll (hs : server.Says possible) (c : Config) (requested : Url)
    {candidates : List Url} (hmay : ∀ candidate ∈ candidates, may (Resolver.probe c candidate))
    (qs : List Request) (w : World Session ω) :
    (Resolver.probeAll c (fun e => Task.act (Session.report e)) requested candidates).Keeps server
      (l.Inquires possible may) (l.Inquires possible may)
      (fun r _ _ => Resolver.Finds possible (Resolver.fallback c requested) candidates r.url ∧
        ∀ body, r.source = some body → ∃ a, possible r.url a ∧ a.moduleBody? = some body) qs w := by
  induction candidates generalizing qs w with
  | nil =>
    refine Task.keeps_bind
      (Task.keeps_act (.of_report (e := .assumed _ _) trivial w) fun _ _ => ?_)
    exact ⟨.fallback, fun _ h => nomatch h⟩
  | cons candidate rest ih =>
    rw [List.forall_mem_cons] at hmay
    refine Task.keeps_bind (Task.keeps_ask (.of_ask hmay.1 w) fun w₁ _ => ?_)
    have ha := hs.ask (Resolver.probe c candidate) w
    cases hbody : (World.ask server (Resolver.probe c candidate) w).1.moduleBody? with
    | some body =>
      refine Task.keeps_bind
        (Task.keeps_act (.of_report (e := .inferred _ _) trivial w₁) fun _ _ => ?_)
      refine ⟨.module ha hbody, ?_⟩
      rintro _ ⟨rfl⟩
      exact ⟨_, ha, hbody⟩
    | none =>
      refine Task.keeps_bind (Task.keeps_act (.of_report (isAside_missEvent _ _) w₁)
        fun w₂ _ => ?_)
      exact (ih hmay.2 _ w₂).imp fun r _ _ hr => ⟨.miss ha hbody hr.1, hr.2⟩

/-- Finding an extension is inquiring; in the end the URL is settled. -/
theorem inquires_infer (hs : server.Says possible) {requested : Url}
    (hext : requested.hasExtension = false)
    (hmay : ∀ candidate ∈ Resolver.candidates l.config requested,
      may (Resolver.probe l.config candidate)) (w : World Session ω) :
    (l.infer requested).Keeps server (l.Inquires possible may) (l.Inquires possible may)
      (fun _ _ w' => w'.state.Settled requested) [] w := by
  have hinfer : (l.infer requested).Keeps server (l.Inquires possible may)
      (l.Inquires possible may) (fun _ _ _ => True) [] w := by
    unfold infer
    refine Task.keeps_bind ((inquires_probeAll hs l.config requested hmay [] w).imp
      fun r qs w₁ hr => ?_)
    obtain ⟨hfinds, hsource⟩ := hr
    refine Task.keeps_bind (Task.keeps_act
      (.of_learns (learns_insertResolution hext hfinds _) fun _ => rfl) fun w₂ _ => ?_)
    cases hbody : r.source with
    | some body =>
      obtain ⟨a, ha, hmodule⟩ := hsource body hbody
      exact Task.keeps_act (.of_learns (learns_insertSource ha hmodule _) fun _ => rfl)
        fun _ _ => trivial
    | none => trivial
  refine ((keeps_infer l requested w).and hinfer).imp (fun _ _ _ h => h.1) |>.mono ?_
    fun _ _ h => h.2
  exact fun _ _ h => ⟨h.learns.toSearches, h⟩

end Loader

end ModuleLoader
