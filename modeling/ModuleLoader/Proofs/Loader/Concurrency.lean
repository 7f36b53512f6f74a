import ModuleLoader.Loader.Call
import ModuleLoader.Proofs.Loader.Coherence
import ModuleLoader.Proofs.Loader.Interleaving

/-! # Blobs of calls that are under way together

A call looks whether a module has been compiled, and then may wait for the source of the module. By
then another call may have compiled the module. So each request for a module that calls wait for
may lead to a blob of its own, and only the first of these is remembered.

* **`Loader.Tally`** bounds the calls of the transformer by the requests that were answered.
* **`Loader.isSafe_perform`** says that calls keep to it, whatever turns they take.
* **`Loader.blobs_of_turns`** says what that comes to for blobs and for forgetting everything.
* **`Loader.two_blobs_for_module`** are two calls that make two blobs for a module. -/

namespace ModuleLoader.Loader

open Relation

variable {ω : Type} {server : Server ω} {l : Loader} {s s' : Session}
variable {qs : List Request} {cs : List Compilation}

/-! ## The tally -/

/-- How many requests are for a URL. -/
def asks (m : Url) (qs : List Request) : Nat := qs.countP fun q => q.url = m

/-- How many calls of the transformer are on a module. -/
def calls (m : Url) (cs : List Compilation) : Nat := cs.countP fun c => c.url = m

/-- Calls on one module are no calls on another. -/
theorem calls_append_of_ne {m v : Url} (hv : v ≠ m) (cs : List Compilation)
    {new : List Compilation} (hnew : ∀ c ∈ new, c.url = m) : calls v (cs ++ new) = calls v cs := by
  have hnone : new.countP (fun c => c.url = v) = 0 := by
    refine List.countP_eq_zero.2 fun c hc hurl => ?_
    exact hv ((of_decide_eq_true hurl).symm.trans (hnew c hc))
  rw [calls, List.countP_append, hnone, Nat.add_zero]
  rfl

/-- The call of the transformer has come to code, which is put into a blob. -/
def MakesBlob (c : Compilation) : Prop := c.outcome.isOk = true

instance (c : Compilation) : Decidable (MakesBlob c) := inferInstanceAs (Decidable (_ = true))

/-- What the requests that were answered, and the calls of the transformer, have to do with what is
remembered, when nothing was at first. -/
structure Tally (s : Session) (qs : List Request) (cs : List Compilation) : Prop where
  /-- A module whose source is remembered has been asked for. -/
  sourced : ∀ m, s.cache.sources.contains m = true → 0 < asks m qs
  /-- A module that has been compiled has been asked for. -/
  compiled : ∀ m, s.cache.isCompiled m = true → 0 < asks m qs
  /-- The transformer has not been called on any other module. -/
  uncompiled : ∀ m, s.cache.compiled.get? m = none → calls m cs = 0
  /-- It has not been called on a module more often than that was asked for. -/
  calls_le : ∀ m, calls m cs ≤ asks m qs
  /-- There are the blobs that it has made. -/
  size : s.blobs.size = cs.countP MakesBlob
  /-- If no module has been asked for twice, they are those of the modules with code. -/
  live : (∀ m, asks m qs ≤ 1) → s.blobs.urls = s.cache.blobUrls

/-- It is all right to register what comes of a module: it has been asked for once more than it
was compiled. -/
structure MayRegister (s : Session) (qs : List Request) (cs : List Compilation) (m : Url) :
    Prop where
  /-- The module has been asked for. -/
  asked : 0 < asks m qs
  /-- The transformer has been called on it less often. -/
  calls_lt : calls m cs < asks m qs
  /-- If it has been asked for just once, it has not been compiled. -/
  alone : asks m qs ≤ 1 → s.cache.compiled.get? m = none

/-- Nothing has been asked for when nothing is remembered. -/
theorem tally_start (hcache : s.cache = .empty) (hblobs : s.blobs.blobs = []) : Tally s [] [] := by
  refine ⟨fun m h => ?_, fun m h => ?_, fun _ _ => rfl, fun _ => Nat.le_refl 0, ?_, fun _ => ?_⟩
  · rw [hcache] at h
    cases h
  · rw [hcache] at h
    cases h
  · rw [BlobStore.size, hblobs]
    rfl
  · rw [BlobStore.urls, hblobs, hcache]
    rfl

namespace Tally

/-- The tally is kept when nothing is compiled and the sources that are remembered have been asked
for. -/
theorem of_sameCompiled (h : Tally s qs cs) (hcompiled : s'.cache.compiled = s.cache.compiled)
    (hblobs : s'.blobs = s.blobs)
    (hsources : ∀ m, s'.cache.sources.contains m = true →
      s.cache.sources.contains m = true ∨ 0 < asks m qs) : Tally s' qs cs where
  sourced := fun m hm => (hsources m hm).elim (h.sourced m) id
  compiled := by
    unfold Cache.isCompiled
    rw [hcompiled]
    exact h.compiled
  uncompiled := by
    rw [hcompiled]
    exact h.uncompiled
  calls_le := h.calls_le
  size := by
    rw [hblobs]
    exact h.size
  live := by
    rw [hblobs, Cache.blobUrls, hcompiled]
    exact h.live

/-- A module has been asked for once more. -/
theorem asks_concat (q : Request) (qs : List Request) (m : Url) :
    asks m (qs ++ [q]) = asks m qs + if q.url = m then 1 else 0 := by
  rw [asks, asks, List.countP_append, List.countP_singleton]
  by_cases h : q.url = m <;> simp [h]

/-- The tally is kept when a module is asked for, and it is all right to register what comes of
that. -/
theorem ask (h : Tally s qs cs) (q : Request) :
    Tally s (qs ++ [q]) cs ∧ MayRegister s (qs ++ [q]) cs q.url := by
  have hle : ∀ m, asks m qs ≤ asks m (qs ++ [q]) := fun m => by
    rw [asks_concat]
    exact Nat.le_add_right _ _
  have hself : asks q.url (qs ++ [q]) = asks q.url qs + 1 := by rw [asks_concat, if_pos rfl]
  refine ⟨⟨fun m hm => Nat.lt_of_lt_of_le (h.sourced m hm) (hle m),
    fun m hm => Nat.lt_of_lt_of_le (h.compiled m hm) (hle m), h.uncompiled,
    fun m => Nat.le_trans (h.calls_le m) (hle m), h.size,
    fun hone => h.live fun m => Nat.le_trans (hle m) (hone m)⟩, ?_, ?_, fun hone => ?_⟩
  · rw [hself]
    exact Nat.succ_pos _
  · rw [hself]
    exact Nat.lt_succ_of_le (h.calls_le _)
  -- the module had not been asked for before, so it had not been compiled
  · by_contra hcompiled
    have := h.compiled q.url (Option.isSome_iff_ne_none.2 hcompiled)
    omega

/-- It is all right to register what comes of a source that is remembered, if the module has not
been compiled. -/
theorem mayRegister (h : Tally s qs cs) {m : Url} (hsource : s.cache.sources.contains m = true)
    (hnew : s.cache.compiled.get? m = none) : MayRegister s qs cs m where
  asked := h.sourced m hsource
  calls_lt := by
    rw [h.uncompiled m hnew]
    exact h.sourced m hsource
  alone := fun _ => hnew

/-- The tally is kept when what comes of a module is registered, with the blob that the transformer
makes if it is called. -/
theorem of_compiles (h : Tally s qs cs) {m : Url} (hm : MayRegister s qs cs m) {a : Artifact}
    (hc : Compiles s s' m a) (new : List Compilation) (hnew : ∀ c ∈ new, c.url = m)
    (hone : new.length ≤ 1) (hurls : s'.blobs.urls = s.blobs.urls ++ a.blobUrl?.toList)
    (hmade : new.countP MakesBlob = a.blobUrl?.toList.length) : Tally s' qs (cs ++ new) where
  sourced := by
    rw [hc.sameSources]
    exact h.sourced
  compiled := by
    intro v hv
    by_cases hvm : v = m
    · exact hvm ▸ hm.asked
    · refine h.compiled v ?_
      rw [Cache.isCompiled, Memo.contains, hc.compiled, Memo.get?_insert_of_ne _ m v a hvm] at hv
      exact hv
  uncompiled := by
    intro v hv
    have hvm : v ≠ m := by
      rintro rfl
      rw [hc.compiled, Memo.get?_insert_self] at hv
      cases hv
    rw [hc.compiled, Memo.get?_insert_of_ne _ m v a hvm] at hv
    rw [calls_append_of_ne hvm cs hnew]
    exact h.uncompiled v hv
  calls_le := by
    intro v
    by_cases hvm : v = m
    · subst hvm
      have hlt := hm.calls_lt
      have hle := List.countP_le_length (p := fun c : Compilation => decide (c.url = v)) (l := new)
      unfold calls at hlt ⊢
      rw [List.countP_append]
      omega
    · rw [calls_append_of_ne hvm cs hnew]
      exact h.calls_le v
  size := by
    have hlength := congrArg List.length hurls
    rw [BlobStore.urls, BlobStore.urls, List.length_append, List.length_map, List.length_map]
      at hlength
    rw [List.countP_append, ← h.size, hmade]
    exact hlength
  live := by
    intro hones
    rw [hurls, h.live hones, blobUrls_of_insert (hm.alone (hones m)) hc.compiled]

/-- The tally is kept when a failure is registered. -/
theorem registerFailure (h : Tally s qs cs) {m : Url} (hm : MayRegister s qs cs m)
    (cause : Failure) : Tally (registerFailure m cause s).2 qs cs := by
  have hkept := h.of_compiles hm (compiles_registerFailure m cause s) [] (fun _ h => nomatch h)
    (Nat.zero_le 1) (List.append_nil _).symm rfl
  rwa [List.append_nil] at hkept

/-- The tally is kept when what comes of a source is registered, with one call of the
transformer. -/
theorem register (h : Tally s qs cs) {m : Url} (hm : MayRegister s qs cs m) (l : Loader)
    (source : String) : Tally (l.register m source s).2 qs
      (cs ++ [⟨m, (l.transformation s m source).outcome.map (·.replaced)⟩]) := by
  refine h.of_compiles hm (compiles_register l m source s) _ (by simp) (Nat.le_refl 1)
    (urls_blobs_register l m source s) ?_
  cases (l.transformation s m source).outcome <;> rfl

end Tally

/-! ## Calls keep to the tally -/

/-- What has been asked for and called since some world is right. -/
def Accounted (start w : World Session ω) : Prop :=
  ∃ qs cs, w.requests = start.requests ++ qs ∧
    w.state.compilations = start.state.compilations ++ cs ∧ Tally w.state qs cs

variable {start w : World Session ω}

/-- What only searches, reports or imports keeps to the tally, if the sources that it remembers have
been asked for. -/
theorem Accounted.of_sameCompiled (h : Accounted start w)
    (hcompiled : s'.cache.compiled = w.state.cache.compiled) (hblobs : s'.blobs = w.state.blobs)
    (hcompilations : s'.compilations = w.state.compilations)
    (hsources : s'.cache.sources = w.state.cache.sources) :
    Accounted start { w with state := s' } := by
  obtain ⟨qs, cs, hqs, hcs, htally⟩ := h
  refine ⟨qs, cs, hqs, hcompilations.trans hcs, htally.of_sameCompiled hcompiled hblobs ?_⟩
  rw [hsources]
  exact fun _ => .inl

/-- A module has been asked for, and what comes of it may be registered. -/
def AskedFor (start : World Session ω) (m : Url) (w : World Session ω) : Prop :=
  ∃ qs cs, w.requests = start.requests ++ qs ∧
    w.state.compilations = start.state.compilations ++ cs ∧ Tally w.state qs cs ∧
    MayRegister w.state qs cs m

/-- What may be registered stays so when something is only reported or resolved. -/
theorem AskedFor.of_sameCompiled {m : Url} (h : AskedFor start m w)
    (hcompiled : s'.cache.compiled = w.state.cache.compiled) (hblobs : s'.blobs = w.state.blobs)
    (hcompilations : s'.compilations = w.state.compilations)
    (hsources : s'.cache.sources = w.state.cache.sources) :
    AskedFor start m { w with state := s' } := by
  obtain ⟨qs, cs, hqs, hcs, htally, hmay⟩ := h
  refine ⟨qs, cs, hqs, hcompilations.trans hcs, htally.of_sameCompiled hcompiled hblobs ?_,
    hmay.asked, hmay.calls_lt, ?_⟩
  · rw [hsources]
    exact fun _ => .inl
  · rw [hcompiled]
    exact hmay.alone

/-- What may be registered is accounted for. -/
theorem AskedFor.accounted {m : Url} (h : AskedFor start m w) : Accounted start w := by
  obtain ⟨qs, cs, hqs, hcs, htally, -⟩ := h
  exact ⟨qs, cs, hqs, hcs, htally⟩

/-- A module that is asked for has been asked for. -/
theorem Accounted.ask (h : Accounted start w) (server : Server ω) (q : Request) :
    AskedFor start q.url (World.ask server q w).2 := by
  obtain ⟨qs, cs, hqs, hcs, htally⟩ := h
  obtain ⟨htally', hmay⟩ := htally.ask q
  refine ⟨qs ++ [q], cs, ?_, hcs, htally', hmay⟩
  change w.requests ++ [q] = start.requests ++ (qs ++ [q])
  rw [hqs, List.append_assoc]

/-- The source of a module that has been asked for may be remembered. -/
theorem AskedFor.insertSource {m : Url} (h : AskedFor start m w) (text : String) :
    AskedFor start m
      { w with state := (Session.remember (fun c => c.insertSource m text) w.state).2 } := by
  obtain ⟨qs, cs, hqs, hcs, htally, hmay⟩ := h
  refine ⟨qs, cs, hqs, hcs, htally.of_sameCompiled rfl rfl fun v hv => ?_,
    hmay.asked, hmay.calls_lt, hmay.alone⟩
  rw [Memo.contains_iff_mem_keys] at hv ⊢
  rw [show (Session.remember (fun c => c.insertSource m text) w.state).2.cache.sources =
    w.state.cache.sources.insert m text from rfl, Memo.keys_insert, mem_addOnce] at hv
  rcases hv with rfl | hv
  · exact .inr hmay.asked
  · exact .inl hv

/-- What comes of a module that may be registered is accounted for. -/
theorem AskedFor.register {m : Url} (h : AskedFor start m w) (l : Loader) (source : String) :
    Accounted start { w with state := (l.register m source w.state).2 } := by
  obtain ⟨qs, cs, hqs, hcs, htally, hmay⟩ := h
  refine ⟨qs, _, hqs, ?_, htally.register hmay l source⟩
  rw [compilations_register, called, hcs, List.append_assoc]

/-- The failure of a module that may be registered is accounted for. -/
theorem AskedFor.registerFailure {m : Url} (h : AskedFor start m w) (cause : Failure) :
    Accounted start { w with state := (registerFailure m cause w.state).2 } := by
  obtain ⟨qs, cs, hqs, hcs, htally, hmay⟩ := h
  exact ⟨qs, cs, hqs, hcs, htally.registerFailure hmay cause⟩

/-- A report is accounted for. -/
theorem Accounted.report (h : Accounted start w) (e : Event) :
    Accounted start { w with state := (Session.report e w.state).2 } :=
  h.of_sameCompiled rfl rfl rfl rfl

/-! ## Tasks and calls -/

/-- Fetching a source leaves all as it was, if the source is remembered; or the module has been
asked for. -/
theorem upholds_fetchSource (url : Url) (h : Accounted start w) :
    (fetchSource url).Upholds server (Accounted start)
      (fun r w' => (∃ source, r = .ok source ∧ w' = w ∧ w.state.cache.sources.get? url = some source)
        ∨ AskedFor start url w') w := by
  unfold fetchSource
  refine Task.upholds_look ?_
  cases hsource : w.state.cache.sources.get? url with
  | some source => exact .inl ⟨source, rfl, rfl, rfl⟩
  | none =>
    refine Task.upholds_ask h fun w₁ hw₁ => ?_
    have hasked := hw₁.ask server ⟨url, .source⟩
    cases (World.ask server ⟨url, .source⟩ w₁).1.source url with
    | error cause => exact .inr hasked
    | ok text => exact .inr (hasked.insertSource text)

/-- Fetching a source is safe. -/
theorem isSafe_fetchSource (url : Url) :
    (fetchSource url).IsSafe server (Accounted start) := by
  refine fun w hw => (upholds_fetchSource url hw).imp fun r w' hw' => ?_
  rcases hw' with ⟨source, -, rfl, -⟩ | hasked
  · exact hw
  · exact hasked.accounted

/-- Compiling a module is safe. -/
theorem isSafe_compileModule (l : Loader) (m : Url) :
    (l.compileModule m).IsSafe server (Accounted start) := by
  intro w hw
  unfold compileModule
  refine Task.upholds_look ?_
  by_cases hcompiled : w.state.cache.isCompiled m = true
  · rw [if_pos hcompiled]
    exact hw
  · rw [if_neg hcompiled]
    refine Task.upholds_bind ((upholds_fetchSource m hw).imp fun r w' hw' => ?_)
    -- a source that is remembered is compiled in the turn in which the module was looked up
    have hasked : AskedFor start m w' := by
      rcases hw' with ⟨source, -, rfl, hsource⟩ | hasked
      · obtain ⟨qs, cs, hqs, hcs, htally⟩ := hw
        exact ⟨qs, cs, hqs, hcs, htally, htally.mayRegister (Option.isSome_of_mem hsource)
          (Option.not_isSome_iff_eq_none.1 hcompiled)⟩
      · exact hasked
    cases r with
    | ok source => exact hasked.register l source
    | error cause => exact hasked.registerFailure cause

/-- Scanning a module is safe. -/
theorem isSafe_scanModule (l : Loader) (url : Url) :
    (l.scanModule url).IsSafe server (Accounted start) := by
  refine (isSafe_fetchSource url).bind fun r => ?_
  cases r with
  | ok source =>
    refine Task.isSafe_act fun w hw => ?_
    unfold scanSource
    by_cases hf : (scan l.config.scanMode source url.pathText).faults > 0
    · simp only [if_pos hf]
      exact hw.report _
    · simp only [if_neg hf]
      exact hw
  | error cause => exact (Task.isSafe_act fun w hw => hw.report _).bind fun _ _ hw => hw

/-- Asking for candidates is safe; a module that is found has been asked for. -/
theorem upholds_probeAll (c : Config) (requested : Url) (candidates : List Url)
    (h : Accounted start w) :
    (Resolver.probeAll c (fun e => Task.act (Session.report e)) requested candidates).Upholds
      server (Accounted start) (fun r w' => Accounted start w' ∧
        ∀ body, r.source = some body → AskedFor start r.url w') w := by
  induction candidates generalizing w with
  | nil => exact ⟨h.report _, fun _ h => nomatch h⟩
  | cons candidate rest ih =>
    refine Task.upholds_ask h fun w₁ hw₁ => ?_
    have hasked := hw₁.ask server (Resolver.probe c candidate)
    cases (World.ask server (Resolver.probe c candidate) w₁).1.moduleBody? with
    | some body =>
      exact ⟨hasked.accounted.report _, fun _ _ => hasked.of_sameCompiled rfl rfl rfl rfl⟩
    | none => exact ih (hasked.accounted.report _)

/-- Finding an extension is safe. -/
theorem isSafe_infer (l : Loader) (requested : Url) :
    (l.infer requested).IsSafe server (Accounted start) := by
  intro w hw
  refine Task.upholds_bind ((upholds_probeAll l.config requested _ hw).imp fun r w₁ hw₁ => ?_)
  obtain ⟨hw₁, hasked⟩ := hw₁
  refine Task.upholds_bind (Task.upholds_act ?_)
  have hresolved : ∀ w' : World Session ω, Accounted start w' →
      Accounted start { w' with state :=
        (Session.remember (fun c => ((), c.insertResolution requested r.url)) w'.state).2 } :=
    fun w' hw' => hw'.of_sameCompiled rfl rfl rfl rfl
  cases hbody : r.source with
  | none => exact hresolved w₁ hw₁
  | some body =>
    have hasked' : AskedFor start r.url { w₁ with state :=
        (Session.remember (fun c => ((), c.insertResolution requested r.url)) w₁.state).2 } :=
      (hasked body hbody).of_sameCompiled rfl rfl rfl rfl
    exact (hasked'.insertSource body).accounted

/-- A wave is safe. -/
theorem isSafe_wave (l : Loader) (waves : Nat) (d : Discovery) :
    (l.wave waves d).IsSafe server (Accounted start) := by
  refine (Op.isSafe_act fun w hw => hw.report _).bind fun _ => ?_
  refine (Op.isSafe_together fun t ht => ?_).bind fun scans => ?_
  · obtain ⟨m, -, rfl⟩ := List.mem_map.1 ht
    exact isSafe_scanModule l m
  refine (Op.isSafe_act fun w hw => hw).bind fun s => ?_
  refine (Op.isSafe_together fun t ht => ?_).bind fun _ => ?_
  · obtain ⟨u, -, rfl⟩ := List.mem_map.1 ht
    exact isSafe_infer l u
  exact Op.isSafe_act fun w hw => hw.of_sameCompiled rfl rfl rfl rfl

/-- A discovery is safe. -/
theorem isSafe_discover (l : Loader) (limit waves : Nat) (d : Discovery) :
    (l.discover limit waves d).IsSafe server (Accounted start) := by
  induction limit generalizing waves d with
  | zero =>
    by_cases hp : d.pending = []
    · rw [discover_of_nil 0 waves hp]
      exact Op.isSafe_done _
    · rw [discover_zero waves hp]
      exact fun _ hw => hw
  | succ limit ih =>
    by_cases hp : d.pending = []
    · rw [discover_of_nil (limit + 1) waves hp]
      exact Op.isSafe_done _
    · rw [discover_succ limit waves hp]
      exact (isSafe_wave l (waves + 1) d).bind fun d => ih (waves + 1) d

/-- Building a graph is safe. -/
theorem isSafe_buildGraph (l : Loader) (limit : Nat) (entry : Url) :
    (l.buildGraph limit entry).IsSafe server (Accounted start) := by
  unfold buildGraph
  refine (Op.isSafe_act fun w hw => hw).bind fun s => ?_
  cases s.cache.graphs.get? entry with
  | some g => exact (Op.isSafe_act fun w hw => hw.report _).bind fun _ => Op.isSafe_done g
  | none =>
    refine (isSafe_discover l limit 0 _).bind fun r => ?_
    refine (Op.isSafe_act fun w hw => hw.report _).bind fun _ => ?_
    exact Op.isSafe_act fun w hw => hw.of_sameCompiled rfl rfl rfl rfl

/-- Compiling modules is safe. -/
theorem isSafe_compileModules (l : Loader) (order : List Url) :
    (l.compileModules order).IsSafe server (Accounted start) := by
  induction order with
  | nil => exact Op.isSafe_done ()
  | cons m order ih => exact (Op.isSafe_one (isSafe_compileModule l m)).bind fun _ => ih

/-- Importing a compiled module is accounted for. -/
theorem Accounted.importEager (h : Accounted start w) (url : Url) (graph : Option Graph)
    (a : Artifact) :
    Accounted start { w with state := (Session.importEager url graph a w.state).2 } := by
  rcases importEager_cases url graph a w.state with ⟨blobUrl, -, -, heq⟩ | ⟨f, u, cause, heq⟩
  · rw [heq]
    cases hread : w.state.readBlob blobUrl with
    | error reason =>
      rw [Session.importBlob_of_error hread]
      exact h
    | ok m =>
      rw [Session.importBlob_of_ok hread]
      exact h.of_sameCompiled rfl rfl rfl rfl
  · rw [heq]
    exact h.report _

/-- Loading a module is safe. -/
theorem isSafe_loadModule (l : Loader) (limit : Nat) (url : Url) :
    (l.loadModule limit url).IsSafe server (Accounted start) := by
  unfold loadModule
  refine (Op.isSafe_act fun w hw => hw).bind fun s => ?_
  cases s.cache.modules.get? url with
  | some m => exact (Op.isSafe_act fun w hw => hw.report _).bind fun _ => Op.isSafe_done _
  | none =>
    refine (isSafe_buildGraph l limit url).bind fun g => ?_
    cases g.topologicalSort with
    | error circle => exact Op.isSafe_done _
    | ok order =>
      refine (isSafe_compileModules l order).bind fun _ => Op.isSafe_act fun w hw => ?_
      cases ha : w.state.cache.compiled.get? url with
      | none =>
        rw [importEntry_of_notCompiled ha]
        exact hw
      | some a =>
        rw [importEntry_of_compiled ha]
        exact hw.importEager _ _ _

/-- Every call but that to forget everything is safe. -/
theorem isSafe_perform (l : Loader) {c : Call} (hc : c ≠ .cleanup) :
    (l.perform c).IsSafe server (Accounted start) := by
  cases c with
  | load limit entry =>
    refine Op.IsSafe.bind ?_ fun _ => Op.isSafe_done ()
    unfold load
    cases Url.parse entry with
    | error e => exact Op.isSafe_done _
    | ok url => exact isSafe_loadModule l limit url
  | loadModule limit url => exact (isSafe_loadModule l limit url).bind fun _ => Op.isSafe_done ()
  | buildGraph limit entry =>
    exact (isSafe_buildGraph l limit entry).bind fun _ => Op.isSafe_done ()
  | fetchSource url =>
    exact (Op.isSafe_one (isSafe_fetchSource url)).bind fun _ => Op.isSafe_done ()
  | compileModules order => exact isSafe_compileModules l order
  | importCompiled url =>
    refine Op.IsSafe.bind (Op.isSafe_act fun w hw => ?_) fun _ => Op.isSafe_done ()
    rcases importCompiled_cases url w.state with heq | ⟨a, -, heq⟩
    · rw [heq]
      exact hw
    · rw [heq]
      exact hw.importEager _ _ _
  | cleanup => exact absurd rfl hc

/-! ## Blobs -/

/-- Whatever turns calls take that begin when nothing is remembered, there is no more than one blob
for every request for a module that was answered. If no module was asked for twice, the live blobs
are those of the modules with code, and to forget everything is to revoke all that were made. -/
theorem blobs_of_turns {todo : List Call} (hc : ∀ c ∈ todo, c ≠ .cleanup)
    {ops : List (Op Session Unit)} (hcache : start.state.cache = .empty)
    (hblobs : start.state.blobs.blobs = [])
    (hturns : Op.Turns server (todo.map l.perform, start) (ops, w)) :
    ∃ qs cs, w.requests = start.requests ++ qs ∧
      w.state.compilations = start.state.compilations ++ cs ∧
      w.state.blobs.size = cs.countP MakesBlob ∧
      (∀ m, cs.countP (fun c => c.url = m ∧ MakesBlob c) ≤ asks m qs) ∧
      ((∀ m, asks m qs ≤ 1) → w.state.blobs.urls = w.state.cache.blobUrls ∧
        (Session.cleanup w.state).1 = cs.countP MakesBlob ∧
        (Session.cleanup w.state).2.blobs.size = 0) := by
  have hsafe : ∀ op ∈ todo.map l.perform, op.IsSafe server (Accounted start) := by
    intro op hop
    obtain ⟨c, hmem, rfl⟩ := List.mem_map.1 hop
    exact isSafe_perform l (hc c hmem)
  have hstart : Accounted start start :=
    ⟨[], [], (List.append_nil _).symm, (List.append_nil _).symm, tally_start hcache hblobs⟩
  obtain ⟨qs, cs, hqs, hcs, htally⟩ := Op.IsSafe.turns hsafe hstart hturns
  refine ⟨qs, cs, hqs, hcs, htally.size, fun m => ?_, fun hones => ?_⟩
  · refine Nat.le_trans (List.countP_mono_left fun c _ hboth => ?_) (htally.calls_le m)
    exact decide_eq_true (of_decide_eq_true hboth).1
  · have hlive := htally.live hones
    refine ⟨hlive, ?_, ?_⟩
    · change w.state.cache.blobUrls.length = _
      rw [← hlive, BlobStore.urls, List.length_map]
      exact htally.size
    · rw [BlobStore.size, blobs_cleanup hlive]
      rfl

/-- Requests for different URLs ask for each once at most. -/
theorem asks_le_one (h : (qs.map Request.url).Nodup) (m : Url) : asks m qs ≤ 1 := by
  have hcount := List.nodup_iff_count_le_one.1 h m
  rw [List.count, List.countP_map] at hcount
  refine Nat.le_trans (List.countP_mono_left fun q _ hq => ?_) hcount
  simpa using hq

/-- Two calls that compile two modules, the second of which imports the first. -/
def compileBoth : List Call :=
  [.compileModules [fileUrl "util.js"], .compileModules [fileUrl "main.js"]]

/-- When both calls wait for their sources at a time, there are two blobs in the end, and to forget
everything is to revoke both. -/
theorem blobs_of_turns_importing :
    ∃ ops, ∃ w : World Session Unit,
      Op.Turns (Server.ofModules importing) (compileBoth.map default.perform, default.start ())
        (ops, w) ∧
      ops.length = 2 ∧ w.state.blobs.size = 2 ∧ (Session.cleanup w.state).1 = 2 ∧
      (Session.cleanup w.state).2.blobs.size = 0 := by
  have hturns : Op.Turns (Server.ofModules importing)
      (compileBoth.map default.perform, default.start ()) (_, _) :=
    .head (.begins [] _ _ _) (.head (.begins [_] _ [] _)
      (.head (.answered [] _ (.call _ _ _ _)) (.single (.answered [_] [] (.call _ _ _ _)))))
  obtain ⟨qs, cs, hqs, -, hsize, -, hforget⟩ := blobs_of_turns (by decide) rfl rfl hturns
  have hones : ∀ m, asks m qs ≤ 1 := by
    refine asks_le_one ?_
    rw [show qs = _ from hqs.symm]
    decide +kernel
  obtain ⟨-, hrevoked, hnone⟩ := hforget hones
  have htwo : cs.countP MakesBlob = 2 := by
    rw [← hsize]
    decide +kernel
  exact ⟨_, _, hturns, rfl, hsize.trans htwo, hrevoked.trans htwo, hnone⟩

/-- A module that imports nothing. -/
def alone : List (String × String) := [("a.js", "export const a = 1;
")]

/-- Two calls that compile the module. -/
def compileTwice : List Call :=
  [.compileModules [fileUrl "a.js"], .compileModules [fileUrl "a.js"]]

/-- When both calls wait for the source at a time, each makes a blob for the module, and to forget
everything is to revoke one of them. -/
theorem two_blobs_for_module :
    ∃ ops, ∃ w : World Session Unit,
      Op.Turns (Server.ofModules alone) (compileTwice.map default.perform, default.start ())
        (ops, w) ∧
      (∀ op ∈ ops, op = .done ()) ∧
      w.state.compilations.countP (fun c => c.url = fileUrl "a.js" ∧ MakesBlob c) = 2 ∧
      w.state.blobs.size = 2 ∧ (Session.cleanup w.state).1 = 1 ∧
      (Session.cleanup w.state).2.blobs.size = 1 := by
  have hturns : Op.Turns (Server.ofModules alone)
      (compileTwice.map default.perform, default.start ()) (_, _) :=
    .head (.begins [] _ _ _) (.head (.begins [_] _ [] _)
      (.head (.answered [] _ (.call _ _ _ _)) (.single (.answered [_] [] (.call _ _ _ _)))))
  refine ⟨_, _, hturns, ?_, ?_, ?_, ?_, ?_⟩
  · intro op hop
    rcases List.mem_cons.1 hop with rfl | hop
    · rfl
    · obtain rfl := List.mem_singleton.1 hop
      rfl
  · decide +kernel
  · decide +kernel
  · decide +kernel
  · decide +kernel

end ModuleLoader.Loader
