import ModuleLoader.Proofs.Graph.Representation
import ModuleLoader.Proofs.Loader.Coherence
import ModuleLoader.Proofs.Loader.Failures

/-! # Modules in a given order

Modules can be compiled in whatever order a caller gives, with repetitions and with modules that no
graph has. Each has one turn, where it is first listed, unless it has been compiled before; what its
specifiers are replaced by is decided by what has been compiled before that turn.

* **`Loader.turns`** is the modules that have a turn, in the order of their turns.
* **`Session.Gains`** says what some turns add to a state: the step is `Loader.gains_turn`, the run
  `Loader.gains_afterCompiling`.
* **`Loader.HasTurn`** is what is done at one turn.
* **`Loader.given_order`** puts these together for every order. -/

namespace ModuleLoader

variable {l : Loader} {s s' s'' : Session} {ω : Type} {server : Server ω}

namespace Loader

/-! ## Who has a turn -/

/-- The modules that have a turn when some are compiled in their order: those that have not been
compiled, each where it is first listed. -/
def turns (c : Cache Module) (order : List Url) : List Url :=
  (order.filter fun m => !c.isCompiled m).eraseDups

/-- No module has two turns. -/
theorem nodup_turns (c : Cache Module) (order : List Url) : (turns c order).Nodup := by
  have h : ((order.filter fun m => !c.isCompiled m).foldl (fun us u => addOnce u us) []).Nodup :=
    nodup_foldl_addOnce _ List.nodup_nil
  rw [foldl_addOnce_eq] at h
  simpa [turns] using h

theorem mem_turns_iff {c : Cache Module} {order : List Url} {m : Url} :
    m ∈ turns c order ↔ m ∈ order ∧ c.isCompiled m = false := by
  simp [turns]

/-- A module that has been compiled has no turn. -/
theorem turns_cons_of_isCompiled {c : Cache Module} {m : Url} (h : c.isCompiled m = true)
    (order : List Url) : turns c (m :: order) = turns c order := by
  rw [turns, List.filter_cons_of_neg (by simp [h])]
  rfl

/-- A module that has not been compiled has its turn, and none later. -/
theorem turns_cons_of_new {c c' : Cache Module} {m : Url} {a : Artifact}
    (hnew : c.isCompiled m = false) (hc : c'.compiled = c.compiled.insert m a)
    (order : List Url) : turns c (m :: order) = m :: turns c' order := by
  have hlater : (order.filter fun v => !c'.isCompiled v) =
      (order.filter fun v => !c.isCompiled v).filter fun v => !(v == m) := by
    rw [List.filter_filter]
    apply List.filter_congr
    intro v _
    rw [Cache.isCompiled, Cache.isCompiled, hc]
    by_cases hv : v = m
    · subst hv
      rw [Memo.contains_insert]
      simp
    · rw [Memo.contains_insert_of_ne _ _ hv]
      simp [hv]
  rw [turns, List.filter_cons_of_pos (by simp [hnew]), List.eraseDups_cons, ← hlater]
  rfl

end Loader

/-! ## What turns add -/

/-- What the turns of some modules add to a state, when they come to `news`. -/
structure Session.Gains (s s' : Session) (news : List (Url × Artifact)) : Prop where
  /-- What the modules have come to is remembered behind what there was. -/
  compiled : s'.cache.compiled.entries = s.cache.compiled.entries ++ news
  /-- No other module's source is remembered. -/
  sources : ∀ v ∉ news.map Prod.fst, s'.cache.sources.get? v = s.cache.sources.get? v
  /-- The transformer has been called once for each of the modules whose source could be had. -/
  called : ∃ calls, s'.compilations = s.compilations ++ calls ∧
    calls.map (·.url) = (news.map Prod.fst).filter s'.cache.sources.contains
  /-- There is a blob for each of the modules that have code. -/
  blobs : ∃ made, s'.blobs.blobs = s.blobs.blobs ++ made ∧
    made.map Prod.fst = news.filterMap (·.2.blobUrl?)

theorem Session.Gains.refl (s : Session) : s.Gains s [] where
  compiled := (List.append_nil _).symm
  sources := fun _ _ => rfl
  called := ⟨[], (List.append_nil _).symm, rfl⟩
  blobs := ⟨[], (List.append_nil _).symm, rfl⟩

/-- Turns of some modules and then of others add what they come to together. -/
theorem Session.Gains.trans {news news' : List (Url × Artifact)} (h : s.Gains s' news)
    (h' : s'.Gains s'' news') (hapart : ∀ v ∈ news.map Prod.fst, v ∉ news'.map Prod.fst) :
    s.Gains s'' (news ++ news') where
  compiled := by rw [h'.compiled, h.compiled, List.append_assoc]
  sources := by
    intro v hv
    rw [List.map_append, List.mem_append, not_or] at hv
    rw [h'.sources v hv.2, h.sources v hv.1]
  called := by
    obtain ⟨calls, hcalls, hurls⟩ := h.called
    obtain ⟨calls', hcalls', hurls'⟩ := h'.called
    refine ⟨calls ++ calls', by rw [hcalls', hcalls, List.append_assoc], ?_⟩
    -- the later turns give the earlier modules no source
    have hsame : (news.map Prod.fst).filter s'.cache.sources.contains =
        (news.map Prod.fst).filter s''.cache.sources.contains := by
      apply List.filter_congr
      intro v hv
      rw [Memo.contains, Memo.contains, h'.sources v (hapart v hv)]
    rw [List.map_append, List.map_append, List.filter_append, hurls, hurls', hsame]
  blobs := by
    obtain ⟨made, hmade, hurls⟩ := h.blobs
    obtain ⟨made', hmade', hurls'⟩ := h'.blobs
    refine ⟨made ++ made', by rw [hmade', hmade, List.append_assoc], ?_⟩
    rw [List.map_append, List.filterMap_append, hurls, hurls']

namespace Loader

/-! ## One turn -/

/-- Fetching a source remembers it if it can be had, and changes nothing otherwise. -/
theorem state_run_fetchSource (server : Server ω) (m : Url) (w : World Session ω) :
    (∃ source, ((fetchSource m).run server w).1 = .ok source ∧
      ((fetchSource m).run server w).2.state.cache.sources.get? m = some source ∧
      ((fetchSource m).run server w).2.state =
        { w.state with cache :=
          { w.state.cache with sources := w.state.cache.sources.insert m source } }) ∨
      ∃ cause, ((fetchSource m).run server w).1 = .error cause ∧
        w.state.cache.sources.get? m = none ∧
        ((fetchSource m).run server w).2.state = w.state := by
  cases hsource : w.state.cache.sources.get? m with
  | some source =>
    rw [run_fetchSource_of_some hsource]
    refine .inl ⟨source, rfl, hsource, ?_⟩
    rw [Memo.insert_of_get?_some _ m source source hsource]
  | none =>
    rw [run_fetchSource_of_none hsource]
    cases (World.ask server ⟨m, .source⟩ w).1.source m with
    | error cause => exact .inr ⟨cause, rfl, rfl, rfl⟩
    | ok text =>
      refine .inl ⟨text, rfl, ?_, rfl⟩
      rw [Memo.get?_insert_self, hsource]
      rfl

/-- A module that has not been compiled is compiled at its turn: what comes of its source is
registered, or the failure to get it. -/
theorem run_compileModule_of_new {m : Url} {w : World Session ω}
    (hnew : w.state.cache.isCompiled m = false) :
    ((l.compileModule m).run server w).2.state =
      match ((fetchSource m).run server w).1 with
      | .ok source => (l.register m source ((fetchSource m).run server w).2.state).2
      | .error cause => (registerFailure m cause ((fetchSource m).run server w).2.state).2 := by
  rw [compileModule, Task.run_look, if_neg (by simp [hnew]), Task.run_bind]
  cases ((fetchSource m).run server w) with
  | mk r v => cases r <;> rfl

/-- A module that has been compiled is left as it is. -/
theorem run_compileModule_of_isCompiled {m : Url} {w : World Session ω}
    (h : w.state.cache.isCompiled m = true) :
    ((l.compileModule m).run server w).2 = w := by
  rw [compileModule, Task.run_look, if_pos h]
  rfl

/-- A turn that has found a source adds what it adds to the state with that source. -/
theorem gains_of_source {m : Url} {source : String} {a : Artifact}
    (h : Session.Gains { s with cache :=
      { s.cache with sources := s.cache.sources.insert m source } } s' [(m, a)]) :
    s.Gains s' [(m, a)] where
  compiled := h.compiled
  sources := by
    intro v hv
    have hne : v ≠ m := by simpa using hv
    rw [h.sources v hv]
    exact Memo.get?_insert_of_ne _ m v source hne
  called := h.called
  blobs := h.blobs

/-- Registering a source adds one call of the transformer, and a blob if there is code. -/
theorem gains_register {m : Url} {source : String} (hnew : s.cache.compiled.get? m = none)
    (hsource : s.cache.sources.get? m = some source) :
    s.Gains (l.register m source s).2
      [(m, artifactOf s m (l.transformation s m source).outcome)] where
  compiled := by
    rw [(compiles_register l m source s).compiled, Memo.entries_insert_of_none hnew]
  sources := fun v _ => by rw [(compiles_register l m source s).sameSources]
  called := by
    refine ⟨_, compilations_register l m source s, ?_⟩
    have hcontains := Memo.contains_of_get? hsource
    rw [(compiles_register l m source s).sameSources]
    simp [hcontains]
  blobs := by
    rw [register_eq]
    cases (l.transformation s m source).outcome with
    | ok compiled => exact ⟨[_], rfl, rfl⟩
    | error cause => exact ⟨[], (List.append_nil _).symm, rfl⟩

/-- Registering the failure to get a source adds no call of the transformer, and no blob. -/
theorem gains_registerFailure {m : Url} (hnew : s.cache.compiled.get? m = none)
    (hsource : s.cache.sources.get? m = none) (cause : Failure) :
    s.Gains (registerFailure m cause s).2 [(m, .failed m cause)] where
  compiled := Memo.entries_insert_of_none hnew _
  sources := fun _ _ => rfl
  called := by
    refine ⟨[], (List.append_nil _).symm, ?_⟩
    have hcontains := Memo.contains_eq_false_iff.2 hsource
    rw [(compiles_registerFailure m cause s).sameSources]
    simp [hcontains]
  blobs := ⟨[], (List.append_nil _).symm, rfl⟩

/-- The turn of a module adds what the module comes to. -/
theorem gains_turn (l : Loader) (server : Server ω) {m : Url} {w : World Session ω}
    (hnew : w.state.cache.isCompiled m = false) :
    ∃ a, w.state.Gains ((l.compileModule m).run server w).2.state [(m, a)] := by
  have hnone : w.state.cache.compiled.get? m = none := Memo.contains_eq_false_iff.1 hnew
  rw [run_compileModule_of_new hnew]
  rcases state_run_fetchSource server m w with ⟨source, hr, hsource, hstate⟩ |
    ⟨cause, hr, hsource, hstate⟩
  · rw [hstate] at hsource
    rw [hr, hstate]
    exact ⟨_, gains_of_source (gains_register hnone hsource)⟩
  · rw [hr, hstate]
    exact ⟨_, gains_registerFailure hnone hsource cause⟩

/-- What is done at the turn of a module in the world `w`, which leads to the state `s`. -/
structure HasTurn (l : Loader) (server : Server ω) (m : Url) (w : World Session ω) (s : Session) :
    Prop where
  /-- When its source can be had, the transformer is called on that, and is told to replace
  specifiers by what has been compiled before the turn. -/
  of_source : ∀ source, ((fetchSource m).run server w).1 = .ok source →
    s = (l.register m source ((fetchSource m).run server w).2.state).2 ∧
      l.transformation ((fetchSource m).run server w).2.state m source =
        l.transformer m source (l.redirectSpecifier w.state.cache m)
  /-- When it cannot, that is all that is remembered. -/
  of_failure : ∀ cause, ((fetchSource m).run server w).1 = .error cause →
    s = (registerFailure m cause ((fetchSource m).run server w).2.state).2
  /-- A specifier is replaced exactly if it is not bare, can be joined to the URL of the module, and
  stands for a module that has code then: by the blob of that. -/
  redirect_iff : ∀ specifier blobUrl,
    l.redirectSpecifier w.state.cache m specifier = some blobUrl ↔
      isBare specifier = false ∧ ∃ u, m.join specifier = .ok u ∧
        w.state.cache.compiled.get? (l.lookupTarget w.state.cache u) = some (.ready blobUrl)

/-- A specifier is replaced by the blob of the module that it stands for when it is joined. -/
theorem redirectSpecifier_eq_some_iff_join (l : Loader) (c : Cache Module) (m : Url)
    (specifier blobUrl : String) :
    l.redirectSpecifier c m specifier = some blobUrl ↔
      isBare specifier = false ∧ ∃ u, m.join specifier = .ok u ∧
        c.compiled.get? (l.lookupTarget c u) = some (.ready blobUrl) := by
  cases hbare : isBare specifier with
  | true => simp [redirectSpecifier_of_isBare c m hbare]
  | false =>
    cases hjoin : m.join specifier with
    | error e => simp [redirectSpecifier, specifierTarget?, resolve?, hbare, hjoin]
    | ok u =>
      have hresolve : resolve? specifier m = some u := by simp [resolve?, hbare, hjoin]
      simp [redirectSpecifier_eq_some_iff hresolve]

/-- A module that has not been compiled has its turn. -/
theorem hasTurn_run_compileModule (l : Loader) (server : Server ω) {m : Url} {w : World Session ω}
    (hnew : w.state.cache.isCompiled m = false) :
    l.HasTurn server m w ((l.compileModule m).run server w).2.state where
  of_source := by
    intro source hr
    refine ⟨by rw [run_compileModule_of_new hnew, hr], ?_⟩
    -- fetching changes neither what has been compiled nor what URLs stand for
    rcases state_run_fetchSource server m w with ⟨_, -, -, hstate⟩ | ⟨_, -, -, hstate⟩ <;>
      rw [hstate] <;> rfl
  of_failure := by
    intro cause hr
    rw [run_compileModule_of_new hnew, hr]
  redirect_iff := redirectSpecifier_eq_some_iff_join l w.state.cache m

/-! ## All turns -/

/-- Compiling modules in some order adds what comes of those that have a turn. -/
theorem gains_afterCompiling (l : Loader) (server : Server ω) (order : List Url)
    (w : World Session ω) :
    ∃ news, news.map Prod.fst = turns w.state.cache order ∧
      w.state.Gains (l.afterCompiling server order w).state news := by
  induction order generalizing w with
  | nil => exact ⟨[], rfl, .refl _⟩
  | cons m order ih =>
    rw [afterCompiling_cons]
    cases hm : w.state.cache.isCompiled m with
    | true =>
      rw [run_compileModule_of_isCompiled hm, turns_cons_of_isCompiled hm]
      exact ih w
    | false =>
      obtain ⟨a, hturn⟩ := gains_turn l server hm
      obtain ⟨news, hnews, hgains⟩ := ih ((l.compileModule m).run server w).2
      have hc := compiled_run_compileModule l server m w
      refine ⟨(m, a) :: news, ?_, hturn.trans hgains ?_⟩
      · rw [List.map_cons, hnews, turns_cons_of_new hm hc]
      -- the module has been compiled then, and so has no other turn
      · intro v hv hlater
        rw [List.map_singleton, List.mem_singleton] at hv
        rw [hnews, mem_turns_iff, Cache.isCompiled, hc, hv, Memo.contains_insert] at hlater
        exact Bool.noConfusion hlater.2

/-- The source of a module is remembered in the end exactly if it could be had at the turn of the
module. -/
theorem sources_contains_afterCompiling_iff (l : Loader) (server : Server ω) {front : List Url}
    {m : Url} (back : List Url) {w : World Session ω}
    (hnew : (l.afterCompiling server front w).state.cache.isCompiled m = false) :
    (l.afterCompiling server (front ++ m :: back) w).state.cache.sources.contains m = true ↔
      ∃ source, ((fetchSource m).run server (l.afterCompiling server front w)).1 =
        .ok source := by
  rw [afterCompiling_append, afterCompiling_cons]
  generalize l.afterCompiling server front w = v at hnew ⊢
  -- the module has no later turn, and so its source stays as it is after its own
  have hlater : (l.afterCompiling server back
      ((l.compileModule m).run server v).2).state.cache.sources.get? m =
      ((l.compileModule m).run server v).2.state.cache.sources.get? m := by
    obtain ⟨news, hnews, hgains⟩ :=
      gains_afterCompiling l server back ((l.compileModule m).run server v).2
    apply hgains.sources
    rw [hnews, mem_turns_iff, Cache.isCompiled, compiled_run_compileModule, Memo.contains_insert]
    exact fun h => Bool.noConfusion h.2
  rw [Memo.contains, hlater, run_compileModule_of_new hnew]
  rcases state_run_fetchSource server m v with ⟨source, hr, hsource, -⟩ |
    ⟨cause, hr, hsource, hstate⟩
  · rw [hr]
    dsimp only
    rw [(compiles_register l m source _).sameSources, hsource]
    exact ⟨fun _ => ⟨source, rfl⟩, fun _ => rfl⟩
  · rw [hr, hstate]
    dsimp only
    rw [(compiles_registerFailure m cause _).sameSources, hsource]
    simp

/-- In whatever state modules are compiled in whatever order, that ends in one way: all of them have
been compiled, and what had been compiled before is as it was. Those that had not been have come to
something in the order in which they are first listed, and the transformer has been called on each
of them once if its source could be had; there is one new blob for each of them that has code. At
its turn, a specifier of a module is replaced by the blob of what has been compiled to code by then,
and so one that stands for the module itself or for one of a later turn is left as it is. -/
theorem given_order (l : Loader) (server : Server ω) (order : List Url) (w : World Session ω) :
    (∀ w', Op.Steps server (l.compileModules order, w) (.done (), w') ↔
      w' = l.afterCompiling server order w) ∧
    (∀ m ∈ order, (l.afterCompiling server order w).state.cache.isCompiled m = true) ∧
    w.state.cache.compiled.Extends (l.afterCompiling server order w).state.cache.compiled ∧
    (turns w.state.cache order).Nodup ∧
    (∃ news, news.map Prod.fst = turns w.state.cache order ∧
      w.state.Gains (l.afterCompiling server order w).state news) ∧
    ∀ front m back, order = front ++ m :: back → m ∉ front →
      w.state.cache.isCompiled m = false →
        l.HasTurn server m (l.afterCompiling server front w)
          (l.afterCompiling server (front ++ [m]) w).state ∧
        ((l.afterCompiling server order w).state.cache.sources.contains m = true ↔
          ∃ source, ((fetchSource m).run server (l.afterCompiling server front w)).1 =
            .ok source) ∧
        ∀ specifier u t, m.join specifier = .ok u →
          l.lookupTarget (l.afterCompiling server front w).state.cache u = t →
          t ∉ front → w.state.cache.isCompiled t = false →
            l.redirectSpecifier (l.afterCompiling server front w).state.cache m specifier =
              none := by
  refine ⟨fun w' => ?_, fun m hm => isCompiled_afterCompiling l server hm w,
    extends_afterCompiling l server order w, nodup_turns _ _,
    gains_afterCompiling l server order w, ?_⟩
  · rw [Op.steps_done_iff (isSequential_compileModules l order), run_compileModules, Prod.mk.injEq]
    simp [eq_comm]
  · rintro front m back rfl hfront hnew
    -- the turns before that of a module do not compile it
    have hbefore : ∀ v ∉ front, w.state.cache.isCompiled v = false →
        (l.afterCompiling server front w).state.cache.isCompiled v = false := by
      intro v hv hc
      rw [Cache.isCompiled, Memo.contains, compiled_afterCompiling_of_notMem l server hv]
      exact hc
    refine ⟨?_, sources_contains_afterCompiling_iff l server back (hbefore m hfront hnew),
      fun specifier u t hjoin htarget ht hc => ?_⟩
    · rw [afterCompiling_append]
      exact hasTurn_run_compileModule l server (hbefore m hfront hnew)
    · rw [Option.eq_none_iff_forall_ne_some]
      intro blobUrl hsome
      obtain ⟨-, u', hu', hready⟩ := (redirectSpecifier_eq_some_iff_join l _ m _ _).1 hsome
      obtain rfl : u = u' := Except.ok.inj (hjoin.symm.trans hu')
      have hcompiled := hbefore t ht hc
      rw [Cache.isCompiled, Memo.contains, ← htarget, hready] at hcompiled
      exact Bool.noConfusion hcompiled

end Loader

end ModuleLoader
