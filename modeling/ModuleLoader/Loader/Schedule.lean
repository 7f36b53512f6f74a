import Mathlib.Logic.Relation
import ModuleLoader.Loader.Task

/-! # Answers in whatever order

Tasks that are under way together go on in an order that nobody chooses: each goes on whenever its
answer is there.

* **`Task.Step`** is what a task does next, up to its next request or its next look at the state.
* **`Op.Step`** lets any one of the tasks that are under way together do what it does next.
* **`Op.Steps`** is any number of such steps; work that answers at once is one of these
  (`Op.steps_of_run`).
* **`Op.Path`** keeps the worlds that the steps go through.
* **`Op.IsSequential`** is work with one task in every stage, which has only one order
  (`Op.steps_done_iff`). -/

namespace ModuleLoader

open Relation

variable {σ ω α β : Type}

/-- What a task does next: it changes the state, or it sends a request and gets the answer. -/
inductive Task.Step (server : Server ω) : Task σ α × World σ ω → Task σ α × World σ ω → Prop
  /-- The task changes the state. -/
  | access (change : σ → σ) (next : σ → Task σ α) (w : World σ ω) :
      Step server (.access change next, w) (next w.state, { w with state := change w.state })
  /-- The task sends a request and gets the answer. -/
  | fetch (q : Request) (next : Answer → Task σ α) (w : World σ ω) :
      Step server (.fetch q next, w)
        (next (World.ask server q w).1, (World.ask server q w).2)

/-- What work in stages does next: any of the tasks of a stage goes on, until all have ended. -/
inductive Op.Step (server : Server ω) : Op σ α × World σ ω → Op σ α × World σ ω → Prop
  /-- A task that is alone goes on. -/
  | call {β : Type} {t t' : Task σ β} {w w' : World σ ω} (next : β → Op σ α)
      (h : Task.Step server (t, w) (t', w')) : Step server (.call t next, w) (.call t' next, w')
  /-- A task that is alone has ended. -/
  | ended {β : Type} (b : β) (next : β → Op σ α) (w : World σ ω) :
      Step server (.call (.done b) next, w) (next b, w)
  /-- One of several tasks goes on. -/
  | all {β : Type} {t t' : Task σ β} {w w' : World σ ω} (before after : List (Task σ β))
      (next : List β → Op σ α) (h : Task.Step server (t, w) (t', w')) :
      Step server (.all (before ++ t :: after) next, w) (.all (before ++ t' :: after) next, w')
  /-- All tasks have ended. -/
  | gathered {β : Type} (bs : List β) (next : List β → Op σ α) (w : World σ ω) :
      Step server (.all (bs.map .done) next, w) (next bs, w)

/-- Any number of steps. -/
def Op.Steps (server : Server ω) : Op σ α × World σ ω → Op σ α × World σ ω → Prop :=
  ReflTransGen (Op.Step server)

/-- Any number of steps, with the worlds before and after each of them. -/
inductive Op.Path (server : Server ω) (c : Op σ α × World σ ω) :
    List (World σ ω × World σ ω) → Op σ α × World σ ω → Prop
  /-- No step. -/
  | refl : Path server c [] c
  /-- One more step. -/
  | tail {trace : List (World σ ω × World σ ω)} {d e : Op σ α × World σ ω}
      (h : Path server c trace d) (hs : Op.Step server d e) :
      Path server c (trace ++ [(d.2, e.2)]) e

namespace Op.Path

variable {server : Server ω} {c d : Op σ α × World σ ω} {trace : List (World σ ω × World σ ω)}

/-- A path is a number of steps. -/
theorem steps (h : Path server c trace d) : Steps server c d := by
  induction h with
  | refl => exact .refl
  | tail _ hs ih => exact ih.tail hs

/-- A step of a path has steps before and after it. -/
theorem split (h : Path server c trace d) {w w' : World σ ω} (hp : (w, w') ∈ trace) :
    ∃ op op', Steps server c (op, w) ∧ Step server (op, w) (op', w') ∧
      Steps server (op', w') d := by
  induction h with
  | refl => cases hp
  | @tail trace d e h hs ih =>
    rcases List.mem_append.1 hp with hp | hp
    · obtain ⟨op, op', hbefore, hstep, hafter⟩ := ih hp
      exact ⟨op, op', hbefore, hstep, hafter.tail hs⟩
    · obtain ⟨rfl, rfl⟩ := Prod.mk.inj (List.mem_singleton.1 hp)
      exact ⟨d.1, e.1, h.steps, hs, .refl⟩

/-- What holds in the end and did not hold at the start has come about in one of the steps. -/
theorem exists_step {p : World σ ω → Prop} (h : Path server c trace d) (hc : ¬ p c.2)
    (hd : p d.2) : ∃ w w', (w, w') ∈ trace ∧ ¬ p w ∧ p w' := by
  induction h with
  | refl => exact absurd hd hc
  | @tail trace d e _ _ ih =>
    by_cases hbefore : p d.2
    · obtain ⟨w, w', hmem, hp⟩ := ih hbefore
      exact ⟨w, w', List.mem_append_left _ hmem, hp⟩
    · exact ⟨d.2, e.2, by simp, hbefore, hd⟩

end Op.Path

/-- Any number of steps are the steps of a path. -/
theorem Op.Steps.exists_path {server : Server ω} {c d : Op σ α × World σ ω}
    (h : Op.Steps server c d) : ∃ trace, Op.Path server c trace d := by
  induction h with
  | refl => exact ⟨[], .refl⟩
  | tail _ hs ih =>
    obtain ⟨trace, hpath⟩ := ih
    exact ⟨_, hpath.tail hs⟩

/-! ## Answers at once are one of the orders -/

/-- A task whose requests are answered at once goes step by step to its end. -/
theorem Task.steps_run (server : Server ω) (t : Task σ α) (w : World σ ω) :
    ReflTransGen (Task.Step server) (t, w) (.done (t.run server w).1, (t.run server w).2) := by
  induction t generalizing w with
  | done a => exact .refl
  | access change next ih => exact .head (.access change next w) (ih w.state _)
  | fetch q next ih => exact .head (.fetch q next w) (ih (World.ask server q w).1 _)

/-- No tasks leave the world as it is. -/
theorem Task.runAll_nil (server : Server ω) (w : World σ ω) :
    Task.runAll server ([] : List (Task σ α)) w = ([], w) := rfl

/-- The first of several tasks is done before the others. -/
theorem Task.runAll_cons (server : Server ω) (t : Task σ α) (rest : List (Task σ α))
    (w : World σ ω) :
    Task.runAll server (t :: rest) w =
      ((t.run server w).1 :: (Task.runAll server rest (t.run server w).2).1,
        (Task.runAll server rest (t.run server w).2).2) := by
  unfold Task.runAll
  rw [List.mapM_cons]
  rfl

namespace Op

/-- The steps of a task are steps of the work that waits for it. -/
theorem steps_call {server : Server ω} {t t' : Task σ β} {w w' : World σ ω} (next : β → Op σ α)
    (h : ReflTransGen (Task.Step server) (t, w) (t', w')) :
    Steps server (.call t next, w) (.call t' next, w') :=
  ReflTransGen.lift (p := Op.Step server) (fun c : Task σ β × World σ ω => (.call c.1 next, c.2))
    (fun _ _ hstep => Step.call next hstep) _ _ h

/-- The steps of one of several tasks are steps of the work that waits for all. -/
theorem steps_all {server : Server ω} {t t' : Task σ β} {w w' : World σ ω}
    (before after : List (Task σ β)) (next : List β → Op σ α)
    (h : ReflTransGen (Task.Step server) (t, w) (t', w')) :
    Steps server (.all (before ++ t :: after) next, w) (.all (before ++ t' :: after) next, w') :=
  ReflTransGen.lift (p := Op.Step server)
    (fun c : Task σ β × World σ ω => (.all (before ++ c.1 :: after) next, c.2))
    (fun _ _ hstep => Step.all before after next hstep) _ _ h

/-- Doing several tasks one after the other is one order of doing them together. -/
theorem steps_runAll (server : Server ω) (done : List β) (tasks : List (Task σ β))
    (next : List β → Op σ α) (w : World σ ω) :
    Steps server (.all (done.map .done ++ tasks) next, w)
      (next (done ++ (Task.runAll server tasks w).1), (Task.runAll server tasks w).2) := by
  induction tasks generalizing done w with
  | nil =>
    rw [List.append_nil, Task.runAll_nil, List.append_nil]
    exact .single (.gathered done next w)
  | cons t rest ih =>
    have first := steps_all (done.map .done) rest next (t.steps_run server w)
    have others := ih (done ++ [(t.run server w).1]) (t.run server w).2
    rw [List.map_append, List.append_assoc, List.append_assoc] at others
    rw [Task.runAll_cons]
    exact first.trans others

/-- Work whose requests are all answered at once goes step by step to its end. -/
theorem steps_of_run {server : Server ω} {op : Op σ α} {w w' : World σ ω} {a : α}
    (h : op.run server w = (some a, w')) : Steps server (op, w) (.done a, w') := by
  induction op generalizing w with
  | done b =>
    cases h
    exact .refl
  | endless => cases h
  | call t next ih =>
    have first := (steps_call next (t.steps_run server w)).tail (.ended _ next _)
    exact first.trans (ih _ h)
  | all tasks next ih =>
    exact (steps_runAll server [] tasks next w).trans (ih _ h)

/-- Work that ends when its requests are answered at once can go step by step to that end. -/
theorem steps_of_fst_run {server : Server ω} {op : Op σ α} {w : World σ ω} {a : α}
    (h : (op.run server w).1 = some a) :
    Steps server (op, w) (.done a, (op.run server w).2) :=
  steps_of_run (Prod.ext h rfl)

/-- Work that comes to something when its requests are answered at once can go that way. -/
theorem exists_path_of_run {ε : Type} {server : Server ω} {op : Op σ (Except ε α)} {w : World σ ω}
    (h : (op.run server w).1.any Except.isOk = true) :
    ∃ trace a, Path server (op, w) trace (.done (.ok a), (op.run server w).2) := by
  obtain ⟨r, hrun, hr⟩ := (Option.any_eq_true _ _).1 h
  cases r with
  | error e => cases hr
  | ok a =>
    obtain ⟨trace, hpath⟩ := (steps_of_fst_run hrun).exists_path
    exact ⟨trace, a, hpath⟩

/-! ## Work that goes on with more work -/

/-- A step of work that goes on with more: either the first work is over, or it does the step. -/
theorem step_bind {server : Server ω} {x : Op σ α} {f : α → Op σ β} {w : World σ ω}
    {c : Op σ β × World σ ω} (h : Step server (x.bind f, w) c) :
    (∃ a, x = .done a ∧ Step server (f a, w) c) ∨
      ∃ x' w', c = (x'.bind f, w') ∧ Step server (x, w) (x', w') := by
  cases x with
  | done a => exact .inl ⟨a, rfl, h⟩
  | endless =>
    change Step server (.endless, w) c at h
    cases h
  | call t next =>
    change Step server (.call t fun b => (next b).bind f, w) c at h
    cases h with
    | call _ ht => exact .inr ⟨_, _, rfl, .call next ht⟩
    | ended b => exact .inr ⟨next b, w, rfl, .ended b next w⟩
  | all tasks next =>
    change Step server (.all tasks fun bs => (next bs).bind f, w) c at h
    cases h with
    | all before after _ ht => exact .inr ⟨_, _, rfl, .all before after next ht⟩
    | gathered bs => exact .inr ⟨next bs, w, rfl, .gathered bs next w⟩

/-- The first work takes its steps whatever follows it. -/
theorem Steps.bind {server : Server ω} {x x' : Op σ α} {w w' : World σ ω} (f : α → Op σ β)
    (h : Steps server (x, w) (x', w')) : Steps server (x.bind f, w) (x'.bind f, w') := by
  refine ReflTransGen.lift (p := Op.Step server)
    (fun c : Op σ α × World σ ω => (c.1.bind f, c.2)) ?_ _ _ h
  rintro _ _ (⟨next, ht⟩ | ⟨b, next, w⟩ | ⟨before, after, next, ht⟩ | ⟨bs, next, w⟩)
  · exact .call _ ht
  · exact .ended b _ w
  · exact .all before after _ ht
  · exact .gathered bs _ w

/-- Work that goes on with more is still at the first work or has ended it and gone on. -/
theorem steps_bind {server : Server ω} {x : Op σ α} {f : α → Op σ β} {w : World σ ω}
    {c : Op σ β × World σ ω} (h : Steps server (x.bind f, w) c) :
    (∃ x' w', c = (x'.bind f, w') ∧ Steps server (x, w) (x', w')) ∨
      ∃ a w1, Steps server (x, w) (.done a, w1) ∧ Steps server (f a, w1) c := by
  induction h with
  | refl => exact .inl ⟨x, w, rfl, .refl⟩
  | tail _ hstep ih =>
    rcases ih with ⟨x', w', rfl, hx⟩ | ⟨a, w1, hx, hf⟩
    · rcases step_bind hstep with ⟨a, rfl, hf⟩ | ⟨x'', w'', rfl, hx'⟩
      · exact .inr ⟨a, w', hx, .single hf⟩
      · exact .inl ⟨x'', w'', rfl, hx.tail hx'⟩
    · exact .inr ⟨a, w1, hx, hf.tail hstep⟩

/-- Work that goes on with more ends by ending the first work and then what follows. -/
theorem steps_bind_done {server : Server ω} {x : Op σ α} {f : α → Op σ β} {w w' : World σ ω}
    {b : β} :
    Steps server (x.bind f, w) (.done b, w') ↔
      ∃ a w1, Steps server (x, w) (.done a, w1) ∧ Steps server (f a, w1) (.done b, w') := by
  constructor
  · intro h
    rcases steps_bind h with ⟨x', w1, hc, hx⟩ | h
    · obtain ⟨hb, rfl⟩ := Prod.mk.inj hc
      cases x' with
      | done a => exact ⟨a, w', hx, hb ▸ .refl⟩
      | endless => cases hb
      | call t next => cases hb
      | all tasks next => cases hb
    · exact h
  · rintro ⟨a, w1, hx, hf⟩
    exact (hx.bind f).trans hf

end Op

/-! ## Work with one order only -/

/-- A task goes to the same end from every point on its way. -/
theorem Task.run_eq_of_step {server : Server ω} {t t' : Task σ α} {w w' : World σ ω}
    (h : Task.Step server (t, w) (t', w')) : t.run server w = t'.run server w' := by
  cases h with
  | access change next => rfl
  | fetch q next => rfl

/-- Doing a task and going on is doing both. -/
theorem Task.run_bind (server : Server ω) (t : Task σ α) (f : α → Task σ β) (w : World σ ω) :
    (t >>= f).run server w = (f (t.run server w).1).run server (t.run server w).2 := by
  change (t.bind f).run server w = _
  induction t generalizing w with
  | done a => rfl
  | access change next ih => exact ih w.state _
  | fetch q next ih => exact ih (World.ask server q w).1 _

/-- A task that looks at the state takes a step to go on with what it sees. -/
theorem Task.step_look {server : Server ω} (f : σ → Task σ α) (w : World σ ω) :
    Task.Step server (Task.act get >>= f, w) (f w.state, w) :=
  .access _ _ w

/-- The first task takes its steps whatever follows it. -/
theorem Task.Step.bind {server : Server ω} {t t' : Task σ α} {w w' : World σ ω} (f : α → Task σ β)
    (h : Task.Step server (t, w) (t', w')) : Task.Step server (t >>= f, w) (t' >>= f, w') := by
  cases h with
  | access change next => exact .access _ _ w
  | fetch q next => exact .fetch q _ w

/-- A task that looks at the state goes on with what it sees. -/
theorem Task.run_look (server : Server ω) (f : σ → Task σ α) (w : World σ ω) :
    (Task.act get >>= f).run server w = (f w.state).run server w :=
  rfl

/-- A task that sends a request goes on with its answer. -/
theorem Task.run_ask (server : Server ω) (q : Request) (f : Answer → Task σ α) (w : World σ ω) :
    (Task.ask q >>= f).run server w =
      (f (World.ask server q w).1).run server (World.ask server q w).2 :=
  rfl

namespace Op

/-- Every stage has one task. -/
def IsSequential : Op σ α → Prop
  | .done _ => True
  | .endless => True
  | .call _ next => ∀ b, (next b).IsSequential
  | .all _ _ => False

/-- Going on with work that has one task in every stage. -/
theorem IsSequential.bind {x : Op σ α} {f : α → Op σ β} (hx : x.IsSequential)
    (hf : ∀ a, (f a).IsSequential) : (x >>= f).IsSequential := by
  change (x.bind f).IsSequential
  induction x with
  | done a => exact hf a
  | endless => trivial
  | call t next ih => exact fun b => ih b (hx b)
  | all tasks next => exact hx.elim

/-- Work with one task in every stage goes to the same end from every point on its way. -/
theorem run_eq_of_step {server : Server ω} {op op' : Op σ α} {w w' : World σ ω}
    (hop : op.IsSequential) (h : Step server (op, w) (op', w')) :
    op'.IsSequential ∧ op.run server w = op'.run server w' := by
  cases h with
  | call next ht =>
    refine ⟨hop, ?_⟩
    have := Task.run_eq_of_step ht
    rename_i t t'
    change (next (t.run server w).1).run server (t.run server w).2 =
      (next (t'.run server w').1).run server (t'.run server w').2
    rw [this]
  | ended b next => exact ⟨hop b, rfl⟩
  | all before after next ht => exact hop.elim
  | gathered bs next => exact hop.elim

/-- Work with one task in every stage goes to the same end from wherever its steps lead. -/
theorem run_eq_of_steps {server : Server ω} {op : Op σ α} {w : World σ ω}
    {c : Op σ α × World σ ω} (hop : op.IsSequential) (h : Steps server (op, w) c) :
    c.1.IsSequential ∧ op.run server w = c.1.run server c.2 := by
  induction h with
  | refl => exact ⟨hop, rfl⟩
  | tail _ hstep ih =>
    obtain ⟨hseq, hrun⟩ := run_eq_of_step ih.1 hstep
    exact ⟨hseq, ih.2.trans hrun⟩

/-- Work with one task in every stage can only end as it does when requests are answered at
once. -/
theorem steps_done_iff {server : Server ω} {op : Op σ α} {w w' : World σ ω} {a : α}
    (hop : op.IsSequential) :
    Steps server (op, w) (.done a, w') ↔ op.run server w = (some a, w') :=
  ⟨fun h => (run_eq_of_steps hop h).2, steps_of_run⟩

/-- Work that looks at the state goes on with what it sees. -/
theorem steps_look {server : Server ω} (f : σ → Op σ α) (w : World σ ω) :
    Steps server (Op.act get >>= f, w) (f w.state, w) :=
  .head (.call _ (.access _ _ w)) (.single (.ended w.state _ w))

/-- Work that has ended stays as it is. -/
theorem eq_of_steps_done {server : Server ω} {w w' : World σ ω} {a b : α}
    (h : Steps server (.done a, w) (.done b, w')) : b = a ∧ w' = w := by
  have hseq : (Op.done a : Op σ α).IsSequential := trivial
  cases (steps_done_iff hseq).1 h
  exact ⟨rfl, rfl⟩

/-- Doing something to the state ends with what comes of that. -/
theorem steps_act_done_iff {server : Server ω} {g : StateM σ β} {w w' : World σ ω} {b : β} :
    Steps server (Op.act g, w) (.done b, w') ↔
      b = (g w.state).1 ∧ w' = { w with state := (g w.state).2 } := by
  have hseq : (Op.act g : Op σ β).IsSequential := fun _ => trivial
  rw [steps_done_iff hseq]
  constructor
  · intro h
    cases h
    exact ⟨rfl, rfl⟩
  · rintro ⟨rfl, rfl⟩
    rfl

/-- Work that does something to the state ends as it does with what comes of that. -/
theorem steps_act_iff {server : Server ω} {g : StateM σ β} {f : β → Op σ α} {w w' : World σ ω}
    {a : α} :
    Steps server (Op.act g >>= f, w) (.done a, w') ↔
      Steps server (f (g w.state).1, { w with state := (g w.state).2 }) (.done a, w') := by
  constructor
  · intro h
    obtain ⟨b, w₁, hact, hrest⟩ := steps_bind_done.1 h
    obtain ⟨rfl, rfl⟩ := steps_act_done_iff.1 hact
    exact hrest
  · intro h
    exact .head (.call _ (.access _ _ w)) (.head (.ended (g w.state).1 _ _) h)

/-- So it ends as it does with what it sees. -/
theorem steps_look_iff {server : Server ω} {f : σ → Op σ α} {w w' : World σ ω} {a : α} :
    Steps server (Op.act get >>= f, w) (.done a, w') ↔
      Steps server (f w.state, w) (.done a, w') :=
  steps_act_iff

/-- Doing work and going on is doing both, if the first ends. -/
theorem run_bind {server : Server ω} {x : Op σ α} {f : α → Op σ β} {w w' : World σ ω} {a : α}
    (h : x.run server w = (some a, w')) : (x >>= f).run server w = (f a).run server w' := by
  change (x.bind f).run server w = _
  induction x generalizing w with
  | done b =>
    cases h
    rfl
  | endless => cases h
  | call t next ih => exact ih _ h
  | all tasks next ih => exact ih _ h

end Op

end ModuleLoader
