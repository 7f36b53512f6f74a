import ModuleLoader.Proofs.Loader.Interference

/-! # Work that ends

Every step takes something away from the work that is left, so no work goes on for ever. What can
go wrong is that it comes to a point where it counts as work that never ends.

* **`Op.Terminates`** is work that ends with a result in whatever order its steps come.
* **`Op.acc_step`** says that there is no endless run of steps.
* **`Op.attempt`** is the work that ends with nothing where it would never end;
  **`Op.terminates_of_keeps_attempt`** says that the work terminates if that never happens. -/

namespace ModuleLoader

open Relation

variable {σ ω α β : Type}

/-! ## No endless run of steps -/

/-- What may be left of a task after its next step. -/
inductive Task.Left : Task σ α → Task σ α → Prop
  /-- The task has changed the state. -/
  | access (change : σ → σ) (next : σ → Task σ α) (s : σ) : Left (next s) (.access change next)
  /-- The task has got an answer. -/
  | fetch (q : Request) (next : Answer → Task σ α) (a : Answer) : Left (next a) (.fetch q next)

/-- A step of a task leaves what may be left. -/
theorem Task.Step.left {server : Server ω} {t t' : Task σ α} {w w' : World σ ω}
    (h : Task.Step server (t, w) (t', w')) : Task.Left t' t := by
  cases h with
  | access change next => exact .access change next _
  | fetch q next => exact .fetch q next _

/-- A task is left in ever smaller parts. -/
theorem Task.acc_left (t : Task σ α) : Acc Task.Left t := by
  induction t with
  | done a => exact ⟨_, fun _ h => nomatch h⟩
  | access change next ih =>
    refine ⟨_, fun t' h => ?_⟩
    cases h with
    | access => exact ih _
  | fetch q next ih =>
    refine ⟨_, fun t' h => ?_⟩
    cases h with
    | fetch => exact ih _

/-- What may be left of several tasks after the next step of one of them. -/
def Task.OneLeft (tasks' tasks : List (Task σ α)) : Prop :=
  ∃ before t t' after, tasks = before ++ t :: after ∧ tasks' = before ++ t' :: after ∧
    Task.Left t' t

/-- Several tasks are left in ever smaller parts. -/
theorem Task.acc_oneLeft (tasks : List (Task σ α)) : Acc Task.OneLeft tasks := by
  induction tasks with
  | nil =>
    refine ⟨_, fun tasks' h => ?_⟩
    obtain ⟨before, t, t', after, heq, -⟩ := h
    simp at heq
  | cons t tasks ih =>
    -- a step is one of the first task or one of the others
    have hacc := t.acc_left
    induction hacc generalizing tasks with
    | intro t _ iht =>
      induction ih with
      | intro tasks htasks ihtasks =>
        refine ⟨_, fun tasks' h => ?_⟩
        obtain ⟨before, u, u', after, heq, rfl, hleft⟩ := h
        cases before with
        | nil =>
          obtain ⟨rfl, rfl⟩ := List.cons.inj heq
          exact iht u' hleft tasks ⟨tasks, htasks⟩
        | cons first before =>
          obtain ⟨rfl, rfl⟩ := List.cons.inj heq
          exact ihtasks _ ⟨before, u, u', after, rfl, rfl, hleft⟩

namespace Op

/-- There is no endless run of steps. -/
theorem acc_step (server : Server ω) (op : Op σ α) (w : World σ ω) :
    Acc (fun d c => Step server c d) (op, w) := by
  induction op generalizing w with
  | done a => exact ⟨_, fun _ h => nomatch h⟩
  | endless => exact ⟨_, fun _ h => nomatch h⟩
  | call t next ih =>
    -- the induction is on the task that is under way
    have hacc := t.acc_left
    induction hacc generalizing w with
    | intro t _ iht =>
      refine ⟨_, fun d h => ?_⟩
      cases h with
      | call _ ht => exact iht _ ht.left _
      | ended b _ => exact ih b w
  | all tasks next ih =>
    have hacc := Task.acc_oneLeft tasks
    induction hacc generalizing w with
    | intro tasks _ ihtasks =>
      refine ⟨_, fun d h => ?_⟩
      cases h with
      | all before after _ ht => exact ihtasks _ ⟨before, _, _, after, rfl, rfl, ht.left⟩ _
      | gathered bs _ => exact ih bs w

/-! ## Work that ends with a result -/

/-- The work ends with a result, in whatever order its steps come. -/
structure Terminates (server : Server ω) (c : Op σ α × World σ ω) : Prop where
  /-- There is no endless run of steps. -/
  ends : Acc (fun d c => Step server c d) c
  /-- Where no step is left, there is a result. -/
  returns : ∀ d, Steps server c d → (∀ e, ¬ Step server d e) → ∃ a, d.1 = .done a

/-- A task that has not ended has a next step. -/
theorem exists_taskStep (server : Server ω) (t : Task σ α) (w : World σ ω) :
    (∃ a, t = .done a) ∨ ∃ c, Task.Step server (t, w) c := by
  cases t with
  | done a => exact .inl ⟨a, rfl⟩
  | access change next => exact .inr ⟨_, .access change next w⟩
  | fetch q next => exact .inr ⟨_, .fetch q next w⟩

/-- Several tasks have ended, or one of them has a next step. -/
theorem exists_taskStep_of_list (server : Server ω) (tasks : List (Task σ α)) (w : World σ ω) :
    (∃ bs : List α, tasks = bs.map .done) ∨
      ∃ before t after c, tasks = before ++ t :: after ∧ Task.Step server (t, w) c := by
  induction tasks with
  | nil => exact .inl ⟨[], rfl⟩
  | cons t tasks ih =>
    rcases exists_taskStep server t w with ⟨a, rfl⟩ | ⟨c, hc⟩
    · rcases ih with ⟨bs, rfl⟩ | ⟨before, u, after, c, rfl, hc⟩
      · exact .inl ⟨a :: bs, rfl⟩
      · exact .inr ⟨.done a :: before, u, after, c, rfl, hc⟩
    · exact .inr ⟨[], t, tasks, c, rfl, hc⟩

/-- Work that has no next step has ended, or counts as work that never ends. -/
theorem exists_step (server : Server ω) (op : Op σ α) (w : World σ ω) :
    (∃ a, op = .done a) ∨ op = .endless ∨ ∃ c, Step server (op, w) c := by
  cases op with
  | done a => exact .inl ⟨a, rfl⟩
  | endless => exact .inr (.inl rfl)
  | call t next =>
    rcases exists_taskStep server t w with ⟨b, rfl⟩ | ⟨c, hc⟩
    · exact .inr (.inr ⟨_, .ended b next w⟩)
    · exact .inr (.inr ⟨_, .call next hc⟩)
  | all tasks next =>
    rcases exists_taskStep_of_list server tasks w with ⟨bs, rfl⟩ | ⟨before, t, after, c, rfl, hc⟩
    · exact .inr (.inr ⟨_, .gathered bs next w⟩)
    · exact .inr (.inr ⟨_, .all before after next hc⟩)

/-- Work terminates if it never comes to a point where it counts as work that never ends. -/
theorem terminates_of_ne_endless {server : Server ω} {op : Op σ α} {w : World σ ω}
    (h : ∀ d, Steps server (op, w) d → d.1 ≠ .endless) : Terminates server (op, w) where
  ends := acc_step server op w
  returns := by
    rintro ⟨op', w'⟩ hd hstuck
    rcases exists_step server op' w' with hdone | rfl | ⟨c, hc⟩
    · exact hdone
    · exact absurd rfl (h _ hd)
    · exact absurd hc (hstuck c)

/-- Work that terminates can come to a result from wherever it is on its way. -/
theorem Terminates.exists_done {server : Server ω} {c d : Op σ α × World σ ω}
    (h : Terminates server c) (hd : Steps server c d) :
    ∃ a w', Steps server d (.done a, w') := by
  have hacc : Acc (fun d c => Step server c d) d := acc_step server d.1 d.2
  induction hacc with
  | intro d _ ih =>
    by_cases hstep : ∃ e, Step server d e
    · obtain ⟨e, he⟩ := hstep
      obtain ⟨a, w', hdone⟩ := ih e he (hd.tail he)
      exact ⟨a, w', .head he hdone⟩
    · obtain ⟨op, w'⟩ := d
      obtain ⟨a, rfl⟩ := h.returns _ hd fun e he => hstep ⟨e, he⟩
      exact ⟨a, w', .refl⟩

/-- Work that terminates never comes to a point where it counts as work that never ends. -/
theorem Terminates.ne_endless {server : Server ω} {c d : Op σ α × World σ ω}
    (h : Terminates server c) (hd : Steps server c d) : d.1 ≠ .endless := by
  obtain ⟨op, w⟩ := d
  rintro rfl
  obtain ⟨a, ha⟩ := h.returns _ hd fun e he => nomatch he
  cases ha

/-- Work that terminates does so from wherever it is on its way. -/
theorem Terminates.of_steps {server : Server ω} {c d : Op σ α × World σ ω}
    (h : Terminates server c) (hd : Steps server c d) : Terminates server d :=
  terminates_of_ne_endless fun _ hrest => h.ne_endless (hd.trans hrest)

/-- Work that goes on with more terminates if the first work does and then what follows. -/
theorem Terminates.bind {server : Server ω} {x : Op σ α} {f : α → Op σ β} {w : World σ ω}
    (hx : Terminates server (x, w))
    (hf : ∀ a w', Steps server (x, w) (.done a, w') → Terminates server (f a, w')) :
    Terminates server (x.bind f, w) := by
  refine terminates_of_ne_endless fun d hd => ?_
  rcases steps_bind hd with ⟨x', w', rfl, hx'⟩ | ⟨a, w', hx', hd⟩
  · cases x' with
    | done a => exact (hf a w' hx').ne_endless .refl
    | endless => exact absurd rfl (hx.ne_endless hx')
    | call t next => exact fun h => nomatch h
    | all tasks next => exact fun h => nomatch h
  · exact (hf a w' hx').ne_endless hd

/-- Work with one task in every stage terminates if it ends when requests are answered at once. -/
theorem terminates_of_run {server : Server ω} {op : Op σ α} {w w' : World σ ω} {a : α}
    (hop : op.IsSequential) (h : op.run server w = (some a, w')) : Terminates server (op, w) := by
  refine terminates_of_ne_endless ?_
  rintro ⟨op', w₁⟩ hd rfl
  have hrun : op.run server w = (none, w₁) := (run_eq_of_steps hop hd).2
  rw [h] at hrun
  cases hrun

/-- Work that looks at the state terminates if it does with what it sees. -/
theorem Terminates.look {server : Server ω} {f : σ → Op σ α} {w : World σ ω}
    (h : Terminates server (f w.state, w)) : Terminates server (Op.act get >>= f, w) := by
  have hlook : (Op.act get : Op σ σ).IsSequential := fun _ => trivial
  refine Terminates.bind (terminates_of_run hlook rfl) fun s w₁ hget => ?_
  cases (steps_done_iff hlook).1 hget
  exact h

/-! ## Attempts -/

/-- The work, which ends with nothing where it would never end. -/
def attempt : Op σ α → Op σ (Option α)
  | .done a => .done (some a)
  | .endless => .done none
  | .call t next => .call t fun b => (next b).attempt
  | .all tasks next => .all tasks fun bs => (next bs).attempt

/-- An attempt at work that goes on with more is an attempt at the first, and then at the rest. -/
theorem attempt_bind (x : Op σ α) (f : α → Op σ β) :
    (x >>= f).attempt = x.attempt >>= fun r =>
      match r with
      | some a => (f a).attempt
      | none => .done none := by
  change (x.bind f).attempt = x.attempt.bind _
  induction x with
  | done a => rfl
  | endless => rfl
  | call t next ih => exact congrArg (Op.call t) (funext ih)
  | all tasks next ih => exact congrArg (Op.all tasks) (funext ih)

/-- An attempt at work that begins with a look at the state does that first. -/
theorem attempt_act_bind (f : StateM σ α) (g : α → Op σ β) :
    (Op.act f >>= g).attempt = Op.act f >>= fun a => (g a).attempt :=
  rfl

/-- An attempt takes the steps of the work. -/
theorem Step.attempt {server : Server ω} {op op' : Op σ α} {w w' : World σ ω}
    (h : Step server (op, w) (op', w')) : Step server (op.attempt, w) (op'.attempt, w') := by
  cases h with
  | call next ht => exact .call _ ht
  | ended b next => exact .ended b _ w
  | all before after next ht => exact .all before after _ ht
  | gathered bs next => exact .gathered bs _ w

/-- An attempt takes any number of steps of the work. -/
theorem Steps.attempt {server : Server ω} {op op' : Op σ α} {w w' : World σ ω}
    (h : Steps server (op, w) (op', w')) : Steps server (op.attempt, w) (op'.attempt, w') :=
  ReflTransGen.lift (p := Op.Step server) (fun c : Op σ α × World σ ω => (c.1.attempt, c.2))
    (fun _ _ hstep => Step.attempt hstep) _ _ h

/-- An attempt that keeps its promise is work that keeps it. -/
theorem Keeps.of_attempt {server : Server ω} {promise : World σ ω → World σ ω → Prop}
    {ends : Option α → World σ ω → Prop} {x : Op σ α} {w : World σ ω}
    (h : x.attempt.Keeps server promise ends w) :
    x.Keeps server promise (fun a => ends (some a)) w := by
  induction x generalizing w with
  | done a => exact h
  | endless => trivial
  | call t next ih =>
    obtain ⟨base, asked, hr, ht⟩ := h
    exact ⟨base, asked, hr, ht.imp fun b qs w' hb hr => ih b (hb hr)⟩
  | all tasks next ih =>
    obtain ⟨among, base, pledges, hp, ht, hk, hn⟩ := h
    exact ⟨among, base, pledges, hp, ht, hk, fun results w' hw he hr =>
      ih _ (hn results w' hw he hr)⟩

/-- Work terminates if an attempt at it never ends with nothing. -/
theorem terminates_of_keeps_attempt {server : Server ω}
    {promise : World σ ω → World σ ω → Prop} {ends : Option α → World σ ω → Prop} {x : Op σ α}
    {w : World σ ω} (h : x.attempt.Keeps server promise ends w)
    (hends : ∀ w', ¬ ends none w') : Terminates server (x, w) := by
  refine terminates_of_ne_endless ?_
  rintro ⟨op, w'⟩ hd rfl
  exact hends w' (h.steps hd.attempt).2

end Op

end ModuleLoader
