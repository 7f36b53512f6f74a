import ModuleLoader.Loader.Schedule

/-! # Calls that are under way together

Several calls may be under way on one state. Only one of them does something at a time: it goes on
when an answer is there, and is not interrupted before it waits for the next.

* **`Task.advance`**, **`Op.advance`** do all that needs no answer.
* **`Op.Answered`** is a call that gets one of the answers that it waits for.
* **`Op.Turn`** lets any one of several calls go on until it waits again, and **`Op.Turns`** is any
  number of such turns.
* **`Op.Turn.steps`** says that the turn of a call is a number of its steps. -/

namespace ModuleLoader

open Relation

variable {σ ω α β : Type}

/-! ## Going on until an answer is needed -/

/-- The task up to its next request, with what it has made of the state. -/
def Task.advance : Task σ α → σ → Task σ α × σ
  | .done a, s => (.done a, s)
  | .access change next, s => (next s).advance (change s)
  | .fetch q next, s => (.fetch q next, s)

/-- Several tasks, each up to its next request, the first one first. -/
def Task.advanceAll : List (Task σ α) → σ → List (Task σ α) × σ
  | [], s => ([], s)
  | t :: rest, s =>
    let (t, s) := t.advance s
    let (rest, s) := advanceAll rest s
    (t :: rest, s)

/-- The results of several tasks, if all of them have ended. -/
def Task.results? : List (Task σ α) → Option (List α)
  | [] => some []
  | .done a :: rest => (results? rest).map (a :: ·)
  | _ :: _ => none

/-- The call up to where it waits for answers, with what it has made of the state. -/
def Op.advance : Op σ α → σ → Op σ α × σ
  | .done a, s => (.done a, s)
  | .endless, s => (.endless, s)
  | .call t next, s =>
    match t.advance s with
    | (.done b, s) => (next b).advance s
    | (t, s) => (.call t next, s)
  | .all tasks next, s =>
    let (tasks, s) := Task.advanceAll tasks s
    match Task.results? tasks with
    | some bs => (next bs).advance s
    | none => (.all tasks next, s)

/-- The task up to its next request, in a world. -/
def Task.goOn (t : Task σ α) (w : World σ ω) : Task σ α × World σ ω :=
  ((t.advance w.state).1, { w with state := (t.advance w.state).2 })

/-- The call up to where it waits, in a world. -/
def Op.goOn (op : Op σ α) (w : World σ ω) : Op σ α × World σ ω :=
  ((op.advance w.state).1, { w with state := (op.advance w.state).2 })

/-! ## Turns -/

/-- The task gets the answer to its request, and goes on to the next. -/
def Task.answered (server : Server ω) (q : Request) (next : Answer → Task σ α) (w : World σ ω) :
    Task σ α × World σ ω :=
  (next (World.ask server q w).1).goOn (World.ask server q w).2

/-- One of the tasks that a call waits for gets the answer to its request. -/
inductive Op.Answered (server : Server ω) : Op σ α × World σ ω → Op σ α × World σ ω → Prop
  /-- The task is alone. -/
  | call {β : Type} (q : Request) (task : Answer → Task σ β) (next : β → Op σ α) (w : World σ ω) :
      Answered server (.call (.fetch q task) next, w)
        (.call (Task.answered server q task w).1 next, (Task.answered server q task w).2)
  /-- The task is one of several. -/
  | all {β : Type} (before : List (Task σ β)) (q : Request) (task : Answer → Task σ β)
      (after : List (Task σ β)) (next : List β → Op σ α) (w : World σ ω) :
      Answered server (.all (before ++ .fetch q task :: after) next, w)
        (.all (before ++ (Task.answered server q task w).1 :: after) next,
          (Task.answered server q task w).2)

/-- One of several calls goes on until it waits: it begins, or gets an answer. -/
inductive Op.Turn (server : Server ω) :
    List (Op σ α) × World σ ω → List (Op σ α) × World σ ω → Prop
  /-- The call begins. -/
  | begins (before : List (Op σ α)) (op : Op σ α) (after : List (Op σ α)) (w : World σ ω) :
      Turn server (before ++ op :: after, w) (before ++ (op.goOn w).1 :: after, (op.goOn w).2)
  /-- The call gets an answer. -/
  | answered {op op' : Op σ α} {w w' : World σ ω} (before after : List (Op σ α))
      (h : Answered server (op, w) (op', w')) :
      Turn server (before ++ op :: after, w) (before ++ (op'.goOn w').1 :: after, (op'.goOn w').2)

/-- Any number of turns. -/
def Op.Turns (server : Server ω) :
    List (Op σ α) × World σ ω → List (Op σ α) × World σ ω → Prop :=
  ReflTransGen (Op.Turn server)

/-! ## Turns are steps -/

/-- Going on is a number of steps of the task. -/
theorem Task.steps_goOn (server : Server ω) (t : Task σ α) (w : World σ ω) :
    ReflTransGen (Task.Step server) (t, w) (t.goOn w) := by
  induction t generalizing w with
  | done a => exact .refl
  | access change next ih => exact .head (.access change next w) (ih w.state _)
  | fetch q next ih => exact .refl

/-- Getting the answer is a number of steps of the task. -/
theorem Task.steps_answered (server : Server ω) (q : Request) (next : Answer → Task σ α)
    (w : World σ ω) : ReflTransGen (Task.Step server) (.fetch q next, w) (answered server q next w) :=
  .head (.fetch q next w) (Task.steps_goOn server _ _)

/-- Tasks that have all ended are their results. -/
theorem Task.eq_of_results? {tasks : List (Task σ α)} {as : List α}
    (h : Task.results? tasks = some as) : tasks = as.map .done := by
  induction tasks generalizing as with
  | nil =>
    cases h
    rfl
  | cons t rest ih =>
    cases t with
    | done a =>
      obtain ⟨as', has, rfl⟩ := Option.map_eq_some_iff.1 h
      rw [ih has]
      rfl
    | access change next => cases h
    | fetch q next => cases h

namespace Op

/-- When each of several tasks goes on, the call that waits for all does some steps. -/
theorem steps_advanceAll (server : Server ω) (before tasks : List (Task σ β))
    (next : List β → Op σ α) (w : World σ ω) :
    Steps server (.all (before ++ tasks) next, w)
      (.all (before ++ (Task.advanceAll tasks w.state).1) next,
        { w with state := (Task.advanceAll tasks w.state).2 }) := by
  induction tasks generalizing before w with
  | nil => exact .refl
  | cons t rest ih =>
    have first := steps_all before rest next (t.steps_goOn server w)
    have others := ih (before ++ [(t.goOn w).1]) (t.goOn w).2
    rw [List.append_assoc, List.append_assoc] at others
    exact first.trans others

/-- Going on is a number of steps of the call. -/
theorem steps_goOn (server : Server ω) (op : Op σ α) (w : World σ ω) :
    Steps server (op, w) (op.goOn w) := by
  induction op generalizing w with
  | done a => exact .refl
  | endless => exact .refl
  | call t next ih =>
    have first := steps_call next (t.steps_goOn server w)
    unfold goOn advance
    cases ht : t.advance w.state with
    | mk t' s =>
      rw [ht] at first
      cases t' with
      | done b => exact (first.tail (.ended b next _)).trans (ih b { w with state := s })
      | access change task => exact first
      | fetch q task => exact first
  | all tasks next ih =>
    have first := steps_advanceAll server [] tasks next w
    rw [List.nil_append, List.nil_append] at first
    unfold goOn advance
    cases htasks : Task.advanceAll tasks w.state with
    | mk tasks' s =>
      rw [htasks] at first
      dsimp only at first ⊢
      cases hresults : Task.results? tasks' with
      | none => exact first
      | some bs =>
        rw [Task.eq_of_results? hresults] at first
        exact (first.tail (.gathered bs next _)).trans (ih bs { w with state := s })

/-- Getting an answer is a number of steps of the call. -/
theorem Answered.steps {server : Server ω} {c d : Op σ α × World σ ω} (h : Answered server c d) :
    Steps server c d := by
  cases h with
  | call q task next w => exact steps_call next (Task.steps_answered server q task w)
  | all before q task after next w =>
    exact steps_all before after next (Task.steps_answered server q task w)

/-- The turn of a call is a number of its steps, and the other calls wait. -/
theorem Turn.steps {server : Server ω} {ops ops' : List (Op σ α)} {w w' : World σ ω}
    (h : Turn server (ops, w) (ops', w')) :
    ∃ before op op' after, ops = before ++ op :: after ∧ ops' = before ++ op' :: after ∧
      Steps server (op, w) (op', w') := by
  cases h with
  | begins before op after => exact ⟨before, op, _, after, rfl, rfl, steps_goOn server op w⟩
  | answered before after h =>
    exact ⟨before, _, _, after, rfl, rfl, h.steps.trans (steps_goOn server _ _)⟩

end Op

end ModuleLoader
