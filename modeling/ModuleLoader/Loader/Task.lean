import ModuleLoader.Fetch

/-! # Work that waits for answers

Loading is work on a state that stops at every request until there is an answer. What runs between
two requests is never interrupted.

* **`Task`** is such work, one request after the other.
* **`Op`** is work in stages, in each of which several tasks may be under way together.
* **`Server`** answers requests; `Task.run` and `Op.run` do the work when answers come at once. -/

namespace ModuleLoader

/-- Work on a state of type `σ` that sends requests and ends with a result of type `α`. -/
inductive Task (σ α : Type)
  /-- The work has ended. -/
  | done (result : α)
  /-- Changes the state and goes on by what it was before. -/
  | access (change : σ → σ) (next : σ → Task σ α)
  /-- Sends a request and goes on by the answer. -/
  | fetch (q : Request) (next : Answer → Task σ α)

namespace Task

variable {σ α β : Type}

/-- Goes on with more work. -/
def bind : Task σ α → (α → Task σ β) → Task σ β
  | .done a, f => f a
  | .access change next, f => .access change fun s => (next s).bind f
  | .fetch q next, f => .fetch q fun a => (next a).bind f

instance : Monad (Task σ) where
  pure := .done
  bind := Task.bind

/-- Does something to the state that takes no request. -/
def act (f : StateM σ α) : Task σ α := .access (fun s => (f s).2) fun s => .done (f s).1

/-- Sends a request. -/
def ask (q : Request) : Task σ Answer := .fetch q .done

/-- Ending and going on is going on. -/
@[simp] theorem done_bind (a : α) (f : α → Task σ β) : (Task.done a).bind f = f a := rfl

/-- Going on by ending is ending. -/
theorem bind_done (t : Task σ α) : t.bind .done = t := by
  induction t with
  | done a => rfl
  | access change next ih => simp [Task.bind, ih]
  | fetch q next ih => simp [Task.bind, ih]

/-- Going on twice is going on once with both. -/
theorem bind_assoc {γ : Type} (t : Task σ α) (f : α → Task σ β) (g : β → Task σ γ) :
    (t.bind f).bind g = t.bind fun a => (f a).bind g := by
  induction t with
  | done a => rfl
  | access change next ih => simp [Task.bind, ih]
  | fetch q next ih => simp [Task.bind, ih]

end Task

/-- Work in stages. -/
inductive Op (σ α : Type) : Type 1
  /-- The work has ended. -/
  | done (result : α)
  /-- The work never ends. -/
  | endless
  /-- A task, and what follows it. -/
  | call {β : Type} (t : Task σ β) (next : β → Op σ α)
  /-- Several tasks that are under way together, and what follows all of them. -/
  | all {β : Type} (tasks : List (Task σ β)) (next : List β → Op σ α)

namespace Op

variable {σ α β : Type}

/-- Goes on with more work. -/
def bind : Op σ α → (α → Op σ β) → Op σ β
  | .done a, f => f a
  | .endless, _ => .endless
  | .call t next, f => .call t fun b => (next b).bind f
  | .all tasks next, f => .all tasks fun bs => (next bs).bind f

instance : Monad (Op σ) where
  pure := .done
  bind := Op.bind

/-- Does something to the state that takes no request. -/
def act (f : StateM σ α) : Op σ α := .call (.act f) .done

/-- Does one task. -/
def one (t : Task σ α) : Op σ α := .call t .done

/-- Does several tasks. -/
def together (tasks : List (Task σ α)) : Op σ (List α) := .all tasks .done

end Op

/-! ## Doing the work -/

/-- Answers requests. What it has answered before may change what it answers. -/
abbrev Server (ω : Type) := Request → StateM ω Answer

/-- A state with the server it sends requests to. -/
structure World (σ ω : Type) where
  /-- The state. -/
  state : σ
  /-- What the server goes by. -/
  server : ω
  /-- The requests so far, in order. -/
  requests : List Request

namespace World

variable {σ ω : Type}

/-- Sends a request. -/
def ask (server : Server ω) (q : Request) : StateM (World σ ω) Answer := fun w =>
  let (a, s) := server q w.server
  (a, { w with server := s, requests := w.requests ++ [q] })

end World

/-- Does a task, each request of which is answered at once. -/
def Task.run {σ ω α : Type} (server : Server ω) : Task σ α → StateM (World σ ω) α
  | .done a => pure a
  | .access change next => fun w => (next w.state).run server { w with state := change w.state }
  | .fetch q next => do
    let a ← World.ask server q
    (next a).run server

/-- Does tasks one after the other. -/
def Task.runAll {σ ω α : Type} (server : Server ω) (tasks : List (Task σ α)) :
    StateM (World σ ω) (List α) :=
  tasks.mapM (Task.run server)

/-- Does work in stages, each request of which is answered at once; none if it never ends. -/
def Op.run {σ ω α : Type} (server : Server ω) : Op σ α → StateM (World σ ω) (Option α)
  | .done a => pure (some a)
  | .endless => pure none
  | .call t next => do
    let b ← t.run server
    (next b).run server
  | .all tasks next => do
    let bs ← Task.runAll server tasks
    (next bs).run server

end ModuleLoader
