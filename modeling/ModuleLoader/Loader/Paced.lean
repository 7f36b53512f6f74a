import ModuleLoader.Loader.Task

/-! # Answers that take turns

When no answer comes at once, tasks that are under way together take turns: each goes on until it
has sent its next request, and then the one after it does. No answer comes before all of them wait.

* **`Paced`** is work on a world that waits at some points; `Paced.run` does it alone.
* **`Paced.beside`** does two such works in turns, `Paced.all` any number.
* **`Task.paced`** is a task that waits once for each answer.
* **`Op.runPaced`** does work in stages whose tasks take turns. -/

namespace ModuleLoader

/-- Work on a world of type `ω` that waits at some points and ends with a result of type `α`. -/
inductive Paced (ω α : Type)
  /-- The work has ended. -/
  | done (result : α)
  /-- Changes the world and goes on by what it was before. -/
  | step (change : ω → ω) (next : ω → Paced ω α)
  /-- Waits for its next turn. -/
  | wait (next : Paced ω α)

namespace Paced

variable {ω α β : Type}

/-- Changes the result. -/
def map (f : α → β) : Paced ω α → Paced ω β
  | .done a => .done (f a)
  | .step change next => .step change fun w => (next w).map f
  | .wait next => .wait (next.map f)

/-- Does the work alone. -/
def run : Paced ω α → StateM ω α
  | .done a => pure a
  | .step change next => fun w => (next w).run (change w)
  | .wait next => next.run

/-- Does one turn and goes on by what is left of the work. -/
def turn : Paced ω α → (Paced ω α → Paced ω β) → Paced ω β
  | .step change next, k => .step change fun w => (next w).turn k
  | p, k => k p

/-- Does two works in turns, the first one first. -/
def beside : Paced ω α → Paced ω β → Paced ω (α × β)
  | .done a, q => q.map (Prod.mk a)
  | .step change next, q => .step change fun w => (next w).beside q
  | .wait next, q => q.turn fun rest =>
    match rest with
    | .wait later => .wait (next.beside later)
    | ended => .wait (next.beside ended)

/-- Does works in turns, in their order. -/
def all : List (Paced ω α) → Paced ω (List α)
  | [] => .done []
  | p :: ps => (p.beside (all ps)).map fun (a, as) => a :: as

/-- Changing the result changes what the run gives and nothing else. -/
theorem run_map (f : α → β) (p : Paced ω α) (w : ω) :
    (p.map f).run w = (f (p.run w).1, (p.run w).2) := by
  induction p generalizing w with
  | done a => rfl
  | step change next ih => simpa [map, run] using ih w (change w)
  | wait next ih => simpa [map, run] using ih w

end Paced

/-- The task, waiting once for each answer. -/
def Task.paced {σ ω α : Type} (server : Server ω) : Task σ α → Paced (World σ ω) α
  | .done a => .done a
  | .access change next =>
    .step (fun w => { w with state := change w.state }) fun w => (next w.state).paced server
  | .fetch q next =>
    .wait (.step (fun w => (World.ask server q w).2)
      fun w => (next (World.ask server q w).1).paced server)

/-- Alone, a task does the same whether or not it waits. -/
theorem Task.run_paced {σ ω α : Type} (server : Server ω) (t : Task σ α) :
    (t.paced server).run = t.run server := by
  induction t with
  | done a => rfl
  | access change next ih => funext w; simp [Task.paced, Paced.run, Task.run, ih]
  | fetch q next ih => funext w; simp only [Task.paced, Paced.run, ih]; rfl

/-- Does work in stages whose tasks take turns; none if it never ends. -/
def Op.runPaced {σ ω α : Type} (server : Server ω) : Op σ α → StateM (World σ ω) (Option α)
  | .done a => pure (some a)
  | .endless => pure none
  | .call t next => do
    let b ← t.run server
    (next b).runPaced server
  | .all tasks next => do
    let bs ← (Paced.all (tasks.map (Task.paced server))).run
    (next bs).runPaced server

end ModuleLoader
