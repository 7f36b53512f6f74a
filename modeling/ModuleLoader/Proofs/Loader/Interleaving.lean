import ModuleLoader.Loader.Concurrent

/-! # What calls uphold together

Calls that are under way together see each other's work only where they wait. So a property of the
world holds after every turn if each call re-establishes it before it waits, counting on it when it
gets its answer.

* **`Task.Upholds`**, **`Op.Upholds`** is work in the midst of a turn that does so.
* **`Task.IsSafe`**, **`Op.IsSafe`** is work that does so from any world with the property.
* **`Op.IsSafe.turns`** says that the property holds after any turns of calls that are safe. -/

namespace ModuleLoader

open Relation

variable {σ ω α β : Type} {server : Server ω} {inv : World σ ω → Prop}

/-- The task, in the midst of a turn, sees to it that the property holds wherever it waits, and
`ends` holds of its result and the world when it ends. -/
def Task.Upholds (server : Server ω) (inv : World σ ω → Prop) (ends : α → World σ ω → Prop) :
    Task σ α → World σ ω → Prop
  | .done a, w => ends a w
  | .access change next, w =>
    (next w.state).Upholds server inv ends { w with state := change w.state }
  | .fetch q next, w => inv w ∧ ∀ w', inv w' →
    (next (World.ask server q w').1).Upholds server inv ends (World.ask server q w').2

/-- The task upholds the property from any world that has it. -/
def Task.IsSafe (server : Server ω) (inv : World σ ω → Prop) (t : Task σ α) : Prop :=
  ∀ w, inv w → t.Upholds server inv (fun _ w' => inv w') w

/-- The call, in the midst of a turn, sees to it that the property holds wherever it waits, and
`ends` holds of its result and the world when it ends. Tasks that are under way together are not
relied on for more than the property. -/
def Op.Upholds (server : Server ω) (inv : World σ ω → Prop) (ends : α → World σ ω → Prop) :
    Op σ α → World σ ω → Prop
  | .done a, w => ends a w
  | .endless, w => inv w
  | .call t next, w => t.Upholds server inv (fun b w' => (next b).Upholds server inv ends w') w
  | .all tasks next, w => inv w ∧ (∀ t ∈ tasks, t.IsSafe server inv) ∧
    ∀ bs w', inv w' → (next bs).Upholds server inv ends w'

/-- The call upholds the property from any world that has it. -/
def Op.IsSafe (server : Server ω) (inv : World σ ω → Prop) (op : Op σ α) : Prop :=
  ∀ w, inv w → op.Upholds server inv (fun _ w' => inv w') w

namespace Task

/-! ## Tasks -/

/-- A weaker end is reached too. -/
theorem Upholds.imp {ends ends' : α → World σ ω → Prop} {t : Task σ α} {w : World σ ω}
    (h : t.Upholds server inv ends w) (he : ∀ a w, ends a w → ends' a w) :
    t.Upholds server inv ends' w := by
  induction t generalizing w with
  | done a => exact he _ _ h
  | access change next ih => exact ih w.state h
  | fetch q next ih => exact ⟨h.1, fun w' hw => ih _ (h.2 w' hw)⟩

/-- A task that goes on with more upholds the property if both parts do. -/
theorem upholds_bind {ends : β → World σ ω → Prop} {t : Task σ α} {f : α → Task σ β}
    {w : World σ ω}
    (h : t.Upholds server inv (fun a w => (f a).Upholds server inv ends w) w) :
    (t >>= f).Upholds server inv ends w := by
  change (t.bind f).Upholds server inv ends w
  induction t generalizing w with
  | done a => exact h
  | access change next ih => exact ih w.state h
  | fetch q next ih => exact ⟨h.1, fun w' hw => ih _ (h.2 w' hw)⟩

/-- A task that looks at the state goes on with what it sees. -/
theorem upholds_look {ends : β → World σ ω → Prop} {f : σ → Task σ β} {w : World σ ω}
    (h : (f w.state).Upholds server inv ends w) :
    (Task.act get >>= f).Upholds server inv ends w :=
  h

/-- A look at the state, or a change of it, ends at once. -/
theorem upholds_act {ends : α → World σ ω → Prop} {f : StateM σ α} {w : World σ ω}
    (h : ends (f w.state).1 { w with state := (f w.state).2 }) :
    (Task.act f).Upholds server inv ends w :=
  h

/-- A task that sends a request goes on with its answer, wherever others have led by then. -/
theorem upholds_ask {ends : β → World σ ω → Prop} {q : Request} {f : Answer → Task σ β}
    {w : World σ ω} (h : inv w)
    (hnext : ∀ w', inv w' →
      (f (World.ask server q w').1).Upholds server inv ends (World.ask server q w').2) :
    (Task.ask q >>= f).Upholds server inv ends w :=
  ⟨h, hnext⟩

/-- A task that goes on until it waits still upholds the property. -/
theorem Upholds.goOn {ends : α → World σ ω → Prop} {t : Task σ α} {w : World σ ω}
    (h : t.Upholds server inv ends w) :
    (t.goOn w).1.Upholds server inv ends (t.goOn w).2 := by
  induction t generalizing w with
  | done a => exact h
  | access change next ih => exact ih w.state h
  | fetch q next ih => exact h

/-- A task that is safe and has gone on until it waits is still safe, and the property holds. -/
theorem Upholds.isSafe_goOn {t : Task σ α} {w : World σ ω}
    (h : t.Upholds server inv (fun _ w' => inv w') w) :
    inv (t.goOn w).2 ∧ (t.goOn w).1.IsSafe server inv := by
  induction t generalizing w with
  | done a => exact ⟨h, fun _ hw => hw⟩
  | access change next ih => exact ih w.state h
  | fetch q next ih => exact ⟨h.1, fun w' hw => ⟨hw, h.2⟩⟩

/-- Safe tasks that have gone on until they wait are still safe, and the property holds. -/
theorem isSafe_advanceAll {tasks : List (Task σ α)} (h : ∀ t ∈ tasks, t.IsSafe server inv)
    {w : World σ ω} (hw : inv w) :
    inv { w with state := (advanceAll tasks w.state).2 } ∧
      ∀ t ∈ (advanceAll tasks w.state).1, t.IsSafe server inv := by
  induction tasks generalizing w with
  | nil => exact ⟨hw, fun _ h => nomatch h⟩
  | cons t rest ih =>
    rw [List.forall_mem_cons] at h
    obtain ⟨hw₁, ht⟩ := (h.1 w hw).isSafe_goOn
    obtain ⟨hw₂, hrest⟩ := ih h.2 hw₁
    exact ⟨hw₂, List.forall_mem_cons.2 ⟨ht, hrest⟩⟩

/-- A task that does something to the state is safe if that keeps the property. -/
theorem isSafe_act {f : StateM σ α}
    (h : ∀ w, inv w → inv { w with state := (f w.state).2 }) :
    (Task.act f).IsSafe server inv :=
  h

/-- A task that goes on with more is safe if both parts are. -/
theorem IsSafe.bind {t : Task σ α} {f : α → Task σ β} (ht : t.IsSafe server inv)
    (hf : ∀ a, (f a).IsSafe server inv) : (t >>= f).IsSafe server inv :=
  fun w hw => upholds_bind ((ht w hw).imp fun a w' hw' => hf a w' hw')

end Task

namespace Op

/-! ## Calls -/

/-- A weaker end is reached too. -/
theorem Upholds.imp {ends ends' : α → World σ ω → Prop} {op : Op σ α} {w : World σ ω}
    (h : op.Upholds server inv ends w) (he : ∀ a w, ends a w → ends' a w) :
    op.Upholds server inv ends' w := by
  induction op generalizing w with
  | done a => exact he _ _ h
  | endless => exact h
  | call t next ih => exact Task.Upholds.imp h fun b w' hb => ih b hb
  | all tasks next ih => exact ⟨h.1, h.2.1, fun bs w' hw => ih bs (h.2.2 bs w' hw)⟩

/-- A call that goes on with more upholds the property if both parts do. -/
theorem upholds_bind {ends : β → World σ ω → Prop} {x : Op σ α} {f : α → Op σ β} {w : World σ ω}
    (h : x.Upholds server inv (fun a w => (f a).Upholds server inv ends w) w) :
    (x >>= f).Upholds server inv ends w := by
  change (x.bind f).Upholds server inv ends w
  induction x generalizing w with
  | done a => exact h
  | endless => exact h
  | call t next ih => exact Task.Upholds.imp h fun b w' hb => ih b hb
  | all tasks next ih => exact ⟨h.1, h.2.1, fun bs w' hw => ih bs (h.2.2 bs w' hw)⟩

/-- A call that has ended is safe. -/
theorem isSafe_done (a : α) : (Op.done a : Op σ α).IsSafe server inv :=
  fun _ hw => hw

/-- A call that goes on with more is safe if both parts are. -/
theorem IsSafe.bind {x : Op σ α} {f : α → Op σ β} (hx : x.IsSafe server inv)
    (hf : ∀ a, (f a).IsSafe server inv) : (x >>= f).IsSafe server inv :=
  fun w hw => upholds_bind ((hx w hw).imp fun a w' hw' => hf a w' hw')

/-- A call that is one task is safe if the task is. -/
theorem isSafe_one {t : Task σ α} (h : t.IsSafe server inv) : (Op.one t).IsSafe server inv :=
  h

/-- A call that does something to the state is safe if that keeps the property. -/
theorem isSafe_act {f : StateM σ α}
    (h : ∀ w, inv w → inv { w with state := (f w.state).2 }) : (Op.act f).IsSafe server inv :=
  h

/-- A call that is several tasks is safe if they are. -/
theorem isSafe_together {tasks : List (Task σ α)} (h : ∀ t ∈ tasks, t.IsSafe server inv) :
    (Op.together tasks).IsSafe server inv :=
  fun _ hw => ⟨hw, h, fun _ _ hw' => hw'⟩

/-! ## Turns -/

/-- A call that goes on until it waits is safe then, and the property holds. -/
theorem Upholds.isSafe_goOn {op : Op σ α} {w : World σ ω}
    (h : op.Upholds server inv (fun _ w' => inv w') w) :
    inv (op.goOn w).2 ∧ (op.goOn w).1.IsSafe server inv := by
  induction op generalizing w with
  | done a => exact ⟨h, fun _ hw => hw⟩
  | endless => exact ⟨h, fun _ hw => hw⟩
  | call t next ih =>
    -- the induction is on what the task does before it waits
    induction t generalizing w with
    | done b => exact ih b h
    | access change task iht =>
      have hgo : (Op.call (.access change task) next).goOn w =
          (Op.call (task w.state) next).goOn { w with state := change w.state } := by
        simp only [goOn, advance, Task.advance]
      rw [hgo]
      exact iht w.state h
    | fetch q task iht => exact ⟨h.1, fun w' hw => ⟨hw, h.2⟩⟩
  | all tasks next ih =>
    obtain ⟨hw, hsafe, hnext⟩ := h
    obtain ⟨hw₁, hsafe₁⟩ := Task.isSafe_advanceAll hsafe hw
    unfold goOn advance
    cases htasks : Task.advanceAll tasks w.state with
    | mk tasks' s =>
      rw [htasks] at hw₁ hsafe₁
      dsimp only at hw₁ hsafe₁ ⊢
      cases Task.results? tasks' with
      | none => exact ⟨hw₁, fun w' hw' => ⟨hw', hsafe₁, hnext⟩⟩
      | some bs => exact ih bs (hnext bs _ hw₁)

/-- A safe call that gets an answer upholds the property. -/
theorem IsSafe.answered {op op' : Op σ α} {w w' : World σ ω} (h : op.IsSafe server inv)
    (hw : inv w) (ha : Answered server (op, w) (op', w')) :
    op'.Upholds server inv (fun _ w'' => inv w'') w' := by
  cases ha with
  | call q task next => exact Task.Upholds.goOn ((h w hw).2 w hw)
  | all before q task after next =>
    obtain ⟨-, hsafe, hnext⟩ := h w hw
    have hanswer := ((hsafe (.fetch q task) (by simp)) w hw).2 w hw
    obtain ⟨hw₁, htask⟩ := hanswer.isSafe_goOn
    refine ⟨hw₁, fun t ht => ?_, hnext⟩
    rcases List.mem_append.1 ht with ht | ht
    · exact hsafe t (by simp [ht])
    · rcases List.mem_cons.1 ht with rfl | ht
      · exact htask
      · exact hsafe t (by simp [ht])

/-- After a turn of one of several safe calls the property holds, and the calls are still safe. -/
theorem IsSafe.turn {ops ops' : List (Op σ α)} {w w' : World σ ω}
    (h : ∀ op ∈ ops, op.IsSafe server inv) (hw : inv w) (ht : Turn server (ops, w) (ops', w')) :
    inv w' ∧ ∀ op ∈ ops', op.IsSafe server inv := by
  -- the call whose turn it is has become a safe one, and the others are as they were
  suffices ∀ before (op op' : Op σ α) after, ops = before ++ op :: after →
      ops' = before ++ op' :: after → inv w' ∧ op'.IsSafe server inv →
      inv w' ∧ ∀ op ∈ ops', op.IsSafe server inv by
    cases ht with
    | begins before op after =>
      exact this before op _ after rfl rfl ((h op (by simp)) w hw).isSafe_goOn
    | @answered op _ _ _ before after ha =>
      exact this before op _ after rfl rfl ((h op (by simp)).answered hw ha).isSafe_goOn
  rintro before op op' after rfl rfl ⟨hw', hop'⟩
  refine ⟨hw', fun op₁ hop₁ => ?_⟩
  rcases List.mem_append.1 hop₁ with hop₁ | hop₁
  · exact h op₁ (by simp [hop₁])
  · rcases List.mem_cons.1 hop₁ with rfl | hop₁
    · exact hop'
    · exact h op₁ (by simp [hop₁])

/-- After any turns of safe calls the property holds. -/
theorem IsSafe.turns {ops ops' : List (Op σ α)} {w w' : World σ ω}
    (h : ∀ op ∈ ops, op.IsSafe server inv) (hw : inv w)
    (ht : Turns server (ops, w) (ops', w')) : inv w' := by
  suffices ∀ c, Turns server (ops, w) c → inv c.2 ∧ ∀ op ∈ c.1, op.IsSafe server inv from
    (this _ ht).1
  intro c hc
  induction hc with
  | refl => exact ⟨hw, h⟩
  | tail _ hturn ih => exact IsSafe.turn ih.2 ih.1 hturn

end Op

end ModuleLoader
