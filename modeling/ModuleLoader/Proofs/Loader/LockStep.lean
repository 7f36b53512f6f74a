import Mathlib.Data.List.Forall2
import ModuleLoader.Proofs.Loader.Termination

/-! # Works that go on in step

Two works are alike if they send the same requests in the same order, and what either does to alike
states and with alike answers is alike again. With servers that answer alike, each of them can take
whatever steps the other takes.

* **`Task.Alike`**, **`Op.Alike`** are alike works, for some notion of alike states, answers and
  results.
* **`Server.Alike`** is servers that answer alike, **`World.Alike`** alike worlds.
* **`Op.Alike.steps`** says that alike works go on in step. -/

namespace ModuleLoader

open Relation

variable {σ ω ω' α α' β β' : Type} {states : σ → σ → Prop} {answers : Answer → Answer → Prop}
variable {results : α → α' → Prop} {servers : ω → ω' → Prop}

/-! ## Alike works -/

/-- Two tasks that change alike states alike and send the same requests, and whose results are alike
if the answers are. -/
def Task.Alike (states : σ → σ → Prop) (answers : Answer → Answer → Prop)
    (results : α → α' → Prop) : Task σ α → Task σ α' → Prop
  | .done a, .done a' => results a a'
  | .access change next, .access change' next' => ∀ s s', states s s' →
    states (change s) (change' s') ∧ (next s).Alike states answers results (next' s')
  | .fetch q next, .fetch q' next' => q = q' ∧ ∀ a a', answers a a' →
    (next a).Alike states answers results (next' a')
  | _, _ => False

/-- Two works whose stages have alike tasks. -/
def Op.Alike (states : σ → σ → Prop) (answers : Answer → Answer → Prop)
    (results : α → α' → Prop) : Op σ α → Op σ α' → Prop
  | .done a, .done a' => results a a'
  | .endless, .endless => True
  | .call (β := β) t next, .call (β := β') t' next' => ∃ between : β → β' → Prop,
    t.Alike states answers between t' ∧
      ∀ b b', between b b' → (next b).Alike states answers results (next' b')
  | .all (β := β) tasks next, .all (β := β') tasks' next' => ∃ between : β → β' → Prop,
    List.Forall₂ (Task.Alike states answers between) tasks tasks' ∧
      ∀ bs bs', List.Forall₂ between bs bs' →
        (next bs).Alike states answers results (next' bs')
  | _, _ => False

/-- Servers that give alike answers to the same requests as long as they have been asked alike. -/
def Server.Alike (answers : Answer → Answer → Prop) (servers : ω → ω' → Prop) (server : Server ω)
    (server' : Server ω') : Prop :=
  ∀ q x x', servers x x' →
    answers (server q x).1 (server' q x').1 ∧ servers (server q x).2 (server' q x').2

/-- Worlds in alike states, in which the same requests have been sent in the same order. -/
structure World.Alike (states : σ → σ → Prop) (servers : ω → ω' → Prop) (w : World σ ω)
    (w' : World σ ω') : Prop where
  /-- The states are alike. -/
  state : states w.state w'.state
  /-- The servers have been asked alike. -/
  server : servers w.server w'.server
  /-- The requests are the same, in the same order. -/
  requests : w.requests = w'.requests

/-- Worlds that ask servers that answer alike are alike. -/
theorem World.Alike.ask {server : Server ω} {server' : Server ω'}
    (hserver : server.Alike answers servers server') {w : World σ ω} {w' : World σ ω'}
    (h : w.Alike states servers w') (q : Request) :
    answers (World.ask server q w).1 (World.ask server' q w').1 ∧
      World.Alike states servers (World.ask server q w).2 (World.ask server' q w').2 := by
  obtain ⟨hanswer, hservers⟩ := hserver q w.server w'.server h.server
  refine ⟨hanswer, h.state, hservers, ?_⟩
  change w.requests ++ [q] = w'.requests ++ [q]
  rw [h.requests]

/-! ## Rules -/

namespace Task

/-- Alike tasks that go on alike are alike. -/
theorem alike_bind {between : β → β' → Prop} {t : Task σ β} {t' : Task σ β'} {f : β → Task σ α}
    {f' : β' → Task σ α'} (ht : t.Alike states answers between t')
    (hf : ∀ b b', between b b' → (f b).Alike states answers results (f' b')) :
    (t >>= f).Alike states answers results (t' >>= f') := by
  -- alike tasks have the same shape, so that only one case of the second is left in each
  change (t.bind f).Alike states answers results (t'.bind f')
  induction t generalizing t' with
  | done b =>
    cases t' with
    | done b' => exact hf b b' ht
    | access change' next' => exact ht.elim
    | fetch q' next' => exact ht.elim
  | access change next ih =>
    cases t' with
    | done b' => exact ht.elim
    | access change' next' => exact fun s s' hs => ⟨(ht s s' hs).1, ih s (ht s s' hs).2⟩
    | fetch q' next' => exact ht.elim
  | fetch q next ih =>
    cases t' with
    | done b' => exact ht.elim
    | access change' next' => exact ht.elim
    | fetch q' next' => exact ⟨ht.1, fun a a' ha => ih a (ht.2 a a' ha)⟩

/-- A look at alike states, or a change of them, is alike if it is on the states. -/
theorem alike_act {g : StateM σ α} {g' : StateM σ α'}
    (h : ∀ s s', states s s' → results (g s).1 (g' s').1 ∧ states (g s).2 (g' s').2) :
    (Task.act g).Alike states answers results (Task.act g') :=
  fun s s' hs => ⟨(h s s' hs).2, (h s s' hs).1⟩

/-- Tasks that look at alike states are alike if they go on alike with what they see. -/
theorem alike_look {f : σ → Task σ α} {f' : σ → Task σ α'}
    (h : ∀ s s', states s s' → (f s).Alike states answers results (f' s')) :
    (Task.act get >>= f).Alike states answers results (Task.act get >>= f') :=
  fun s s' hs => ⟨hs, h s s' hs⟩

/-- Tasks that send a request are alike if they go on alike with alike answers. -/
theorem alike_ask {q : Request} {f : Answer → Task σ α} {f' : Answer → Task σ α'}
    (h : ∀ a a', answers a a' → (f a).Alike states answers results (f' a')) :
    (Task.ask q >>= f).Alike states answers results (Task.ask q >>= f') :=
  ⟨rfl, h⟩

end Task

namespace Op

/-- Alike works that go on alike are alike. -/
theorem alike_bind {between : β → β' → Prop} {x : Op σ β} {x' : Op σ β'} {f : β → Op σ α}
    {f' : β' → Op σ α'} (hx : x.Alike states answers between x')
    (hf : ∀ b b', between b b' → (f b).Alike states answers results (f' b')) :
    (x >>= f).Alike states answers results (x' >>= f') := by
  -- as for tasks, works of different shapes are not alike
  change (x.bind f).Alike states answers results (x'.bind f')
  induction x generalizing x' with
  | done b =>
    cases x' with
    | done b' => exact hf b b' hx
    | endless => exact hx.elim
    | call t' next' => exact hx.elim
    | all tasks' next' => exact hx.elim
  | endless =>
    cases x' with
    | done b' => exact hx.elim
    | endless => trivial
    | call t' next' => exact hx.elim
    | all tasks' next' => exact hx.elim
  | call t next ih =>
    cases x' with
    | done b' => exact hx.elim
    | endless => exact hx.elim
    | call t' next' =>
      obtain ⟨inner, ht, hnext⟩ := hx
      exact ⟨inner, ht, fun b b' hb => ih b (hnext b b' hb)⟩
    | all tasks' next' => exact hx.elim
  | all tasks next ih =>
    cases x' with
    | done b' => exact hx.elim
    | endless => exact hx.elim
    | call t' next' => exact hx.elim
    | all tasks' next' =>
      obtain ⟨inner, ht, hnext⟩ := hx
      exact ⟨inner, ht, fun bs bs' hbs => ih bs (hnext bs bs' hbs)⟩

/-- A look at alike states, or a change of them, is alike if it is on the states. -/
theorem alike_act {g : StateM σ α} {g' : StateM σ α'}
    (h : ∀ s s', states s s' → results (g s).1 (g' s').1 ∧ states (g s).2 (g' s').2) :
    (Op.act g).Alike states answers results (Op.act g') :=
  ⟨results, Task.alike_act h, fun _ _ h => h⟩

/-- Works that look at alike states are alike if they go on alike with what they see. -/
theorem alike_look {f : σ → Op σ α} {f' : σ → Op σ α'}
    (h : ∀ s s', states s s' → (f s).Alike states answers results (f' s')) :
    (Op.act get >>= f).Alike states answers results (Op.act get >>= f') :=
  ⟨states, fun _ _ hs => ⟨hs, hs⟩, h⟩

/-- Works that are one task are alike if the tasks are. -/
theorem alike_one {t : Task σ α} {t' : Task σ α'} (h : t.Alike states answers results t') :
    (Op.one t).Alike states answers results (Op.one t') :=
  ⟨results, h, fun _ _ h => h⟩

/-- Works that are several tasks are alike if the tasks are. -/
theorem alike_together {κ : Type} {keys : List κ} {task : κ → Task σ α} {task' : κ → Task σ α'}
    (h : ∀ k, (task k).Alike states answers results (task' k)) :
    (Op.together (keys.map task)).Alike states answers (List.Forall₂ results)
      (Op.together (keys.map task')) := by
  refine ⟨results, ?_, fun _ _ h => h⟩
  rw [List.forall₂_map_left_iff, List.forall₂_map_right_iff, List.forall₂_same]
  exact fun k _ => h k

end Op

/-! ## Going on in step -/

variable {server : Server ω} {server' : Server ω'}

/-- Where one of two alike tasks takes a step, the other takes one that leads to the like. -/
theorem Task.Alike.step (hserver : server.Alike answers servers server') {t t₁ : Task σ α}
    {t' : Task σ α'} {w w₁ : World σ ω} {w' : World σ ω'}
    (h : t.Alike states answers results t') (hw : w.Alike states servers w')
    (hs : Task.Step server (t, w) (t₁, w₁)) :
    ∃ t₁' w₁', Task.Step server' (t', w') (t₁', w₁') ∧ t₁.Alike states answers results t₁' ∧
      w₁.Alike states servers w₁' := by
  cases hs with
  | access change next =>
    cases t' with
    | done a' => exact h.elim
    | access change' next' =>
      obtain ⟨hchange, hnext⟩ := h w.state w'.state hw.state
      exact ⟨_, _, .access change' next' w', hnext, hchange, hw.server, hw.requests⟩
    | fetch q' next' => exact h.elim
  | fetch q next =>
    cases t' with
    | done a' => exact h.elim
    | access change' next' => exact h.elim
    | fetch q' next' =>
      obtain ⟨rfl, hnext⟩ := h
      obtain ⟨hanswer, hworld⟩ := hw.ask hserver q
      exact ⟨_, _, .fetch q next' w', hnext _ _ hanswer, hworld⟩

/-- Tasks that are alike to ones that have ended have ended. -/
theorem Task.exists_done_of_forall₂ {as : List α} {tasks' : List (Task σ α')}
    (h : List.Forall₂ (Task.Alike states answers results) (as.map .done) tasks') :
    ∃ as', tasks' = as'.map .done ∧ List.Forall₂ results as as' := by
  induction as generalizing tasks' with
  | nil =>
    cases h
    exact ⟨[], rfl, .nil⟩
  | cons a as ih =>
    obtain ⟨t', rest, ht, hrest, rfl⟩ := List.forall₂_cons_left_iff.1 h
    obtain ⟨as', rfl, has⟩ := ih hrest
    cases t' with
    | done a' => exact ⟨a' :: as', rfl, .cons ht has⟩
    | access change' next' => exact ht.elim
    | fetch q' next' => exact ht.elim

/-- Lists that are alike are so on both sides of any place and at it. -/
theorem exists_of_forall₂_append_cons {R : α → α' → Prop} {before after : List α} {a : α}
    {xs : List α'} (h : List.Forall₂ R (before ++ a :: after) xs) :
    ∃ before' a' after', xs = before' ++ a' :: after' ∧ List.Forall₂ R before before' ∧ R a a' ∧
      List.Forall₂ R after after' := by
  induction before generalizing xs with
  | nil =>
    obtain ⟨a', after', ha, hafter, rfl⟩ := List.forall₂_cons_left_iff.1 h
    exact ⟨[], a', after', rfl, .nil, ha, hafter⟩
  | cons b before ih =>
    obtain ⟨b', rest, hb, hrest, rfl⟩ := List.forall₂_cons_left_iff.1 h
    obtain ⟨before', a', after', rfl, hbefore, ha, hafter⟩ := ih hrest
    exact ⟨b' :: before', a', after', rfl, .cons hb hbefore, ha, hafter⟩

/-- Where one of two alike works takes a step, the other takes one that leads to the like. -/
theorem Op.Alike.step (hserver : server.Alike answers servers server') {op op₁ : Op σ α}
    {op' : Op σ α'} {w w₁ : World σ ω} {w' : World σ ω'}
    (h : op.Alike states answers results op') (hw : w.Alike states servers w')
    (hs : Op.Step server (op, w) (op₁, w₁)) :
    ∃ op₁' w₁', Op.Step server' (op', w') (op₁', w₁') ∧ op₁.Alike states answers results op₁' ∧
      w₁.Alike states servers w₁' := by
  cases hs with
  | call next ht =>
    cases op' with
    | call t' next' =>
      obtain ⟨between, htask, hnext⟩ := h
      obtain ⟨t₁', w₁', hstep, htask₁, hw₁⟩ := htask.step hserver hw ht
      exact ⟨_, w₁', .call next' hstep, ⟨between, htask₁, hnext⟩, hw₁⟩
    | _ => exact h.elim
  | ended b next =>
    cases op' with
    | call t' next' =>
      obtain ⟨between, htask, hnext⟩ := h
      cases t' with
      | done b' => exact ⟨_, w', .ended b' next' w', hnext b b' htask, hw⟩
      | _ => exact htask.elim
    | _ => exact h.elim
  | all before after next ht =>
    cases op' with
    | all tasks' next' =>
      obtain ⟨between, htasks, hnext⟩ := h
      -- the task in the same place takes the step
      obtain ⟨before', t', after', rfl, hbefore, htask, hafter⟩ :=
        exists_of_forall₂_append_cons htasks
      obtain ⟨t₁', w₁', hstep, htask₁, hw₁⟩ := htask.step hserver hw ht
      refine ⟨_, w₁', .all before' after' next' hstep, ⟨between, ?_, hnext⟩, hw₁⟩
      exact List.rel_append hbefore (.cons htask₁ hafter)
    | _ => exact h.elim
  | gathered bs next =>
    cases op' with
    | all tasks' next' =>
      obtain ⟨between, htasks, hnext⟩ := h
      obtain ⟨bs', rfl, hbs⟩ := Task.exists_done_of_forall₂ htasks
      exact ⟨_, w', .gathered bs' next' w', hnext bs bs' hbs, hw⟩
    | _ => exact h.elim

namespace Op

/-- Where one of two alike works goes, the other goes to the like. -/
theorem Alike.steps (hserver : server.Alike answers servers server') {op op₁ : Op σ α}
    {op' : Op σ α'} {w w₁ : World σ ω} {w' : World σ ω'}
    (h : op.Alike states answers results op') (hw : w.Alike states servers w')
    (hs : Steps server (op, w) (op₁, w₁)) :
    ∃ op₁' w₁', Steps server' (op', w') (op₁', w₁') ∧ op₁.Alike states answers results op₁' ∧
      w₁.Alike states servers w₁' := by
  suffices ∀ c, Steps server (op, w) c → ∃ op₁' w₁', Steps server' (op', w') (op₁', w₁') ∧
      c.1.Alike states answers results op₁' ∧ c.2.Alike states servers w₁' from this _ hs
  intro c hc
  induction hc with
  | refl => exact ⟨op', w', .refl, h, hw⟩
  | tail _ hstep ih =>
    obtain ⟨op₁', w₁', hsteps, hop, hworld⟩ := ih
    obtain ⟨op₂', w₂', hstep', hop₂, hworld₂⟩ := hop.step hserver hworld hstep
    exact ⟨op₂', w₂', hsteps.tail hstep', hop₂, hworld₂⟩

end Op

end ModuleLoader
