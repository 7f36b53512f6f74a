import Mathlib.Data.List.Forall2
import ModuleLoader.Loader.Schedule

/-! # What tasks promise each other

Tasks that are under way together change one state in an order that nobody chooses. What each does
is judged by a promise: a relation between the worlds before and after a step. A task may count on
the others to keep the promise, and keeps it itself.

* **`Task.Keeps`** is a task that keeps its promise if the others do, and ends as it should.
* **`Pledge`** is a task under way, with the requests it has sent and what holds when it ends.
* **`Op.Keeps`** is the same for work in stages; `Op.Keeps.steps` says that it holds of whatever
  order the steps come in, and `Op.Keeps.step` that every step keeps the promise. -/

namespace ModuleLoader

open Relation

variable {σ ω α β : Type}

/-- The task keeps the promise `own` as long as the others keep the promise `others`, and `ends`
holds when it ends, of its result, the requests that it has sent, and the world. -/
def Task.Keeps (server : Server ω) (others own : World σ ω → World σ ω → Prop)
    (ends : α → List Request → World σ ω → Prop) : Task σ α → List Request → World σ ω → Prop
  | .done a, qs, w => ends a qs w
  | .access change next, qs, w =>
    own w { w with state := change w.state } ∧
      ∀ w', ReflTransGen others { w with state := change w.state } w' →
        (next w.state).Keeps server others own ends qs w'
  | .fetch q next, qs, w =>
    own w (World.ask server q w).2 ∧
      ∀ w', ReflTransGen others (World.ask server q w).2 w' →
        (next (World.ask server q w).1).Keeps server others own ends (qs ++ [q]) w'

namespace Task

/-- Nothing changes when nobody does anything. -/
theorem eq_of_alone {w w' : World σ ω}
    (h : ReflTransGen (fun _ _ : World σ ω => False) w w') : w' = w := by
  induction h with
  | refl => rfl
  | tail _ h _ => exact h.elim

variable {server : Server ω} {others own : World σ ω → World σ ω → Prop}
variable {ends : α → List Request → World σ ω → Prop}

/-- A task that goes on with more keeps the promise if both parts do. -/
theorem keeps_bind {ends : β → List Request → World σ ω → Prop} {t : Task σ α}
    {f : α → Task σ β} {qs : List Request} {w : World σ ω}
    (h : t.Keeps server others own (fun a qs w => (f a).Keeps server others own ends qs w) qs w) :
    (t >>= f).Keeps server others own ends qs w := by
  change (t.bind f).Keeps server others own ends qs w
  induction t generalizing qs w with
  | done a => exact h
  | access change next ih => exact ⟨h.1, fun w' hw => ih w.state (h.2 w' hw)⟩
  | fetch q next ih => exact ⟨h.1, fun w' hw => ih _ (h.2 w' hw)⟩

/-- A task whose result is changed keeps the promise if the task does. -/
theorem keeps_map {ends : β → List Request → World σ ω → Prop} {t : Task σ α} {f : α → β}
    {qs : List Request} {w : World σ ω}
    (h : t.Keeps server others own (fun a qs w => ends (f a) qs w) qs w) :
    (f <$> t).Keeps server others own ends qs w :=
  keeps_bind (f := fun a => Task.done (f a)) h

/-- A weaker end is reached too. -/
theorem Keeps.imp {ends' : α → List Request → World σ ω → Prop} {t : Task σ α}
    {qs : List Request} {w : World σ ω} (h : t.Keeps server others own ends qs w)
    (he : ∀ a qs w, ends a qs w → ends' a qs w) : t.Keeps server others own ends' qs w := by
  induction t generalizing qs w with
  | done a => exact he _ _ _ h
  | access change next ih => exact ⟨h.1, fun w' hw => ih w.state (h.2 w' hw)⟩
  | fetch q next ih => exact ⟨h.1, fun w' hw => ih _ (h.2 w' hw)⟩

/-- A task that counts on less and promises more keeps the promise. -/
theorem Keeps.mono {others' own' : World σ ω → World σ ω → Prop} {t : Task σ α}
    {qs : List Request} {w : World σ ω} (h : t.Keeps server others own ends qs w)
    (hothers : ∀ w w', others' w w' → others w w') (hown : ∀ w w', own w w' → own' w w') :
    t.Keeps server others' own' ends qs w := by
  induction t generalizing qs w with
  | done a => exact h
  | access change next ih =>
    exact ⟨hown _ _ h.1, fun w' hw => ih w.state (h.2 w' (ReflTransGen.mono hothers _ _ hw))⟩
  | fetch q next ih =>
    exact ⟨hown _ _ h.1, fun w' hw => ih _ (h.2 w' (ReflTransGen.mono hothers _ _ hw))⟩

/-- A task that keeps two promises among others that keep both keeps both of them. -/
theorem Keeps.and {others' own' : World σ ω → World σ ω → Prop}
    {ends' : α → List Request → World σ ω → Prop} {t : Task σ α} {qs : List Request}
    {w : World σ ω} (h : t.Keeps server others own ends qs w)
    (h' : t.Keeps server others' own' ends' qs w) :
    t.Keeps server (fun w w' => others w w' ∧ others' w w') (fun w w' => own w w' ∧ own' w w')
      (fun a qs w => ends a qs w ∧ ends' a qs w) qs w := by
  have hfst : ∀ {w w'}, ReflTransGen (fun w w' => others w w' ∧ others' w w') w w' →
      ReflTransGen others w w' :=
    fun hw => ReflTransGen.mono (fun _ _ h => h.1) _ _ hw
  have hsnd : ∀ {w w'}, ReflTransGen (fun w w' => others w w' ∧ others' w w') w w' →
      ReflTransGen others' w w' :=
    fun hw => ReflTransGen.mono (fun _ _ h => h.2) _ _ hw
  induction t generalizing qs w with
  | done a => exact ⟨h, h'⟩
  | access change next ih =>
    exact ⟨⟨h.1, h'.1⟩, fun w' hw => ih w.state (h.2 w' (hfst hw)) (h'.2 w' (hsnd hw))⟩
  | fetch q next ih =>
    exact ⟨⟨h.1, h'.1⟩, fun w' hw => ih _ (h.2 w' (hfst hw)) (h'.2 w' (hsnd hw))⟩

/-- A task that nobody interferes with ends where steps that keep the promise lead. -/
theorem Keeps.moved {t : Task σ α} {qs : List Request} {w₀ w : World σ ω}
    (h : t.Keeps server (fun _ _ => False) own ends qs w) (hw : ReflTransGen own w₀ w) :
    t.Keeps server (fun _ _ => False) own
      (fun a qs w' => ends a qs w' ∧ ReflTransGen own w₀ w') qs w := by
  induction t generalizing qs w with
  | done a => exact ⟨h, hw⟩
  | access change next ih =>
    refine ⟨h.1, fun w' hw' => ?_⟩
    obtain rfl := eq_of_alone hw'
    exact ih w.state (h.2 _ .refl) (hw.tail h.1)
  | fetch q next ih =>
    refine ⟨h.1, fun w' hw' => ?_⟩
    obtain rfl := eq_of_alone hw'
    exact ih _ (h.2 _ .refl) (hw.tail h.1)

/-- A look at the state, or a change of it, keeps the promise if the change does. -/
theorem keeps_act {f : StateM σ α} {qs : List Request} {w : World σ ω}
    (hstep : own w { w with state := (f w.state).2 })
    (hend : ∀ w', ReflTransGen others { w with state := (f w.state).2 } w' →
      ends (f w.state).1 qs w') : (Task.act f).Keeps server others own ends qs w :=
  ⟨hstep, hend⟩

/-- A task that looks at the state goes on with what it sees. -/
theorem keeps_look {ends : β → List Request → World σ ω → Prop} {f : σ → Task σ β}
    {qs : List Request} {w : World σ ω} (hstep : own w w)
    (h : ∀ w', ReflTransGen others w w' → (f w.state).Keeps server others own ends qs w') :
    (Task.act get >>= f).Keeps server others own ends qs w :=
  keeps_bind (keeps_act hstep h)

/-- A request keeps the promise if sending it does. -/
theorem keeps_ask {ends : Answer → List Request → World σ ω → Prop} {q : Request}
    {qs : List Request} {w : World σ ω} (hstep : own w (World.ask server q w).2)
    (hend : ∀ w', ReflTransGen others (World.ask server q w).2 w' →
      ends (World.ask server q w).1 (qs ++ [q]) w') :
    (Task.ask q : Task σ Answer).Keeps server others own ends qs w :=
  ⟨hstep, hend⟩

/-- A task that keeps the promise among others keeps it when it is alone. -/
theorem Keeps.alone {t : Task σ α} {qs : List Request} {w : World σ ω}
    (h : t.Keeps server others own ends qs w) :
    t.Keeps server (fun _ _ => False) own ends qs w :=
  h.mono (fun _ _ h => h.elim) fun _ _ h => h

/-- A step keeps the promise, and what is left of the task keeps it whatever the others do. The
step sends the request that it adds to those that the task has sent. -/
theorem Keeps.step {t t' : Task σ α} {qs : List Request} {w w' : World σ ω}
    (h : t.Keeps server others own ends qs w) (hs : Task.Step server (t, w) (t', w')) :
    own w w' ∧ ∃ new, w'.requests = w.requests ++ new ∧
      ∀ w'', ReflTransGen others w' w'' → t'.Keeps server others own ends (qs ++ new) w'' := by
  cases hs with
  | access change next => exact ⟨h.1, [], by simp, by simpa using h.2⟩
  | fetch q next => exact ⟨h.1, [q], rfl, h.2⟩

/-- A task that nobody interferes with ends as it should when it is done alone. -/
theorem Keeps.run {t : Task σ α} {qs : List Request} {w : World σ ω}
    (h : t.Keeps server (fun _ _ => False) own ends qs w) :
    ReflTransGen own w (t.run server w).2 ∧
      ∃ qs', ends (t.run server w).1 qs' (t.run server w).2 := by
  induction t generalizing qs w with
  | done a => exact ⟨.refl, qs, h⟩
  | access change next ih =>
    obtain ⟨hmoved, hend⟩ := ih w.state (h.2 _ .refl)
    exact ⟨.head h.1 hmoved, hend⟩
  | fetch q next ih =>
    obtain ⟨hmoved, hend⟩ := ih _ (h.2 _ .refl)
    exact ⟨.head h.1 hmoved, hend⟩

end Task

/-! ## Tasks under way together -/

/-- A task under way. -/
structure Pledge (σ ω β : Type) where
  /-- What is left of it. -/
  task : Task σ β
  /-- The requests it has sent. -/
  asked : List Request
  /-- What it counts on the others to promise. -/
  others : World σ ω → World σ ω → Prop
  /-- What it promises itself. -/
  own : World σ ω → World σ ω → Prop
  /-- What holds when it ends, of its result, the requests it has sent, and the world. -/
  ends : β → List Request → World σ ω → Prop

/-- The task keeps its promise from here on, whatever others do that it can count on. -/
def Pledge.Kept (server : Server ω) (p : Pledge σ ω β) (w : World σ ω) : Prop :=
  ∀ w', ReflTransGen p.others w w' → p.task.Keeps server p.others p.own p.ends p.asked w'

/-- Two tasks promise what they count on each other for. -/
def Pledge.Suits (p p' : Pledge σ ω β) : Prop :=
  (∀ w w', p.own w w' → p'.others w w') ∧ ∀ w w', p'.own w w' → p.others w w'

/-- Tasks are under way together: any two of them suit each other, each keeps a promise that is no
weaker than a common one, and `base` has been asked for besides what they have asked for. -/
structure Pledge.AllKept (server : Server ω) (among : World σ ω → World σ ω → Prop)
    (base : List Request) (pledges : List (Pledge σ ω β)) (w : World σ ω) : Prop where
  /-- Any two tasks promise what they count on each other for. -/
  suits : pledges.Pairwise Pledge.Suits
  /-- Each task promises what all of them do. -/
  own : ∀ p ∈ pledges, ∀ w₁ w₂, p.own w₁ w₂ → among w₁ w₂
  /-- Each task keeps its promise. -/
  kept : ∀ p ∈ pledges, p.Kept server w
  /-- Nobody else has sent a request since. -/
  requests : w.requests.Perm (base ++ pledges.flatMap Pledge.asked)

namespace Pledge

variable {server : Server ω}

/-- What a task counts on is promised by those before it and by those after it. -/
theorem others_of_own {front back : List (Pledge σ ω β)} {p p' : Pledge σ ω β}
    (h : (front ++ p :: back).Pairwise Suits) (hp' : p' ∈ front ++ back) {w w' : World σ ω}
    (hw : p.own w w') : p'.others w w' := by
  obtain ⟨-, hback, hfront⟩ := List.pairwise_append.1 h
  rcases List.mem_append.1 hp' with hmem | hmem
  · exact (hfront p' hmem p List.mem_cons_self).2 w w' hw
  · exact ((List.pairwise_cons.1 hback).1 p' hmem).1 w w' hw

/-- One of several tasks goes on: it keeps the promise among them, and all of them still do. -/
theorem AllKept.step {among : World σ ω → World σ ω → Prop} {before after : List (Task σ β)}
    {t t' : Task σ β} {w w' : World σ ω} {base : List Request} {pledges : List (Pledge σ ω β)}
    (ht : before ++ t :: after = pledges.map task)
    (h : AllKept server among base pledges w) (hs : Task.Step server (t, w) (t', w')) :
    among w w' ∧ ∃ pledges' : List (Pledge σ ω β),
      before ++ t' :: after = pledges'.map task ∧
        pledges'.map ends = pledges.map ends ∧
        AllKept server among base pledges' w' := by
  obtain ⟨front, p, back, rfl, hfront, hp, hback⟩ :
      ∃ front p back, pledges = front ++ p :: back ∧ front.map task = before ∧
        p.task = t ∧ back.map task = after := by
    obtain ⟨front, rest, rfl, hfront, hrest⟩ := List.map_eq_append_iff.1 ht.symm
    obtain ⟨p, back, rfl, hp, hback⟩ := List.map_eq_cons_iff.1 hrest
    exact ⟨front, p, back, rfl, hfront, hp, hback⟩
  subst hp
  obtain ⟨hsuits, hamong, hk, hr⟩ := h
  obtain ⟨hown, new, hnew, hrest⟩ := (hk p (by simp) w .refl).step hs
  -- the task has sent what is new; for the others this was a step of somebody else
  have hothers : ∀ p' ∈ front ++ back, p'.Kept server w' := by
    intro p' hmem w'' hw
    have hp' : p' ∈ front ++ p :: back := by
      rcases List.mem_append.1 hmem with hmem | hmem <;> simp [hmem]
    exact hk p' hp' w'' (.head (others_of_own hsuits hmem hown) hw)
  refine ⟨hamong p (by simp) w w' hown,
    front ++ { p with task := t', asked := p.asked ++ new } :: back, ?_, ?_, ?_, ?_, ?_, ?_⟩
  · simp [hfront, hback]
  · simp
  · have hsplit := List.pairwise_append.1 hsuits
    rw [List.pairwise_cons] at hsplit
    refine List.pairwise_append.2 ?_
    rw [List.pairwise_cons]
    simpa [Suits] using hsplit
  · intro p' hmem
    rcases List.mem_append.1 hmem with hmem | hmem
    · exact hamong p' (by simp [hmem])
    · rcases List.mem_cons.1 hmem with rfl | hmem
      · exact hamong p (by simp)
      · exact hamong p' (by simp [hmem])
  · intro p' hmem
    rcases List.mem_append.1 hmem with hmem | hmem
    · exact hothers p' (by simp [hmem])
    · rcases List.mem_cons.1 hmem with rfl | hmem
      · exact hrest
      · exact hothers p' (by simp [hmem])
  -- requests are sent in the order of the steps, and gathered in the order of the tasks
  · have hcomm : (p.asked ++ (back.flatMap asked ++ new)).Perm
        (p.asked ++ (new ++ back.flatMap asked)) :=
      (List.perm_append_comm).append_left _
    have hmoved := hcomm.append_left (base ++ front.flatMap asked)
    rw [hnew]
    refine (hr.append_right new).trans ?_
    simpa using hmoved

/-- All tasks have ended, each of them as it should. -/
theorem ends_of_kept {bs : List β} {w : World σ ω} {pledges : List (Pledge σ ω β)}
    (ht : bs.map .done = pledges.map task) (hk : ∀ p ∈ pledges, p.Kept server w) :
    ∃ results : List (β × List Request), results.map Prod.fst = bs ∧
      results.flatMap Prod.snd = pledges.flatMap asked ∧
      List.Forall₂ (fun e r => e r.1 r.2 w) (pledges.map ends) results := by
  induction pledges generalizing bs with
  | nil =>
    obtain rfl : bs = [] := by simpa using ht
    exact ⟨[], rfl, rfl, .nil⟩
  | cons p rest ih =>
    obtain ⟨b, bs', rfl, hb, hbs⟩ := List.map_eq_cons_iff.1 ht
    obtain ⟨results, hfst, hsnd, hends⟩ := ih hbs fun p' hmem => hk p' (by simp [hmem])
    -- a task that has ended keeps its promise by its end
    have hend : p.ends b p.asked w := by
      have := hk p (by simp) w .refl
      rwa [← hb] at this
    exact ⟨(b, p.asked) :: results, by simp [hfst], by simp [hsnd], .cons hend hends⟩

end Pledge

/-! ## Work in stages -/

/-- The work keeps the promise, and `ends` holds of its result and the world when it ends. The
tasks of a stage may keep promises of their own that are no weaker. -/
def Op.Keeps (server : Server ω) (promise : World σ ω → World σ ω → Prop)
    (ends : α → World σ ω → Prop) : Op σ α → World σ ω → Prop
  | .done a, w => ends a w
  | .endless, _ => True
  | .call t next, w =>
    ∃ base asked, w.requests = base ++ asked ∧
      t.Keeps server (fun _ _ => False) promise
        (fun b qs w' => w'.requests = base ++ qs → (next b).Keeps server promise ends w') asked w
  | .all (β := β) tasks next, w =>
    ∃ (among : World σ ω → World σ ω → Prop) (base : List Request)
      (pledges : List (Pledge σ ω β)),
      (∀ w₁ w₂, among w₁ w₂ → promise w₁ w₂) ∧ tasks = pledges.map Pledge.task ∧
        Pledge.AllKept server among base pledges w ∧
        ∀ (results : List (β × List Request)) (w' : World σ ω), ReflTransGen among w w' →
          List.Forall₂ (fun e r => e r.1 r.2 w') (pledges.map Pledge.ends) results →
          w'.requests.Perm (base ++ results.flatMap Prod.snd) →
          (next (results.map Prod.fst)).Keeps server promise ends w'

/-! ## Rules -/

namespace Op

variable {server : Server ω} {promise : World σ ω → World σ ω → Prop}

/-- Work that goes on with more keeps the promise if both parts do. -/
theorem keeps_bind {ends : β → World σ ω → Prop} {x : Op σ α} {f : α → Op σ β} {w : World σ ω}
    (h : x.Keeps server promise (fun a w => (f a).Keeps server promise ends w) w) :
    (x >>= f).Keeps server promise ends w := by
  change (x.bind f).Keeps server promise ends w
  induction x generalizing w with
  | done a => exact h
  | endless => trivial
  | call t next ih =>
    obtain ⟨base, asked, hr, ht⟩ := h
    exact ⟨base, asked, hr, ht.imp fun b qs w' hb hr => ih b (hb hr)⟩
  | all tasks next ih =>
    obtain ⟨among, base, pledges, hp, ht, hk, hn⟩ := h
    exact ⟨among, base, pledges, hp, ht, hk, fun results w' hw he hr =>
      ih _ (hn results w' hw he hr)⟩

/-- A weaker end is reached too. -/
theorem Keeps.imp {ends ends' : α → World σ ω → Prop} {x : Op σ α} {w : World σ ω}
    (h : x.Keeps server promise ends w) (he : ∀ a w, ends a w → ends' a w) :
    x.Keeps server promise ends' w := by
  induction x generalizing w with
  | done a => exact he _ _ h
  | endless => trivial
  | call t next ih =>
    obtain ⟨base, asked, hr, ht⟩ := h
    exact ⟨base, asked, hr, ht.imp fun b qs w' hb hr => ih b (hb hr)⟩
  | all tasks next ih =>
    obtain ⟨among, base, pledges, hp, ht, hk, hn⟩ := h
    exact ⟨among, base, pledges, hp, ht, hk, fun results w' hw he hr =>
      ih _ (hn results w' hw he hr)⟩

/-- Work that promises more keeps the promise. -/
theorem Keeps.mono {promise' : World σ ω → World σ ω → Prop} {ends : α → World σ ω → Prop}
    {x : Op σ α} {w : World σ ω} (h : x.Keeps server promise ends w)
    (hp : ∀ w w', promise w w' → promise' w w') : x.Keeps server promise' ends w := by
  induction x generalizing w with
  | done a => exact h
  | endless => trivial
  | call t next ih =>
    obtain ⟨base, asked, hr, ht⟩ := h
    refine ⟨base, asked, hr, (ht.imp fun b qs w' hb hr => ?_).mono (fun _ _ h => h) hp⟩
    exact ih b (hb hr)
  | all tasks next ih =>
    obtain ⟨among, base, pledges, hamong, ht, hk, hn⟩ := h
    exact ⟨among, base, pledges, fun _ _ hw => hp _ _ (hamong _ _ hw), ht, hk,
      fun results w' hw he hr => ih _ (hn results w' hw he hr)⟩

/-- Work ends where steps that keep the promise lead. -/
theorem Keeps.moved {ends : α → World σ ω → Prop} {x : Op σ α} {w₀ w : World σ ω}
    (h : x.Keeps server promise ends w) (hw : ReflTransGen promise w₀ w) :
    x.Keeps server promise (fun a w' => ends a w' ∧ ReflTransGen promise w₀ w') w := by
  induction x generalizing w with
  | done a => exact ⟨h, hw⟩
  | endless => trivial
  | call t next ih =>
    obtain ⟨base, asked, hr, ht⟩ := h
    exact ⟨base, asked, hr, (ht.moved hw).imp fun b qs w' hb hr => ih b (hb.1 hr) hb.2⟩
  | all tasks next ih =>
    obtain ⟨among, base, pledges, hamong, ht, hk, hn⟩ := h
    refine ⟨among, base, pledges, hamong, ht, hk, fun results w' hw' he hr => ?_⟩
    exact ih _ (hn results w' hw' he hr) (hw.trans (ReflTransGen.mono hamong _ _ hw'))

/-- Work that is one task keeps the promise if the task does. -/
theorem keeps_one {ends : α → World σ ω → Prop} {t : Task σ α} {w : World σ ω}
    (h : t.Keeps server (fun _ _ => False) promise
      (fun a qs w' => w'.requests = w.requests ++ qs → ends a w') [] w) :
    (Op.one t).Keeps server promise ends w :=
  ⟨w.requests, [], (List.append_nil _).symm, h⟩

/-- A look at the state, or a change of it, keeps the promise if the change does. -/
theorem keeps_act {ends : α → World σ ω → Prop} {f : StateM σ α} {w : World σ ω}
    (hstep : promise w { w with state := (f w.state).2 })
    (hend : ends (f w.state).1 { w with state := (f w.state).2 }) :
    (Op.act f).Keeps server promise ends w :=
  ⟨w.requests, [], (List.append_nil _).symm, hstep, fun _ hw _ => Task.eq_of_alone hw ▸ hend⟩

/-- Work that looks at the state goes on with what it sees. -/
theorem keeps_look {ends : β → World σ ω → Prop} {f : σ → Op σ β} {w : World σ ω}
    (hstep : promise w w) (h : (f w.state).Keeps server promise ends w) :
    (Op.act get >>= f).Keeps server promise ends w :=
  keeps_bind (keeps_act hstep h)

/-- Tasks for some keys keep the promise together if each of them keeps its own while the others
keep what it counts on them for. -/
theorem keeps_together_apart {κ : Type} {ends : List β → World σ ω → Prop}
    (among : World σ ω → World σ ω → Prop) (others own : κ → World σ ω → World σ ω → Prop)
    {keys : List κ} (task : κ → Task σ β) (post : κ → β → List Request → World σ ω → Prop)
    {w : World σ ω} (hp : ∀ w₁ w₂, among w₁ w₂ → promise w₁ w₂)
    (hamong : ∀ k ∈ keys, ∀ w₁ w₂, own k w₁ w₂ → among w₁ w₂)
    (hsuits : keys.Pairwise fun k k' =>
      (∀ w₁ w₂, own k w₁ w₂ → others k' w₁ w₂) ∧ ∀ w₁ w₂, own k' w₁ w₂ → others k w₁ w₂)
    (hk : ∀ k ∈ keys, ∀ w', ReflTransGen (others k) w w' →
      (task k).Keeps server (others k) (own k) (post k) [] w')
    (hn : ∀ (results : List (β × List Request)) (w' : World σ ω), ReflTransGen among w w' →
      List.Forall₂ (fun k r => post k r.1 r.2 w') keys results →
      w'.requests.Perm (w.requests ++ results.flatMap Prod.snd) →
      ends (results.map Prod.fst) w') :
    (Op.together (keys.map task)).Keeps server promise ends w := by
  refine ⟨among, w.requests, keys.map fun k => ⟨task k, [], others k, own k, post k⟩, hp, ?_,
    ⟨List.pairwise_map.2 hsuits, ?_, ?_, ?_⟩, ?_⟩
  · rw [List.map_map]
    rfl
  · intro p hmem
    obtain ⟨k, hkey, rfl⟩ := List.mem_map.1 hmem
    exact hamong k hkey
  · intro p hmem
    obtain ⟨k, hkey, rfl⟩ := List.mem_map.1 hmem
    exact hk k hkey
  · have hnone : (keys.map fun k =>
        (⟨task k, [], others k, own k, post k⟩ : Pledge σ ω β)).flatMap Pledge.asked = [] := by
      simp [List.flatMap_map]
    rw [hnone, List.append_nil]
  · intro results w' hw he hr
    refine hn results w' hw ?_ hr
    rw [List.map_map, List.forall₂_map_left_iff] at he
    exact he

/-- Tasks for some keys keep the promise together if each of them keeps it among the others. -/
theorem keeps_together {κ : Type} {ends : List β → World σ ω → Prop}
    (among : World σ ω → World σ ω → Prop) (keys : List κ) (task : κ → Task σ β)
    (post : κ → β → List Request → World σ ω → Prop) {w : World σ ω}
    (hp : ∀ w₁ w₂, among w₁ w₂ → promise w₁ w₂)
    (hk : ∀ k ∈ keys, ∀ w', ReflTransGen among w w' →
      (task k).Keeps server among among (post k) [] w')
    (hn : ∀ (results : List (β × List Request)) (w' : World σ ω), ReflTransGen among w w' →
      List.Forall₂ (fun k r => post k r.1 r.2 w') keys results →
      w'.requests.Perm (w.requests ++ results.flatMap Prod.snd) →
      ends (results.map Prod.fst) w') :
    (Op.together (keys.map task)).Keeps server promise ends w :=
  keeps_together_apart among (fun _ => among) (fun _ => among) task post hp
    (fun _ _ _ _ h => h) (List.pairwise_of_forall fun _ _ => ⟨fun _ _ h => h, fun _ _ h => h⟩) hk hn

/-! ## What the promise is good for -/

/-- A step keeps the promise, and what is left of the work keeps it. -/
theorem Keeps.step {ends : α → World σ ω → Prop} {op op' : Op σ α} {w w' : World σ ω}
    (h : op.Keeps server promise ends w) (hs : Step server (op, w) (op', w')) :
    (w' = w ∨ promise w w') ∧ op'.Keeps server promise ends w' := by
  cases hs with
  | call next ht =>
    obtain ⟨base, asked, hr, htask⟩ := h
    obtain ⟨hown, new, hnew, hrest⟩ := htask.step ht
    refine ⟨.inr hown, base, asked ++ new, ?_, hrest w' .refl⟩
    rw [hnew, hr, List.append_assoc]
  | ended b next =>
    obtain ⟨base, asked, hr, hb⟩ := h
    exact ⟨.inl rfl, hb hr⟩
  | all before after next ht =>
    -- what one task of the group does is among what the others allow for, so their pledges stay kept
    obtain ⟨among, base, pledges, hp, htask, hk, hn⟩ := h
    obtain ⟨hown, pledges', htask', hends, hk'⟩ := hk.step htask ht
    refine ⟨.inr (hp _ _ hown), among, base, pledges', hp, htask', hk', ?_⟩
    intro results w'' hw he
    rw [hends] at he
    exact hn results w'' (.head hown hw) he
  | gathered bs next =>
    obtain ⟨among, base, pledges, hp, htask, hk, hn⟩ := h
    obtain ⟨results, hfst, hsnd, hends⟩ := Pledge.ends_of_kept htask hk.kept
    refine ⟨.inl rfl, ?_⟩
    have := hn results w .refl hends (hsnd ▸ hk.requests)
    rwa [hfst] at this

/-- Any number of steps, in whatever order, leave work that keeps the promise. -/
theorem Keeps.steps {ends : α → World σ ω → Prop} {op op' : Op σ α} {w w' : World σ ω}
    (h : op.Keeps server promise ends w) (hs : Steps server (op, w) (op', w')) :
    ReflTransGen promise w w' ∧ op'.Keeps server promise ends w' := by
  suffices ∀ c, Steps server (op, w) c →
      ReflTransGen promise w c.2 ∧ c.1.Keeps server promise ends c.2 from this _ hs
  intro c hc
  induction hc with
  | refl => exact ⟨.refl, h⟩
  | tail _ hstep ih =>
    obtain ⟨hmove, hkeep⟩ := ih
    obtain ⟨hstays | hown, hrest⟩ := hkeep.step hstep
    · exact ⟨hstays ▸ hmove, hrest⟩
    · exact ⟨hmove.tail hown, hrest⟩

end Op

end ModuleLoader
