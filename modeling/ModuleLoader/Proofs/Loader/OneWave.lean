import ModuleLoader.Loader.Discovery
import ModuleLoader.Proofs.Loader.Termination

/-! # A discovery as a loop over its waves

A discovery does the same in every wave until no module is pending.

* **`Loader.wave`** is what it does in one wave, and `Loader.discover_succ` says that it does it.
* **`Loader.keeps_discover_of_wave`** is the rule for the loop: what every wave keeps holds in the
  end. -/

namespace ModuleLoader.Loader

variable {ω : Type} {server : Server ω} {promise : World Session ω → World Session ω → Prop}
variable {l : Loader} {limit waves : Nat} {d : Discovery} {w : World Session ω}

/-! ## One wave -/

/-- One wave of a discovery: the modules that are pending are scanned, then it is found what the
URLs without extension stand for that they import, and then what they import is added. -/
def wave (l : Loader) (waves : Nat) (d : Discovery) : Op Session Discovery := do
  Op.act (Session.report (.discovering waves d.pending.length))
  let scans ← Op.together (d.pending.map l.scanModule)
  let requested := scans.flatten.map Prod.fst
  let c := (← Op.act get).cache
  let _ ← Op.together ((unresolved c requested).map l.infer)
  Op.act (l.settle d.beginWave (d.pending.zip scans))

/-- A discovery ends when no module is pending. -/
theorem discover_of_nil (limit waves : Nat) (h : d.pending = []) :
    l.discover limit waves d = .done (d.graph, waves) := by
  cases limit <;> unfold discover <;> rw [h] <;> rfl

/-- A discovery never ends with more waves than there may be. -/
theorem discover_zero (waves : Nat) (h : d.pending ≠ []) : l.discover 0 waves d = .endless := by
  obtain ⟨m, rest, hp⟩ := List.exists_cons_of_ne_nil h
  unfold discover
  rw [hp]

/-- While modules are pending, a discovery does one wave and goes on. -/
theorem discover_succ (limit waves : Nat) (h : d.pending ≠ []) :
    l.discover (limit + 1) waves d =
      l.wave (waves + 1) d >>= l.discover limit (waves + 1) := by
  obtain ⟨m, rest, hp⟩ := List.exists_cons_of_ne_nil h
  unfold discover wave
  rw [hp]
  rfl

/-! ## The loop -/

/-- What every wave keeps holds at the end of a discovery, when no module is pending. -/
theorem keeps_discover_of_wave (inv : Discovery → World Session ω → Prop)
    (hwave : ∀ waves d w, inv d w → d.pending ≠ [] →
      (l.wave waves d).Keeps server promise inv w)
    (limit waves : Nat) (h : inv d w) :
    (l.discover limit waves d).Keeps server promise
      (fun r w' => ∃ d', inv d' w' ∧ d'.pending = [] ∧ d'.graph = r.1) w := by
  induction limit generalizing waves d w with
  | zero =>
    by_cases hp : d.pending = []
    · rw [discover_of_nil 0 waves hp]
      exact ⟨d, h, hp, rfl⟩
    · rw [discover_zero waves hp]
      trivial
  | succ limit ih =>
    by_cases hp : d.pending = []
    · rw [discover_of_nil (limit + 1) waves hp]
      exact ⟨d, h, hp, rfl⟩
    · rw [discover_succ limit waves hp]
      exact Op.keeps_bind ((hwave (waves + 1) d w h hp).imp fun _ _ hd => ih (waves + 1) hd)

/-! ## Attempts -/

/-- An attempt at a discovery ends with its graph when no module is pending. -/
theorem attempt_discover_of_nil (limit waves : Nat) (h : d.pending = []) :
    (l.discover limit waves d).attempt = .done (some (d.graph, waves)) := by
  rw [discover_of_nil limit waves h]
  rfl

/-- An attempt at a discovery ends with nothing when there are more waves than there may be. -/
theorem attempt_discover_zero (waves : Nat) (h : d.pending ≠ []) :
    (l.discover 0 waves d).attempt = .done none := by
  rw [discover_zero waves h]
  rfl

/-- While modules are pending, an attempt at a discovery does one wave, which ends, and goes on. -/
theorem attempt_discover_succ (limit waves : Nat) (h : d.pending ≠ []) :
    (l.discover (limit + 1) waves d).attempt =
      l.wave (waves + 1) d >>= fun d => (l.discover limit (waves + 1) d).attempt := by
  rw [discover_succ limit waves h]
  rfl

end ModuleLoader.Loader
