import ModuleLoader.Proofs.Loader.Learning
import ModuleLoader.Proofs.Loader.Termination

/-! # From wave to wave

What a discovery comes to is shown once for every property that the waves keep, whatever order the
answers of a wave come in.

* **`Loader.WaveInvariant`** is a property that the waves keep.
* **`Loader.WaveInvariant.keeps_attempt_discover`** says that it holds in the end, and that the
  discovery has done nothing but explore. -/

namespace ModuleLoader.Loader

open Relation

variable {ω : Type} {server : Server ω} {possible : Url → Answer → Prop} {may : Request → Prop}
variable {l : Loader} {s s' : Session}

/-- What is scanned in the modules of a wave, with all that they import settled. -/
structure ScannedWave (l : Loader) (possible : Url → Answer → Prop) (s : Session)
    (pending : List Url) (scans : List (List (Url × Bool))) : Prop where
  /-- Each module has been scanned. -/
  scanned : List.Forall₂ (l.Scanned s) pending scans
  /-- The answers say so. -/
  attested : List.Forall₂ (l.Attested possible s) pending scans
  /-- What they import is settled. -/
  settled : ∀ u ∈ scans.flatten.map Prod.fst, s.Settled u

/-- A property of a discovery, with the number of waves that there may be, that the waves keep as
long as the server's answers are possible and the requests such as may be sent. -/
structure WaveInvariant (l : Loader) (possible : Url → Answer → Prop) (may : Request → Prop)
    (inv : Nat → Discovery → World Session ω → Prop) : Prop where
  /-- The tasks of a wave keep it. -/
  inquires : ∀ {k d w w'}, inv k d w → l.Inquires possible may w w' → inv k d w'
  /-- The sources of the modules of the wave may be asked for. -/
  source : ∀ {k d w}, inv k d w → ∀ m ∈ d.pending, may ⟨m, .source⟩
  /-- The candidates of what is imported without extension may be asked for. -/
  probe : ∀ {k d w scans}, inv k d w →
    List.Forall₂ (l.Attested possible w.state) d.pending scans →
    ∀ u ∈ scans.flatten.map Prod.fst, u.hasExtension = false →
      ∀ candidate ∈ Resolver.candidates l.config u, may (Resolver.probe l.config candidate)
  /-- It holds of the next wave. -/
  settle : ∀ {k d w scans}, inv (k + 1) d w → d.pending ≠ [] →
    l.Discovered w.state d d.processed → l.ScannedWave possible w.state d.pending scans →
    inv k (l.settle d.beginWave (d.pending.zip scans) w.state).1
      { w with state := (l.settle d.beginWave (d.pending.zip scans) w.state).2 }

/-- Every discovery has a property that says nothing. -/
theorem waveInvariant_true (l : Loader) (possible : Url → Answer → Prop) :
    l.WaveInvariant (ω := ω) possible (fun _ => True) fun _ _ _ => True :=
  ⟨fun _ _ => trivial, fun _ _ _ => trivial, fun _ _ _ _ _ _ _ => trivial,
    fun _ _ _ _ => trivial⟩

/-- What a discovery has come to: a graph, with the property that its waves have kept, or as many
waves as there may be. -/
def Discovers (l : Loader) (inv : Nat → Discovery → World Session ω → Prop) (entry : Url) :
    Option (Graph × Nat) → World Session ω → Prop
  | some (g, _), w => l.Describes w.state entry g ∧ ∃ k d, inv k d w ∧ d.pending = [] ∧ d.graph = g
  | none, w => ∃ d, inv 0 d w ∧ d.pending ≠ []

/-- Reporting what was scanned teaches nothing. -/
theorem learns_settle (l : Loader) (d : Discovery) (wave : List (Url × List (Url × Bool)))
    (s : Session) : l.Learns possible s (l.settle d wave s).2 :=
  learns_reportAll _ s

/-- One wave keeps such a property, and does nothing but explore. -/
theorem WaveInvariant.keeps_wave {inv : Nat → Discovery → World Session ω → Prop}
    (hinv : l.WaveInvariant possible may inv) (hs : server.Says possible) (k waves : Nat)
    {d : Discovery} {entry : Url} {w : World Session ω} (hne : d.pending ≠ [])
    (hd : l.Discovered w.state d d.processed) (he : entry ∈ d.processed ∨ entry ∈ d.pending)
    (h : inv (k + 1) d w) :
    (l.wave waves d).Keeps server (l.Explores possible may)
      (fun d' w' => l.Discovered w'.state d' d'.processed ∧
        (entry ∈ d'.processed ∨ entry ∈ d'.pending) ∧ inv k d' w') w := by
  unfold wave
  have hreport : l.Inquires possible may w
      { w with state := (Session.report (.discovering waves d.pending.length) w.state).2 } :=
    .of_report (e := .discovering _ _) trivial w
  have h₀ := hinv.inquires h hreport
  refine Op.keeps_bind (Op.keeps_act hreport.toExplores ?_)
  refine Op.keeps_bind (Op.keeps_together (l.Inquires possible may) d.pending l.scanModule
    (fun m imports _ w' => l.Scanned w'.state m imports ∧
      l.Attested possible w'.state m imports) (fun _ _ => Inquires.toExplores)
    (fun m hm w' _ => inquires_scanModule hs (hinv.source h₀ m hm) w') ?_)
  intro results w₁ hw₁ hscan _
  have hscan₁ : List.Forall₂ (l.Scanned w₁.state) d.pending (results.map Prod.fst) :=
    List.forall₂_map_right_iff.2 (hscan.imp fun _ _ h => h.1)
  have hattested₁ : List.Forall₂ (l.Attested possible w₁.state) d.pending
      (results.map Prod.fst) := List.forall₂_map_right_iff.2 (hscan.imp fun _ _ h => h.2)
  have hinquires₁ := Inquires.of_steps hw₁
  have h₁ := hinv.inquires h₀ hinquires₁
  refine Op.keeps_bind (Op.keeps_act (.of_learns (.refl l possible _)) ?_)
  refine Op.keeps_bind (Op.keeps_together (l.Inquires possible may) _ l.infer
    (fun requested _ _ w' => w'.state.Settled requested) (fun _ _ => Inquires.toExplores)
    (fun u hu w' _ => ?_) ?_)
  · obtain ⟨hmem, hextension, -⟩ := mem_unresolved.1 hu
    exact inquires_infer hs hextension (hinv.probe h₁ hattested₁ u hmem hextension) w'
  · intro _ w₂ hw₂ hinferred _
    -- what the tasks found at the end of their stage still holds when the wave is added
    have hinquires₂ := Inquires.of_steps hw₂
    have hgrows : w₁.state.Grows w₂.state := hinquires₂.learns.toGrows
    have hd₂ := hd.of_grows (hreport.learns.toGrows.trans
      (hinquires₁.learns.toGrows.trans hgrows))
    have hwave : l.ScannedWave possible w₂.state d.pending (results.map Prod.fst) :=
      ⟨hscan₁.imp fun _ _ h => h.of_grows hgrows, hattested₁.imp fun _ _ h => h.of_grows hgrows,
        fun u hu => settled_of_unresolved (settled_of_forall₂ hinferred) hgrows hu⟩
    obtain ⟨hd₃, hproc⟩ := hd₂.settle hwave.scanned hwave.settled
    have hsettle : l.Learns possible w₂.state
        (l.settle d.beginWave (d.pending.zip (results.map Prod.fst)) w₂.state).2 :=
      learns_settle l d.beginWave _ w₂.state
    refine Op.keeps_act (.of_learns hsettle) ⟨hd₃.of_grows hsettle.toGrows, .inl ?_,
      hinv.settle (hinv.inquires h₁ hinquires₂) hne hd₂ hwave⟩
    -- the entry is in the first wave, so it has been processed when there is another
    rw [hproc]
    exact List.mem_append.2 he

/-- A property that the waves keep holds in the end, and the discovery has done nothing but
explore. -/
theorem WaveInvariant.keeps_attempt_discover {inv : Nat → Discovery → World Session ω → Prop}
    (hinv : l.WaveInvariant possible may inv) (hs : server.Says possible) (limit waves : Nat)
    {d : Discovery} {entry : Url} {w : World Session ω}
    (hd : l.Discovered w.state d d.processed) (he : entry ∈ d.processed ∨ entry ∈ d.pending)
    (h : inv limit d w) :
    (l.discover limit waves d).attempt.Keeps server (l.Explores possible may)
      (l.Discovers inv entry) w := by
  induction limit generalizing waves d w with
  | zero =>
    by_cases hp : d.pending = []
    · rw [attempt_discover_of_nil 0 waves hp]
      exact ⟨hd.describes he hp, 0, d, h, hp, rfl⟩
    · rw [attempt_discover_zero waves hp]
      exact ⟨d, h, hp⟩
  | succ limit ih =>
    by_cases hp : d.pending = []
    · rw [attempt_discover_of_nil (limit + 1) waves hp]
      exact ⟨hd.describes he hp, limit + 1, d, h, hp, rfl⟩
    · rw [attempt_discover_succ limit waves hp]
      exact Op.keeps_bind ((hinv.keeps_wave hs limit (waves + 1) hp hd he h).imp
        fun _ _ ⟨hd', he', h'⟩ => ih (waves + 1) hd' he' h')

end ModuleLoader.Loader
