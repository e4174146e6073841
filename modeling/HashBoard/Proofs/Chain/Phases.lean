import HashBoard.Proofs.Chain.ScanSteps

/-!
# The phases of a scan

Where a scan stands when it has taken its temperatures, read the results, dispatched work and
looked for recoveries. A scan ends after the second phase when the results could not be read, and
after the fourth otherwise.
-/

namespace HashBoard.Chain

open Bus HashBoard.Cycle

variable {τ : Type} [Channel τ] (c : Chain τ) (sink : Sink) (overview : Thermal.Overview) (now : Nat)

def sampled : Moment τ :=
  let pass := (c.counted.cycle sink).sample c.options.tolerance now c.chips c.schedule
  (pass.2.1, pass.2.2.2.count fun r => { r with temperature := pass.1 })

/-- Whether the results could be read, and where the scan stands then. -/
def drained : Except Wire.ExchangeError Unit × Moment τ :=
  (c.sampled sink now).2.takeResults c.options.drainLimit (c.sampled sink now).1

def dispatched : Moment τ :=
  visit (dispatchTo c.options now) (c.drained sink now).2.1 (c.drained sink now).2.2

def rechecked : Moment τ :=
  visit (recheck c.options now) (c.dispatched sink now).1 (c.dispatched sink now).2

theorem sampled_asks : ∃ cy, Asks c.options now .work (c.chips, c.counted.cycle sink)
      ((c.sampled sink now).1, cy) ∧
    ∃ stats, (c.sampled sink now).2 = cy.count fun r => { r with temperature := stats } :=
  ⟨_, sample_asks c.schedule, _, rfl⟩

/-- What has happened when the results are read. -/
theorem drained_moves :
    Moves c.options now .work (c.chips, c.counted.cycle sink) (c.drained sink now).2 := by
  obtain ⟨cy, hasks, stats, hnoted⟩ := c.sampled_asks sink now
  have hsampled : c.sampled sink now =
      ((c.sampled sink now).1, cy.count fun r => { r with temperature := stats }) :=
    Prod.ext rfl hnoted
  have hread : Steps c.options now .work
      ((c.sampled sink now).1, cy.count fun r => { r with temperature := stats })
      (c.drained sink now).2 := by
    rw [← hsampled]
    exact takeResults_steps c.options.drainLimit
  exact (hasks.steps.moves.tail (.noted _ cy _)).trans hread.moves

theorem dispatched_asks :
    Asks c.options now .work (c.drained sink now).2 (c.dispatched sink now) :=
  visit_asks dispatchTo_asks ..

theorem rechecked_asks :
    Asks c.options now .recovery (c.dispatched sink now) (c.rechecked sink now) :=
  visit_asks recheck_asks ..

/-- Where a scan of a chain with working cores ends, and with which answer. -/
theorem scan_phases (h : c.numCores ≠ 0) : ∃ p : Moment τ,
    ((c.scan sink overview now).chain.chips,
        (c.scan sink overview now).chain.cycle (c.scan sink overview now).sink) =
      (p.1, p.2.count fun _ => .zero) ∧
    ((∃ cause, (c.drained sink now).1 = .error cause ∧ p = (c.drained sink now).2 ∧
        (c.scan sink overview now).result = .error (.protocol cause)) ∨
      ((c.drained sink now).1 = .ok () ∧ p = c.rechecked sink now ∧
        (c.scan sink overview now).result = .ok p.2.tally)) := by
  rw [c.scan_of_numCores_ne_zero sink overview now h]
  unfold rechecked dispatched drained sampled
  generalize (c.counted.cycle sink).sample c.options.tolerance now c.chips c.schedule = pass
  obtain ⟨stats, chips, schedule, cy⟩ := pass
  simp only
  unfold afterPass
  have hoptions : c.counted.options = c.options := rfl
  rw [hoptions]
  cases (cy.count fun r => { r with temperature := stats }).takeResults c.options.drainLimit chips
    with
  | mk answer q =>
    cases answer with
    | error cause => exact ⟨q, rfl, .inl ⟨cause, rfl, rfl, rfl⟩⟩
    | ok u => exact ⟨_, rfl, .inr ⟨rfl, rfl, rfl⟩⟩

end HashBoard.Chain
