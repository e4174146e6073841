import HashBoard.Proofs.Bus.Transcript
import HashBoard.Proofs.Chain.ScanSteps

/-!
# What a scan tells its worker

A worker looks at two things in the tally of a scan: whether the chain is idle, and the statistics
of a thermal pass. A full pass is described by what is read from the bus, and what it found is in
the tally at the end of the scan, provided that the reading of results did not end it.
-/

namespace HashBoard

open Bus Wire

namespace Bus

variable {τ : Type} [Channel τ]

/-- The temperatures that the active chips report when they are asked in turn, and the bus after
that. -/
def temperatures : List Chip → Bus τ → List (UInt8 × Float32) × Bus τ
  | [], bus => ([], bus)
  | chip :: rest, bus =>
    if chip.condition.isActive then
      match (fetchRegister chip.id).runOn bus with
      | (.ok register, bus) =>
        let later := temperatures rest bus
        ((chip.id, bus.generation.celsius register) :: later.1, later.2)
      | (.error _, bus) => temperatures rest bus
    else temperatures rest bus

/-- Ask for results until there is none, as often as the limit says; a result with a wrong checksum
is passed over. -/
def readResults : Nat → Bus τ → Except ExchangeError Unit × Bus τ
  | 0, bus => (.ok (), bus)
  | limit + 1, bus =>
    match fetchResult.runOn bus with
    | (.ok none, bus) => (.ok (), bus)
    | (.ok (some _), bus) => readResults limit bus
    | (.error (.crc _ _), bus) => readResults limit bus
    | (.error cause, bus) => (.error cause, bus)

theorem temperatures_sublist (chips : List Chip) (bus : Bus τ) :
    ((temperatures chips bus).1.map Prod.fst).Sublist (chips.map Chip.id) := by
  induction chips generalizing bus with
  | nil => exact .slnil
  | cons chip rest ih =>
    unfold temperatures
    split
    · cases (fetchRegister chip.id).runOn bus with
      | mk answer bus =>
        cases answer with
        | ok register => exact (ih bus).cons_cons chip.id
        | error cause => exact (ih bus).cons chip.id
    · exact (ih bus).cons chip.id

theorem exists_register_of_mem_temperatures {chips : List Chip} {bus : Bus τ}
    {reading : UInt8 × Float32} (h : reading ∈ (temperatures chips bus).1) :
    ∃ register, reading.2 = bus.generation.celsius register := by
  induction chips generalizing bus with
  | nil => cases h
  | cons chip rest ih =>
    unfold temperatures at h
    by_cases ha : chip.condition.isActive = true
    · rw [if_pos ha] at h
      cases hr : (fetchRegister chip.id).runOn bus with
      | mk answer after =>
        obtain ⟨_, _, _, hone⟩ := fetchRegister_exchanged hr
        rw [hr] at h
        cases answer with
        | ok register =>
          rcases List.mem_cons.1 h with rfl | hlater
          · exact ⟨register, by rw [hone.generation]⟩
          · rw [← hone.generation]
            exact ih hlater
        | error cause =>
          rw [← hone.generation]
          exact ih h
    · rw [if_neg ha] at h
      exact ih h

end Bus

/-- What a worker looks at in a tally: whether the chain is idle, and the temperatures. -/
def ScanTally.findings (r : ScanTally) : Bool × Option Thermal.Statistics := (r.idle, r.temperature)

namespace Cycle

variable {τ : Type}

/-! ### The findings stay -/

theorem fail_findings (cy : Cycle τ) (policy : Tolerance) (now : Nat) (chip : Chip) :
    (cy.fail policy now chip).2.tally.findings = cy.tally.findings := by
  unfold fail
  cases chip.condition.afterFailure now policy with
  | mk change condition => cases change <;> rfl

theorem credit_findings (result : FoundNonce) (chip : Chip) (cy : Cycle τ) :
    (credit result chip cy).2.tally.findings = cy.tally.findings := by
  unfold credit
  cases chip.slots.get? result.slot with
  | none => rfl
  | some work =>
    simp only
    cases (cy.sink.submit work chip.id result.nonce).1 <;> rfl

theorem takeResult_bus (result : FoundNonce) (chips : List Chip) (cy : Cycle τ) :
    (takeResult result chips cy).2.bus = cy.bus := by
  unfold takeResult
  dsimp only
  split
  · rfl
  · split
    · rfl
    · split
      · rfl
      · exact (credit_keeps ..).2.1

variable [Channel τ] {options : DrivingOptions} {now : Nat} {round : Round}

theorem ChipStep.findings_eq {chip chip' : Chip} {cy cy' : Cycle τ}
    (h : ChipStep options now round chip cy chip' cy') : cy'.tally.findings = cy.tally.findings := by
  cases h with
  | measured _ _ => rfl
  | probed _ _ => rfl
  | recovered _ _ => rfl
  | missed _ _ | missedAgain _ _ => exact fail_findings ..
  | sent _ _ _ _ _ => cases chip.slots.current? <;> rfl
  | unsent _ _ _ _ _ => exact fail_findings ..

theorem Steps.findings_eq {p q : List Chip × Cycle τ} (h : Steps options now round p q) :
    q.2.tally.findings = p.2.tally.findings := by
  induction h with
  | refl => rfl
  | tail _ hstep ih =>
    refine Eq.trans ?_ ih
    cases hstep with
    | chip hchip => exact hchip.findings_eq
    | listened _ _ _ => rfl
    | spoilt _ => rfl
    | dropped _ _ => rfl
    | credited _ _ _ _ => exact credit_findings ..

/-! ### Phases -/

theorem measure_reading (policy : Tolerance) (now : Nat) (chip : Chip) (cy : Cycle τ) :
    (cy.measure policy now chip).1 = (temperatures [chip] cy.bus).1.head?.map Prod.snd := by
  unfold measure temperatures
  split
  · cases (fetchRegister chip.id).runOn cy.bus with
    | mk answer bus => cases answer <;> rfl
  · rfl

theorem measureAll_temperatures (policy : Tolerance) (now : Nat) (chips : List Chip)
    (schedule : Thermal.Schedule) (cy : Cycle τ) :
    (measureAll policy now chips schedule cy).2.1 =
        { schedule with readings := schedule.readings ++ (temperatures chips cy.bus).1 } ∧
      (measureAll policy now chips schedule cy).2.2.bus = (temperatures chips cy.bus).2 := by
  induction chips generalizing schedule cy with
  | nil =>
    unfold measureAll temperatures
    rw [List.append_nil]
    exact ⟨rfl, rfl⟩
  | cons chip rest ih =>
    unfold measureAll temperatures measure
    by_cases ha : chip.condition.isActive = true
    · simp only [if_pos ha]
      cases hr : (fetchRegister chip.id).runOn cy.bus with
      | mk answer bus =>
        cases answer with
        | ok register =>
          obtain ⟨hschedule, hbus⟩ := ih (schedule.record chip.id (bus.generation.celsius register))
            { cy with bus }
          refine ⟨?_, hbus⟩
          simp only [hschedule]
          unfold Thermal.Schedule.record
          simp only [List.append_assoc, List.singleton_append]
        | error cause =>
          -- The failure counts against the chip, but the next chip is asked on the same bus.
          have hfail := fail_bus { cy with bus } policy now chip
          obtain ⟨hschedule, hbus⟩ := ih schedule (fail { cy with bus } policy now chip).2
          rw [hfail] at hschedule hbus
          exact ⟨hschedule, hbus⟩
    · simp only [if_neg ha]
      exact ih schedule cy

theorem takeResults_answer (limit : Nat) (chips : List Chip) (cy : Cycle τ) :
    (takeResults limit chips cy).1 = (readResults limit cy.bus).1 := by
  induction limit generalizing chips cy with
  | zero => rfl
  | succ limit ih =>
    unfold takeResults readResults
    cases hr : fetchResult.runOn cy.bus with
    | mk answer bus =>
      cases answer with
      | ok got =>
        cases got with
        | none => rfl
        | some result =>
          have hbus := takeResult_bus result chips { cy with bus }
          have hrest := ih (takeResult result chips { cy with bus }).1
            (takeResult result chips { cy with bus }).2
          rw [hbus] at hrest
          exact hrest
      | error cause =>
        cases cause with
        | crc computed received => exact ih _ _
        | _ => rfl

end Cycle

namespace Chain

open HashBoard.Cycle

variable {τ : Type} [Channel τ] (c : Chain τ) (sink : Sink) (overview : Thermal.Overview) (now : Nat)

def passReadings : List Float32 :=
  (c.schedule.readings ++ (temperatures c.chips c.bus).1).map Prod.snd

def fullPass? : Option Thermal.Statistics :=
  Thermal.Statistics.ofReadings? c.passReadings c.schedule.trim

def resultsAfterPass : Except ExchangeError Unit :=
  (readResults c.options.drainLimit (temperatures c.chips c.bus).2).1

theorem sample_of_full (hdue : c.schedule.due now = some .full) :
    ∃ chips cy, (c.counted.cycle sink).sample c.options.tolerance now c.chips c.schedule =
        (c.fullPass?, chips,
          ({ c.schedule with
            readings := c.schedule.readings ++ (temperatures c.chips c.bus).1 }.endFull now).2, cy) ∧
      cy.bus = (temperatures c.chips c.bus).2 ∧ cy.tally.findings = ScanTally.zero.findings := by
  obtain ⟨hschedule, hbus⟩ :=
    measureAll_temperatures c.options.tolerance now c.chips c.schedule (c.counted.cycle sink)
  have hsteps : Steps c.options now .work (c.chips, c.counted.cycle sink) _ :=
    (measureAll_asks c.chips c.schedule (c.counted.cycle sink)).steps
  have hfindings := Steps.findings_eq hsteps
  unfold sample
  rw [hdue]
  generalize measureAll c.options.tolerance now c.chips c.schedule (c.counted.cycle sink) = measured
    at hschedule hbus hfindings ⊢
  obtain ⟨chips, schedule, cy⟩ := measured
  obtain rfl := hschedule
  exact ⟨_, _, rfl, hbus, hfindings⟩

theorem afterPass_result (stats : Option Thermal.Statistics) (chips : List Chip)
    (schedule : Thermal.Schedule) (cy : Cycle τ) :
    (∃ cause, (readResults c.options.drainLimit cy.bus).1 = .error cause ∧
        (c.afterPass now overview stats chips schedule cy).result = .error (.protocol cause)) ∨
      ((readResults c.options.drainLimit cy.bus).1 = .ok () ∧
        ∃ tally, (c.afterPass now overview stats chips schedule cy).result = .ok tally ∧
          tally.findings = (cy.tally.idle, stats)) := by
  -- Statistics are noted before results are read; no later step touches them.
  have hanswer := takeResults_answer c.options.drainLimit chips
    (cy.count fun r => { r with temperature := stats })
  have hdrain : Steps c.options now .work (chips, cy.count fun r => { r with temperature := stats }) _ :=
    takeResults_steps c.options.drainLimit
  change _ = (readResults c.options.drainLimit cy.bus).1 at hanswer
  unfold afterPass
  generalize (cy.count fun r => { r with temperature := stats }).takeResults c.options.drainLimit
    chips = drained at hanswer hdrain ⊢
  obtain ⟨answer, chips', cy'⟩ := drained
  cases answer with
  | error cause => exact .inl ⟨cause, hanswer.symm, rfl⟩
  | ok u =>
    let worked := visit (dispatchTo c.options now) chips' cy'
    have hworked := Steps.findings_eq (hdrain.trans (visit_asks dispatchTo_asks chips' cy').steps)
    have hrechecked : Steps c.options now .recovery worked (visit (recheck c.options now) worked.1
        worked.2) := (visit_asks recheck_asks worked.1 worked.2).steps
    exact .inr ⟨hanswer.symm, _, rfl, (Steps.findings_eq hrechecked).trans hworked⟩

theorem afterPass_overview (stats : Option Thermal.Statistics) (chips : List Chip)
    (schedule : Thermal.Schedule) (cy : Cycle τ) :
    (c.afterPass now overview stats chips schedule cy).overview = overview := by
  unfold afterPass
  generalize (cy.count fun r => { r with temperature := stats }).takeResults c.options.drainLimit
    chips = drained
  obtain ⟨answer, chips', cy'⟩ := drained
  cases answer <;> rfl

theorem scan_of_full (hcores : c.numCores ≠ 0) (hdue : c.schedule.due now = some .full) :
    ((∃ cause, c.resultsAfterPass = .error cause ∧
        (c.scan sink overview now).result = .error (.protocol cause)) ∨
      (c.resultsAfterPass = .ok () ∧ ∃ tally, (c.scan sink overview now).result = .ok tally ∧
        tally.findings = (false, c.fullPass?))) ∧
    (c.scan sink overview now).chain.id = c.id ∧
    (c.scan sink overview now).chain.power = c.power := by
  obtain ⟨chips, cy, hsample, hbus, hfindings⟩ := c.sample_of_full sink now hdue
  have hidle : cy.tally.idle = false := congrArg Prod.fst hfindings
  rw [c.scan_of_numCores_ne_zero sink overview now hcores, hsample]
  generalize (Thermal.Schedule.endFull _ now).2 = schedule
  constructor
  · have hresult := c.counted.afterPass_result (c.published overview c.fullPass?) now c.fullPass?
      chips schedule cy
    rw [hbus, hidle] at hresult
    exact hresult
  · obtain ⟨_, _, _, _, hchain, _⟩ := c.counted.afterPass_steps
      (c.published overview c.fullPass?) now c.fullPass? chips schedule cy
    simp only [hchain]
    exact ⟨rfl, rfl⟩

end Chain

end HashBoard
