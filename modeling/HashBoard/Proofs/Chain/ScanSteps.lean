import HashBoard.Chain.Scan
import HashBoard.Proofs.Chip.SlotReuse
import HashBoard.Proofs.Work.SinkLog
import Mathlib.Logic.Relation

/-!
# The steps of a scan

A scan is a sequence of steps, each about one exchange with the bus: a register is read or missed,
a job is sent or not, a result is taken. The steps are listed once, with what allows each of them
and what it changes, and every scan is shown to be made of them. What each step keeps is kept by
every scan.
-/

namespace HashBoard

open Bus Wire Relation

namespace Cycle

variable {τ : Type}

/-! ### Jobs -/

def nextJob (options : DrivingOptions) (work : Work) (chip : Chip) : Job where
  chip := chip.id
  slot := JobSlots.slotAt chip.slots.cursor
  spec := work.spec options.difficultyPosition

def retire (cy : Cycle τ) : Option Work → Cycle τ
  | none => cy
  | some done => cy.complete done .consumed

def withJob (chip : Chip) (work : Work) : Chip :=
  { chip with
    slots := chip.slots.reuse work
    stats := { chip.stats with rangesDone := chip.stats.rangesDone + 1 } }

@[simp] theorem retire_bus (cy : Cycle τ) (previous : Option Work) :
    (cy.retire previous).bus = cy.bus := by
  cases previous <;> rfl

@[simp] theorem retire_numCores (cy : Cycle τ) (previous : Option Work) :
    (cy.retire previous).numCores = cy.numCores := by
  cases previous <;> rfl

/-! ### Failures -/

theorem fail_cases (cy : Cycle τ) (policy : Tolerance) (now : Nat) (chip : Chip) :
    ((chip.condition.afterFailure now policy).1 ≠ .disabled ∧ ∃ f, cy.fail policy now chip =
        ({ chip with condition := (chip.condition.afterFailure now policy).2 }, cy.count f)) ∨
      ((chip.condition.afterFailure now policy).1 = .disabled ∧ ∃ f, cy.fail policy now chip =
        ({ chip with condition := (chip.condition.afterFailure now policy).2, slots := .empty },
          count { cy with
            numCores := cy.numCores - chip.cores.toNat
            sink := cy.sink.completeAll chip.slots.toList .discarded } f)) := by
  unfold fail
  cases chip.condition.afterFailure now policy with
  | mk change condition =>
    cases change with
    | disabled => exact .inr ⟨rfl, fun r => { r with disabled := r.disabled + 1 }, rfl⟩
    | enteredCooldown => exact .inl ⟨nofun, fun r => { r with cooled := r.cooled + 1 }, rfl⟩
    | recovered => exact .inl ⟨nofun, fun r => { r with recovered := r.recovered + 1 }, rfl⟩
    | unchanged => exact .inl ⟨nofun, id, rfl⟩
    | cooldownRestarted => exact .inl ⟨nofun, id, rfl⟩

theorem fail_id (cy : Cycle τ) (policy : Tolerance) (now : Nat) (chip : Chip) :
    (cy.fail policy now chip).1.id = chip.id := by
  rcases fail_cases cy policy now chip with ⟨_, f, h⟩ | ⟨_, f, h⟩
  · rw [h]
  · rw [h]

theorem fail_bus (cy : Cycle τ) (policy : Tolerance) (now : Nat) (chip : Chip) :
    (cy.fail policy now chip).2.bus = cy.bus := by
  rcases fail_cases cy policy now chip with ⟨_, f, h⟩ | ⟨_, f, h⟩
  · rw [h]
    rfl
  · rw [h]
    rfl

theorem fail_slots (cy : Cycle τ) (policy : Tolerance) (now : Nat) (chip : Chip) :
    (cy.fail policy now chip).1.slots = chip.slots ∨
      (cy.fail policy now chip).1.slots = .empty := by
  rcases fail_cases cy policy now chip with ⟨_, f, h⟩ | ⟨_, f, h⟩
  · rw [h]
    exact .inl rfl
  · rw [h]
    exact .inr rfl

theorem fail_returned {sink : Sink} {cy : Cycle τ} (hcy : sink.Returned cy.sink)
    (policy : Tolerance) (now : Nat) (chip : Chip) :
    sink.Returned (cy.fail policy now chip).2.sink := by
  rcases fail_cases cy policy now chip with ⟨_, f, h⟩ | ⟨_, f, h⟩
  · rw [h]
    exact hcy
  · rw [h]
    exact hcy.completeAll _ _

theorem credit_cases (result : FoundNonce) (chip : Chip) (cy : Cycle τ) :
    (chip.slots.get? result.slot = none ∧
        ∃ stats f, credit result chip cy = ({ chip with stats }, cy.count f)) ∨
      ∃ work, chip.slots.get? result.slot = some work ∧
        ∃ stats f, credit result chip cy = ({ chip with stats },
          count { cy with sink := (cy.sink.submit work chip.id result.nonce).2 } f) := by
  unfold credit
  cases hwork : chip.slots.get? result.slot with
  | none => exact .inl ⟨rfl, _, _, rfl⟩
  | some work =>
    refine .inr ⟨work, rfl, ?_⟩
    simp only
    cases (cy.sink.submit work chip.id result.nonce).1 with
    | true => exact ⟨_, _, rfl⟩
    | false => exact ⟨_, _, rfl⟩

/-- The counters of the chip change, and the sink may be told of a nonce. -/
theorem credit_keeps (result : FoundNonce) (chip : Chip) (cy : Cycle τ) :
    (∃ stats, (credit result chip cy).1 = { chip with stats }) ∧
      (credit result chip cy).2.bus = cy.bus ∧
        (credit result chip cy).2.numCores = cy.numCores := by
  rcases credit_cases result chip cy with ⟨_, stats, f, h⟩ | ⟨_, _, stats, f, h⟩
  · rw [h]
    exact ⟨⟨stats, rfl⟩, rfl, rfl⟩
  · rw [h]
    exact ⟨⟨stats, rfl⟩, rfl, rfl⟩

theorem credit_id (result : FoundNonce) (chip : Chip) (cy : Cycle τ) :
    (credit result chip cy).1.id = chip.id := by
  obtain ⟨⟨stats, h⟩, _⟩ := credit_keeps result chip cy
  rw [h]

theorem exists_split_of_getElem? {chips : List Chip} {chip : Chip} {place : Nat}
    (h : chips[place]? = some chip) :
    ∃ before after, before.length = place ∧ chips = before ++ chip :: after ∧
      ∀ chip', chips.set place chip' = before ++ chip' :: after := by
  obtain ⟨hlt, rfl⟩ := List.getElem?_eq_some_iff.1 h
  refine ⟨chips.take place, chips.drop (place + 1),
    List.length_take_of_le (Nat.le_of_lt hlt), ?_, ?_⟩
  · rw [List.getElem_cons_drop, List.take_append_drop]
  · intro chip'
    rw [List.set_eq_take_append_cons_drop, if_pos hlt]

theorem takeResult_cases (result : FoundNonce) (chips : List Chip) (cy : Cycle τ) :
    ((result.chip = 0 ∨ JobSlots.isSlot result.slot = false ∨
          ∀ chip ∈ chips[result.chip.toNat - 1]?, chip.condition.isActive = false) ∧
        cy.takeResult result chips =
          (chips, drop (cy.count fun r => { r with results := r.results + 1 }))) ∨
      ∃ before chip after, chips = before ++ chip :: after ∧
        before.length + 1 = result.chip.toNat ∧ JobSlots.isSlot result.slot = true ∧
          chip.condition.isActive = true ∧
            cy.takeResult result chips =
              (before ++ (credit result chip
                  (cy.count fun r => { r with results := r.results + 1 })).1 :: after,
                (credit result chip
                  (cy.count fun r => { r with results := r.results + 1 })).2) := by
  unfold takeResult
  by_cases hzero : result.chip = 0
  · simp only [if_pos hzero]
    exact .inl ⟨.inl hzero, trivial⟩
  · simp only [if_neg hzero]
    cases hplace : chips[result.chip.toNat - 1]? with
    | none => exact .inl ⟨.inr (.inr fun _ h => nomatch h), rfl⟩
    | some chip =>
      by_cases hslot : JobSlots.isSlot result.slot = true
      · by_cases ha : chip.condition.isActive = true
        · simp only [hslot, ha]
          obtain ⟨before, after, hlen, rfl, hset⟩ := exists_split_of_getElem? hplace
          have hpos : 0 < result.chip.toNat :=
            Nat.pos_of_ne_zero fun h => hzero (UInt8.toNat_inj.1 h)
          simp only [hset]
          exact .inr ⟨before, chip, after, rfl, by omega, trivial, ha, rfl⟩
        · simp only [Bool.not_eq_true] at ha
          simp only [hslot, ha]
          refine .inl ⟨.inr (.inr ?_), rfl⟩
          intro other hother
          rw [← Option.some.inj hother, ha]
      · simp only [Bool.not_eq_true] at hslot
        simp only [hslot]
        exact .inl ⟨.inr (.inl trivial), rfl⟩

variable [Channel τ]

/-- The slot under the cursor has room once it is released, so the item is either sent to it or
handed back, and in that case the chip is as before. -/
theorem giveWork_eq (options : DrivingOptions) (work : Work) (chip : Chip) (cy : Cycle τ) :
    cy.giveWork options work chip =
      match (sendJob ((nextJob options work chip).frame cy.bus.generation.jobCrc)).runOn cy.bus with
      | (.error cause, bus) =>
        (.error (.protocol cause), chip, { cy with bus }.complete work .failed)
      | (.ok (), bus) =>
        (.ok (), withJob chip work, { cy with bus }.retire chip.slots.current?) := by
  have hback (cy : Cycle τ) :
      cy.giveBack chip.slots.current? { chip with slots := chip.slots.release.2 } = (chip, cy) := by
    cases hc : chip.slots.current? with
    | none =>
      rw [giveBack, JobSlots.release_eq_self _ hc]
    | some done =>
      rw [giveBack]
      simp only [JobSlots.giveBack_release _ hc]
  have hrelease : chip.slots.release = (chip.slots.current?, chip.slots.release.2) := rfl
  rw [giveWork, hrelease]
  simp only [JobSlots.firstFree?_release, nextJob]
  cases (sendJob (Job.frame _ cy.bus.generation.jobCrc)).runOn cy.bus with
  | mk answer bus =>
    cases answer with
    | error cause =>
      simp only [hback]
    | ok u =>
      simp only [JobSlots.put_release]
      cases hc : chip.slots.current? with
      | none => rfl
      | some done => rfl

/-! ### Steps of one chip -/

variable (options : DrivingOptions) (now : Nat)

/-- Active chips are asked while a scan works; at its end it looks for recoveries among the cooling
ones. -/
inductive Round where
  | work
  | recovery

/-- What one exchange with a chip does to it and to the rest of the chain, outside the reading of
results. -/
inductive ChipStep : Round → Chip → Cycle τ → Chip → Cycle τ → Prop
  | measured {chip : Chip} {cy : Cycle τ} {register : Register} {bus : Bus τ}
      (hactive : chip.condition.isActive = true)
      (hread : (fetchRegister chip.id).runOn cy.bus = (.ok register, bus)) :
      ChipStep .work chip cy
        { chip with
          register := some register
          temperature := some (bus.generation.celsius register) }
        { cy with bus }
  | probed {chip : Chip} {cy : Cycle τ} {register : Register} {bus : Bus τ}
      (hactive : chip.condition.isActive = true)
      (hread : (fetchRegister chip.id).runOn cy.bus = (.ok register, bus)) :
      ChipStep .work chip cy { chip with register := some register } { cy with bus }
  | missed {chip : Chip} {cy : Cycle τ} {cause : ExchangeError} {bus : Bus τ}
      (hactive : chip.condition.isActive = true)
      (hread : (fetchRegister chip.id).runOn cy.bus = (.error cause, bus)) :
      ChipStep .work chip cy (fail { cy with bus } options.tolerance now chip).1
        (fail { cy with bus } options.tolerance now chip).2
  | sent {chip : Chip} {cy : Cycle τ} {register : Register} {work : Work} {queue : List Work}
      {u : Unit} {bus : Bus τ}
      (hactive : chip.condition.isActive = true)
      (hregister : chip.register = some register)
      (hroom : register.isBusy cy.bus.generation.busyMask = false)
      (hqueue : cy.queue = work :: queue)
      (hjob : (sendJob ((nextJob options work chip).frame cy.bus.generation.jobCrc)).runOn cy.bus =
        (.ok u, bus)) :
      ChipStep .work chip cy (withJob chip work)
        (count (retire { cy with bus, queue } chip.slots.current?)
          fun r => { r with dispatched := r.dispatched + 1 })
  | unsent {chip : Chip} {cy : Cycle τ} {register : Register} {work : Work} {queue : List Work}
      {cause : ExchangeError} {bus : Bus τ}
      (hactive : chip.condition.isActive = true)
      (hregister : chip.register = some register)
      (hroom : register.isBusy cy.bus.generation.busyMask = false)
      (hqueue : cy.queue = work :: queue)
      (hjob : (sendJob ((nextJob options work chip).frame cy.bus.generation.jobCrc)).runOn cy.bus =
        (.error cause, bus)) :
      ChipStep .work chip cy
        (fail (complete { cy with bus, queue } work .failed) options.tolerance now chip).1
        (fail (complete { cy with bus, queue } work .failed) options.tolerance now chip).2
  | recovered {chip : Chip} {cy : Cycle τ} {register : Register} {bus : Bus τ}
      (hdue : chip.condition.probeDue now options.tolerance = true)
      (hread : (fetchRegister chip.id).runOn cy.bus = (.ok register, bus)) :
      ChipStep .recovery chip cy { chip with register := some register, condition := .active }
        (count { cy with bus } fun r => { r with recovered := r.recovered + 1 })
  | missedAgain {chip : Chip} {cy : Cycle τ} {cause : ExchangeError} {bus : Bus τ}
      (hdue : chip.condition.probeDue now options.tolerance = true)
      (hread : (fetchRegister chip.id).runOn cy.bus = (.error cause, bus)) :
      ChipStep .recovery chip cy (fail { cy with bus } options.tolerance now chip).1
        (fail { cy with bus } options.tolerance now chip).2

/-! ### Steps of a chain -/

/-- The chips of a chain between two exchanges of a scan, and the rest of it. -/
abbrev Moment (τ : Type) := List Chip × Cycle τ

/-- What one exchange does to the chips of a chain and to the rest of it. -/
inductive Step : Round → Moment τ → Moment τ → Prop
  | chip {round : Round} {before after : List Chip} {chip chip' : Chip} {cy cy' : Cycle τ}
      (hchip : ChipStep options now round chip cy chip' cy') :
      Step round (before ++ chip :: after, cy) (before ++ chip' :: after, cy')
  | listened {chips : List Chip} {cy : Cycle τ} {answer : Except ExchangeError (Option FoundNonce)}
      {bus : Bus τ} (hread : fetchResult.runOn cy.bus = (answer, bus))
      (hnone : ∀ result, answer ≠ .ok (some result))
      (hcrc : ∀ computed received, answer ≠ .error (.crc computed received)) :
      Step .work (chips, cy) (chips, { cy with bus })
  | spoilt {chips : List Chip} {cy : Cycle τ} {computed received : UInt16} {bus : Bus τ}
      (hread : fetchResult.runOn cy.bus = (.error (.crc computed received), bus)) :
      Step .work (chips, cy) (chips, countCrcError { cy with bus })
  | dropped {chips : List Chip} {cy : Cycle τ} {result : FoundNonce} {bus : Bus τ}
      (hread : fetchResult.runOn cy.bus = (.ok (some result), bus))
      (hwhy : result.chip = 0 ∨ JobSlots.isSlot result.slot = false ∨
        ∀ chip ∈ chips[result.chip.toNat - 1]?, chip.condition.isActive = false) :
      Step .work (chips, cy)
        (chips, drop (count { cy with bus } fun r => { r with results := r.results + 1 }))
  | credited {before after : List Chip} {chip : Chip} {cy : Cycle τ} {result : FoundNonce}
      {bus : Bus τ}
      (hread : fetchResult.runOn cy.bus = (.ok (some result), bus))
      (hplace : before.length + 1 = result.chip.toNat)
      (hslot : JobSlots.isSlot result.slot = true)
      (hactive : chip.condition.isActive = true) :
      Step .work (before ++ chip :: after, cy)
        (before ++ (credit result chip
            (count { cy with bus } fun r => { r with results := r.results + 1 })).1 :: after,
          (credit result chip
            (count { cy with bus } fun r => { r with results := r.results + 1 })).2)

variable {options now} {round : Round}

theorem ChipStep.id_eq {chip chip' : Chip} {cy cy' : Cycle τ}
    (h : ChipStep options now round chip cy chip' cy') : chip'.id = chip.id := by
  cases h with
  | measured _ _ => rfl
  | probed _ _ => rfl
  | missed _ _ => exact fail_id ..
  | sent _ _ _ _ _ => rfl
  | unsent _ _ _ _ _ => exact fail_id ..
  | recovered _ _ => rfl
  | missedAgain _ _ => exact fail_id ..

theorem ChipStep.returned {chip chip' : Chip} {cy cy' : Cycle τ}
    (h : ChipStep options now round chip cy chip' cy') : cy.sink.Returned cy'.sink := by
  cases h with
  | measured _ _ => exact .refl _
  | probed _ _ => exact .refl _
  | missed _ _ => exact fail_returned (.refl _) ..
  | sent _ _ _ _ _ =>
    cases chip.slots.current? with
    | none => exact .refl _
    | some done => exact (Sink.Returned.refl _).complete done .consumed
  | unsent _ _ _ _ _ => exact fail_returned ((Sink.Returned.refl _).complete ..) ..
  | recovered _ _ => exact .refl _
  | missedAgain _ _ => exact fail_returned (.refl _) ..

theorem Step.ids_eq {p q : Moment τ} (h : Step options now round p q) :
    q.1.map Chip.id = p.1.map Chip.id := by
  have hone {before after : List Chip} {chip chip' : Chip} (hid : chip'.id = chip.id) :
      (before ++ chip' :: after).map Chip.id = (before ++ chip :: after).map Chip.id := by
    simp only [List.map_append, List.map_cons, hid]
  cases h with
  | chip hchip => exact hone hchip.id_eq
  | listened _ _ _ => rfl
  | spoilt _ => rfl
  | dropped _ _ => rfl
  | credited _ _ _ _ => exact hone (credit_id ..)

abbrev Steps (options : DrivingOptions) (now : Nat) (round : Round) : Moment τ → Moment τ → Prop :=
  ReflTransGen (Step options now round)

/-- One exchange, or a note in the tally. -/
inductive Move (options : DrivingOptions) (now : Nat) (round : Round) : Moment τ → Moment τ → Prop
  | step {p q : Moment τ} (h : Step options now round p q) : Move options now round p q
  | noted (chips : List Chip) (cy : Cycle τ) (f : ScanTally → ScanTally) :
    Move options now round (chips, cy) (chips, cy.count f)

abbrev Moves (options : DrivingOptions) (now : Nat) (round : Round) : Moment τ → Moment τ → Prop :=
  ReflTransGen (Move options now round)

/-- What an exchange with one chip does to the chips of a chain and to the rest of it. -/
inductive Ask (options : DrivingOptions) (now : Nat) (round : Round) : Moment τ → Moment τ → Prop
  | chip {before after : List Chip} {chip chip' : Chip} {cy cy' : Cycle τ}
    (hchip : ChipStep options now round chip cy chip' cy') :
    Ask options now round (before ++ chip :: after, cy) (before ++ chip' :: after, cy')

/-- The exchanges of a phase that reads no results. -/
abbrev Asks (options : DrivingOptions) (now : Nat) (round : Round) : Moment τ → Moment τ → Prop :=
  ReflTransGen (Ask options now round)

variable {before after chips : List Chip} {chip : Chip} {cy : Cycle τ}

theorem Asks.steps {p q : Moment τ} (h : Asks options now round p q) :
    Steps options now round p q := by
  induction h with
  | refl => exact .refl
  | tail _ hlast ih =>
    cases hlast with
    | chip hchip => exact ih.tail (.chip hchip)

theorem Steps.moves {p q : Moment τ} (h : Steps options now round p q) :
    Moves options now round p q := by
  induction h with
  | refl => exact .refl
  | tail _ hlast ih => exact ih.tail (.step hlast)

/-! ### Phases -/

theorem Asks.one {chip' : Chip} {cy' : Cycle τ}
    (h : ChipStep options now round chip cy chip' cy') :
    Asks options now round (before ++ chip :: after, cy) (before ++ chip' :: after, cy') :=
  .single (.chip h)

theorem condition_eq_active (h : chip.condition.isActive = true) : chip.condition = .active := by
  cases hc : chip.condition with
  | active => rfl
  | cooling since fails => rw [hc] at h; cases h
  | disabled fails => rw [hc] at h; cases h

theorem measure_asks : Asks options now .work (before ++ chip :: after, cy)
    (before ++ (cy.measure options.tolerance now chip).2.1 :: after,
      (cy.measure options.tolerance now chip).2.2) := by
  unfold measure
  by_cases ha : chip.condition.isActive = true
  · rw [if_pos ha]
    cases hr : (fetchRegister chip.id).runOn cy.bus with
    | mk answer bus =>
      cases answer with
      | ok register => exact .one (.measured ha hr)
      | error cause => exact .one (.missed ha hr)
  · rw [if_neg ha]

theorem measureAll_asks (chips : List Chip) (schedule : Thermal.Schedule) (cy : Cycle τ) :
    Asks options now .work (chips, cy)
      ((measureAll options.tolerance now chips schedule cy).1,
        (measureAll options.tolerance now chips schedule cy).2.2) := by
  have hfrom (before : List Chip) : Asks options now .work (before ++ chips, cy)
      (before ++ (measureAll options.tolerance now chips schedule cy).1,
        (measureAll options.tolerance now chips schedule cy).2.2) := by
    induction chips generalizing before schedule cy with
    | nil => exact .refl
    | cons chip rest ih =>
      -- The chips already measured stand before the rest.
      refine measure_asks.trans ?_
      have hrest := fun schedule => ih schedule (cy.measure options.tolerance now chip).2.2
        (before ++ [(cy.measure options.tolerance now chip).2.1])
      simp only [List.append_assoc, List.singleton_append] at hrest
      exact hrest _
  exact hfrom []

theorem dispatchTo_asks : Asks options now .work (before ++ chip :: after, cy)
    (before ++ (dispatchTo options now chip cy).1 :: after,
      (dispatchTo options now chip cy).2) := by
  unfold dispatchTo
  by_cases ha : chip.condition.isActive = true
  · rw [if_pos ha]
    cases hr : (fetchRegister chip.id).runOn cy.bus with
    | mk answer bus =>
      cases answer with
      | error cause => exact .one (.missed ha hr)
      | ok register =>
        have hsuccess : chip.condition.afterSuccess = (.unchanged, chip.condition) := by
          rw [condition_eq_active ha]
          rfl
        simp only [hsuccess]
        refine .head (.chip (.probed ha hr)) ?_
        by_cases hbusy : register.isBusy bus.generation.busyMask = true
        · rw [if_pos hbusy]
        · rw [if_neg hbusy]
          cases cy.queue with
          | nil => exact .refl
          | cons work queue =>
            have hroom : register.isBusy bus.generation.busyMask = false := by
              simpa only [Bool.not_eq_true] using hbusy
            simp only [giveWork_eq]
            cases hj : (sendJob ((nextJob options work { chip with register := some register }).frame
                bus.generation.jobCrc)).runOn bus with
            | mk answer last =>
              cases answer with
              | ok u => exact .single (.chip (.sent ha rfl hroom rfl hj))
              | error cause => exact .single (.chip (.unsent ha rfl hroom rfl hj))
  · rw [if_neg ha]

theorem recheck_of_due {chip : Chip} (cy : Cycle τ)
    (hdue : chip.condition.probeDue now options.tolerance = true) :
    ChipStep options now .recovery chip cy (recheck options now chip cy).1
      (recheck options now chip cy).2 := by
  unfold recheck
  rw [if_pos hdue]
  cases hr : (fetchRegister chip.id).runOn cy.bus with
  | mk answer bus =>
    cases answer with
    | error cause => exact .missedAgain hdue hr
    | ok register =>
      have hrecovered : chip.condition.afterSuccess = (.recovered, .active) := by
        cases hc : chip.condition with
        | cooling since fails => rfl
        | active => rw [hc] at hdue; cases hdue
        | disabled fails => rw [hc] at hdue; cases hdue
      simp only [hrecovered]
      exact .recovered hdue hr

theorem recheck_cases (options : DrivingOptions) (now : Nat) (chip : Chip) (cy : Cycle τ) :
    recheck options now chip cy = (chip, cy) ∨
      ChipStep options now .recovery chip cy (recheck options now chip cy).1
        (recheck options now chip cy).2 := by
  by_cases hdue : chip.condition.probeDue now options.tolerance = true
  · exact .inr (recheck_of_due cy hdue)
  · exact .inl (if_neg hdue)

theorem recheck_asks : Asks options now .recovery (before ++ chip :: after, cy)
    (before ++ (recheck options now chip cy).1 :: after, (recheck options now chip cy).2) := by
  rcases recheck_cases options now chip cy with heq | hstep
  · rw [heq]
  · exact .one hstep

theorem visit_asks {f : Chip → Cycle τ → Chip × Cycle τ}
    (hf : ∀ {before after : List Chip} {chip : Chip} {cy : Cycle τ},
      Asks options now round (before ++ chip :: after, cy)
        (before ++ (f chip cy).1 :: after, (f chip cy).2))
    (chips : List Chip) (cy : Cycle τ) :
    Asks options now round (chips, cy) (visit f chips cy) := by
  have hfrom (before : List Chip) : Asks options now round (before ++ chips, cy)
      (before ++ (visit f chips cy).1, (visit f chips cy).2) := by
    induction chips generalizing before cy with
    | nil => exact .refl
    | cons chip rest ih =>
      refine hf.trans ?_
      have hrest := ih (f chip cy).2 (before ++ [(f chip cy).1])
      simp only [List.append_assoc, List.singleton_append] at hrest
      exact hrest
  exact hfrom []

theorem sample_asks (schedule : Thermal.Schedule) :
    Asks options now .work (chips, cy)
      ((cy.sample options.tolerance now chips schedule).2.1,
        (cy.sample options.tolerance now chips schedule).2.2.2) := by
  unfold sample
  cases schedule.due now with
  | none => exact .refl
  | some pass =>
    cases pass with
    | full => exact measureAll_asks chips schedule cy
    | quick id =>
      cases hplace : chips[id.toNat - 1]? with
      | none =>
        simp only [hplace]
        exact .refl
      | some chip =>
        obtain ⟨before, after, _, rfl, hset⟩ := exists_split_of_getElem? hplace
        simp only [hplace, hset]
        exact measure_asks

theorem takeResult_step {result : FoundNonce} {bus : Bus τ}
    (hread : fetchResult.runOn cy.bus = (.ok (some result), bus)) :
    Step options now .work (chips, cy) (takeResult result chips { cy with bus }) := by
  rcases takeResult_cases result chips { cy with bus } with
    ⟨hwhy, heq⟩ | ⟨before, chip, after, rfl, hplace, hslot, ha, heq⟩
  · rw [heq]
    exact .dropped hread hwhy
  · rw [heq]
    exact .credited hread hplace hslot ha

theorem takeResults_steps (limit : Nat) :
    Steps options now .work (chips, cy) (cy.takeResults limit chips).2 := by
  induction limit generalizing chips cy with
  | zero => exact .refl
  | succ limit ih =>
    unfold takeResults
    cases hr : fetchResult.runOn cy.bus with
    | mk answer bus =>
      cases answer with
      | ok got =>
        cases got with
        | none => exact .single (.listened hr nofun nofun)
        | some result => exact .head (takeResult_step hr) ih
      | error cause =>
        cases cause with
        | crc computed received => exact .head (.spoilt hr) ih
        | _ => exact .single (.listened hr nofun nofun)

end Cycle

/-! ### Whole scans -/

namespace Chain

open HashBoard.Cycle

variable {τ : Type}

def counted (c : Chain τ) : Chain τ :=
  { c with counters := { c.counters with scans := c.counters.scans + 1 } }

variable [Channel τ]

/-- The rest of a scan, once a thermal pass gave its statistics or was not due. -/
def afterPass (c : Chain τ) (now : Nat) (overview : Thermal.Overview)
    (stats : Option Thermal.Statistics) (chips : List Chip) (schedule : Thermal.Schedule)
    (cy : Cycle τ) : Scanned τ :=
  match (cy.count fun r => { r with temperature := stats }).takeResults c.options.drainLimit
    chips with
  | (.error cause, chips, cy) =>
    { result := .error (.protocol cause)
      chain := c.absorb chips schedule cy
      sink := cy.sink, overview }
  | (.ok (), chips, cy) =>
    let dispatched := visit (dispatchTo c.options now) chips cy
    let rechecked := visit (recheck c.options now) dispatched.1 dispatched.2
    { result := .ok rechecked.2.tally
      chain := c.absorb rechecked.1 schedule rechecked.2
      sink := rechecked.2.sink, overview }

def published (c : Chain τ) (overview : Thermal.Overview) :
    Option Thermal.Statistics → Thermal.Overview
  | some stats => if c.publishes then overview.publish c.id stats else overview
  | none => overview

variable (c : Chain τ) (sink : Sink) (overview : Thermal.Overview) (now : Nat)

theorem scan_of_numCores_eq_zero (h : c.numCores = 0) :
    c.scan sink overview now =
      { result := .ok { ScanTally.zero with idle := true }
        chain := { c.counted with idleReported := true }
        sink
        overview :=
          if !c.idleReported && c.publishes then overview.disable c.id else overview } := by
  unfold scan
  simp only [if_pos h]
  rfl

theorem scan_of_numCores_ne_zero (h : c.numCores ≠ 0) :
    c.scan sink overview now =
      let sampled := (c.counted.cycle sink).sample c.options.tolerance now c.chips c.schedule
      c.counted.afterPass now (c.published overview sampled.1) sampled.1 sampled.2.1 sampled.2.2.1
        sampled.2.2.2 := by
  unfold scan
  simp only [if_neg h]
  rfl

/-- The rest of a scan asks active chips, and if the results could be read it rechecks every chip
after that. -/
theorem afterPass_steps (stats : Option Thermal.Statistics) (chips : List Chip)
    (schedule : Thermal.Schedule) (cy : Cycle τ) : ∃ p q : Moment τ,
    Steps c.options now .work (chips, cy.count fun r => { r with temperature := stats }) p ∧
      (q = p ∨ q = visit (recheck c.options now) p.1 p.2) ∧
      (c.afterPass now overview stats chips schedule cy).chain = c.absorb q.1 schedule q.2 ∧
      (c.afterPass now overview stats chips schedule cy).sink = q.2.sink := by
  have hdrain : Steps c.options now .work (chips, cy.count fun r => { r with temperature := stats })
      ((cy.count fun r => { r with temperature := stats }).takeResults c.options.drainLimit chips).2 :=
    takeResults_steps _
  unfold afterPass
  generalize (cy.count fun r => { r with temperature := stats }).takeResults c.options.drainLimit
    chips = drained at hdrain ⊢
  obtain ⟨answer, chips', cy'⟩ := drained
  cases answer with
  | error cause => exact ⟨(chips', cy'), (chips', cy'), hdrain, .inl rfl, rfl, rfl⟩
  | ok u =>
    exact ⟨_, _, hdrain.trans (visit_asks dispatchTo_asks chips' cy').steps, .inr rfl, rfl, rfl⟩

theorem scan_absorb : ∃ (p : Moment τ) (schedule : Thermal.Schedule) (idle : Bool),
    (c.scan sink overview now).chain =
      { c.counted.absorb p.1 schedule p.2 with idleReported := idle } := by
  by_cases h : c.numCores = 0
  · rw [c.scan_of_numCores_eq_zero sink overview now h]
    exact ⟨(c.chips, c.counted.cycle sink), c.schedule, true, rfl⟩
  · rw [c.scan_of_numCores_ne_zero sink overview now h]
    generalize sample c.options.tolerance now c.chips c.schedule (c.counted.cycle sink) = sampled
    obtain ⟨stats, chips, schedule, cy⟩ := sampled
    obtain ⟨_, q, _, _, hchain, _⟩ :=
      c.counted.afterPass_steps (c.published overview stats) now stats chips schedule cy
    exact ⟨q, schedule, c.idleReported, hchain⟩

theorem scan_options : (c.scan sink overview now).chain.options = c.options := by
  obtain ⟨p, schedule, idle, h⟩ := c.scan_absorb sink overview now
  rw [h]
  rfl

theorem scan_numChips : (c.scan sink overview now).chain.numChips = c.numChips := by
  obtain ⟨p, schedule, idle, h⟩ := c.scan_absorb sink overview now
  rw [h]
  rfl

/-- A scan asks active chips, step by step, and may recheck every chip after that. -/
theorem scan_moves : ∃ p q : Moment τ,
    Moves c.options now .work (c.chips, c.counted.cycle sink) p ∧
      (q = p ∨ q = visit (recheck c.options now) p.1 p.2) ∧
      ((c.scan sink overview now).chain.chips,
          (c.scan sink overview now).chain.cycle (c.scan sink overview now).sink) =
        (q.1, q.2.count fun _ => .zero) := by
  by_cases hcores : c.numCores = 0
  · rw [c.scan_of_numCores_eq_zero sink overview now hcores]
    exact ⟨(c.chips, c.counted.cycle sink), _, .refl, .inl rfl, rfl⟩
  · have hsample : Steps c.options now .work (c.chips, c.counted.cycle sink) _ :=
      (sample_asks c.schedule).steps
    rw [c.scan_of_numCores_ne_zero sink overview now hcores]
    generalize sample c.options.tolerance now c.chips c.schedule (c.counted.cycle sink) = sampled
      at hsample ⊢
    obtain ⟨stats, chips, schedule, cy⟩ := sampled
    obtain ⟨p, q, hrest, hlast, hchain, hsink⟩ :=
      c.counted.afterPass_steps (c.published overview stats) now stats chips schedule cy
    have hnoted : Move c.options now .work (chips, cy)
        (chips, cy.count fun r => { r with temperature := stats }) := .noted chips cy _
    refine ⟨p, q, ((Steps.moves hsample).tail hnoted).trans (Steps.moves hrest), hlast, ?_⟩
    simp only [hchain, hsink]
    rfl

/-- What each step of a scan keeps, and what does not depend on the tally, a scan keeps. -/
theorem scan_induction (P : Moment τ → Prop)
    (hstep : ∀ round (p q : Moment τ), Step c.options now round p q → P p → P q)
    (hcount : ∀ chips (cy : Cycle τ) f, P (chips, cy) → P (chips, cy.count f))
    (hstart : P (c.chips, c.counted.cycle sink)) :
    P ((c.scan sink overview now).chain.chips,
      (c.scan sink overview now).chain.cycle (c.scan sink overview now).sink) := by
  have hmoves {round : Round} {p q : Moment τ} (h : Moves c.options now round p q) (hp : P p) :
      P q := by
    induction h with
    | refl => exact hp
    | tail _ hlast ih =>
      cases hlast with
      | step hlast => exact hstep round _ _ hlast ih
      | noted chips cy f => exact hcount chips cy f ih
  obtain ⟨p, q, hwork, hlast, hend⟩ := c.scan_moves sink overview now
  have hp : P p := hmoves hwork hstart
  have hq : P q := by
    rcases hlast with rfl | rfl
    · exact hp
    · exact hmoves ((visit_asks recheck_asks p.1 p.2).steps.moves) hp
  rw [hend]
  exact hcount q.1 q.2 (fun _ => .zero) hq

end Chain

end HashBoard
