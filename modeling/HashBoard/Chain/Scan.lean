import HashBoard.Chain.Basic

/-!
# Scans

One scan of a chain: take temperatures when that is due, hand the results that chips report to the
sink, give waiting work to chips with room and probe the chips whose cooldown is over. A failed
exchange counts against its chip, except while results are read, where it ends the scan.
-/

namespace HashBoard

open Bus Wire

/-! ### What a scan carries along -/

/-- The part of a chain and of its surroundings that every phase of a scan may change. -/
structure Cycle (τ : Type) where
  bus : Bus τ
  queue : List Work
  numCores : Nat
  counters : LifetimeTally
  sink : Sink
  tally : ScanTally

namespace Cycle

variable {τ : Type}

def count (cy : Cycle τ) (f : ScanTally → ScanTally) : Cycle τ :=
  { cy with tally := f cy.tally }

def complete (cy : Cycle τ) (work : Work) (status : WorkOutcome) : Cycle τ :=
  { cy with sink := cy.sink.complete work status }

/-- Account for a change of condition. A chip newly disabled gives up its cores and its jobs. -/
def applyChange (cy : Cycle τ) (change : ConditionChange) (chip : Chip) : Chip × Cycle τ :=
  match change with
  | .unchanged => (chip, cy)
  | .cooldownRestarted => (chip, cy)
  | .enteredCooldown => (chip, cy.count fun r => { r with cooled := r.cooled + 1 })
  | .recovered => (chip, cy.count fun r => { r with recovered := r.recovered + 1 })
  | .disabled =>
    let (works, slots) := chip.slots.drain
    ({ chip with slots },
      { cy with
        numCores := cy.numCores - chip.cores.toNat
        sink := cy.sink.completeAll works .discarded
        tally := { cy.tally with disabled := cy.tally.disabled + 1 } })

def fail (cy : Cycle τ) (policy : Tolerance) (now : Nat) (chip : Chip) : Chip × Cycle τ :=
  let (change, condition) := chip.condition.afterFailure now policy
  cy.applyChange change { chip with condition }

def visit (f : Chip → Cycle τ → Chip × Cycle τ) : List Chip → Cycle τ → List Chip × Cycle τ
  | [], cy => ([], cy)
  | chip :: rest, cy =>
    let (chip, cy) := f chip cy
    let (rest, cy) := visit f rest cy
    (chip :: rest, cy)

variable [Channel τ]

/-! ### Temperatures -/

def measure (policy : Tolerance) (now : Nat) (chip : Chip) (cy : Cycle τ) :
    Option Float32 × Chip × Cycle τ :=
  if chip.condition.isActive then
    match (fetchRegister chip.id).runOn cy.bus with
    | (.ok register, bus) =>
      let celsius := bus.generation.celsius register
      (some celsius, { chip with register := some register, temperature := some celsius },
        { cy with bus })
    | (.error _, bus) =>
      let (chip, cy) := { cy with bus }.fail policy now chip
      (none, chip, cy)
  else (none, chip, cy)

def measureAll (policy : Tolerance) (now : Nat) :
    List Chip → Thermal.Schedule → Cycle τ → List Chip × Thermal.Schedule × Cycle τ
  | [], schedule, cy => ([], schedule, cy)
  | chip :: rest, schedule, cy =>
    let (celsius, chip, cy) := cy.measure policy now chip
    let schedule := match celsius with
      | some reading => schedule.record chip.id reading
      | none => schedule
    let (rest, schedule, cy) := measureAll policy now rest schedule cy
    (chip :: rest, schedule, cy)

def sample (policy : Tolerance) (now : Nat) (chips : List Chip) (schedule : Thermal.Schedule)
    (cy : Cycle τ) : Option Thermal.Statistics × List Chip × Thermal.Schedule × Cycle τ :=
  match schedule.due now with
  | none => (none, chips, schedule, cy)
  | some .full =>
    let (chips, schedule, cy) := measureAll policy now chips schedule cy
    let (stats, schedule) := schedule.endFull now
    (stats, chips, schedule, cy)
  | some (.quick id) =>
    let place := id.toNat - 1
    match chips[place]? with
    | none =>
      let (stats, schedule) := schedule.endQuick now none
      (stats, chips, schedule, cy)
    | some chip =>
      let (celsius, chip, cy) := cy.measure policy now chip
      let (stats, schedule) := schedule.endQuick now celsius
      (stats, chips.set place chip, schedule, cy)

/-! ### Results -/

def drop (cy : Cycle τ) : Cycle τ :=
  { cy with
    counters := { cy.counters with dropped := cy.counters.dropped + 1 }
    tally := { cy.tally with dropped := cy.tally.dropped + 1 } }

def countCrcError (cy : Cycle τ) : Cycle τ :=
  { cy with
    counters := { cy.counters with crcErrors := cy.counters.crcErrors + 1 }
    tally := { cy.tally with crcErrors := cy.tally.crcErrors + 1 } }

/-- Hand the nonce of an active chip to the sink, when its slot holds an item. -/
def credit (result : FoundNonce) (chip : Chip) (cy : Cycle τ) : Chip × Cycle τ :=
  match chip.slots.get? result.slot with
  | none =>
    ({ chip with stats := { chip.stats with stales := chip.stats.stales + 1 } },
      cy.count fun r => { r with stale := r.stale + 1 })
  | some work =>
    let (accepted, sink) := cy.sink.submit work chip.id result.nonce
    let cy := { cy with sink }
    if accepted then
      ({ chip with stats := { chip.stats with noncesFound := chip.stats.noncesFound + 1 } },
        cy.count fun r => { r with submitted := r.submitted + 1 })
    else
      ({ chip with stats := { chip.stats with
          hwErrors := chip.stats.hwErrors + 1
          rangesDone := chip.stats.rangesDone - 1 } },
        cy.count fun r => { r with hwErrors := r.hwErrors + 1 })

def takeResult (result : FoundNonce) (chips : List Chip) (cy : Cycle τ) :
    List Chip × Cycle τ :=
  let cy := cy.count fun r => { r with results := r.results + 1 }
  let place := result.chip.toNat - 1
  match if result.chip = 0 then none else chips[place]? with
  | none => (chips, cy.drop)
  | some chip =>
    if !JobSlots.isSlot result.slot then (chips, cy.drop)
    else if !chip.condition.isActive then (chips, cy.drop)
    else
      let (chip, cy) := cy.credit result chip
      (chips.set place chip, cy)

def takeResults : Nat → List Chip → Cycle τ →
    Except ExchangeError Unit × List Chip × Cycle τ
  | 0, chips, cy => (.ok (), chips, cy)
  | limit + 1, chips, cy =>
    match fetchResult.runOn cy.bus with
    | (.ok none, bus) => (.ok (), chips, { cy with bus })
    | (.ok (some result), bus) =>
      let (chips, cy) := { cy with bus }.takeResult result chips
      takeResults limit chips cy
    | (.error (.crc _ _), bus) => takeResults limit chips { cy with bus }.countCrcError
    | (.error cause, bus) => (.error cause, chips, { cy with bus })

/-! ### Jobs -/

/-- Put a released item back in its slot; one that cannot go back is handed back. -/
def giveBack (previous : Option Work) (chip : Chip) (cy : Cycle τ) : Chip × Cycle τ :=
  match previous with
  | none => (chip, cy)
  | some work =>
    match chip.slots.giveBack work with
    | (.ok (), slots) => ({ chip with slots }, cy)
    | (.error refused, slots) => ({ chip with slots }, cy.complete refused .discarded)

/-- Send work to the next slot of a chip. The item that was in the slot is retired only once the
new job is on the wire; when it is not, the new item goes back as failed. -/
def giveWork (options : DrivingOptions) (work : Work) (chip : Chip) (cy : Cycle τ) :
    Except OperationError Unit × Chip × Cycle τ :=
  let (previous, slots) := chip.slots.release
  let chip := { chip with slots }
  match chip.slots.firstFree? with
  | none =>
    let (chip, cy) := cy.giveBack previous chip
    (.error (.exhausted 4), chip, cy.complete work .failed)
  | some slot =>
    let job : Job := { chip := chip.id, slot, spec := work.spec options.difficultyPosition }
    match (sendJob (job.frame cy.bus.generation.jobCrc)).runOn cy.bus with
    | (.error cause, bus) =>
      let (chip, cy) := { cy with bus }.giveBack previous chip
      (.error (.protocol cause), chip, cy.complete work .failed)
    | (.ok (), bus) =>
      let cy := { cy with bus }
      let cy := match previous with
        | some done => cy.complete done .consumed
        | none => cy
      match chip.slots.put slot work with
      | (.error refused, slots) =>
        (.error (.exhausted slots.held), { chip with slots }, cy.complete refused .failed)
      | (.ok (), slots) =>
        (.ok (), { chip with
          slots
          stats := { chip.stats with rangesDone := chip.stats.rangesDone + 1 } }, cy)

def dispatchTo (options : DrivingOptions) (now : Nat) (chip : Chip) (cy : Cycle τ) :
    Chip × Cycle τ :=
  if chip.condition.isActive then
    match (fetchRegister chip.id).runOn cy.bus with
    | (.error _, bus) => { cy with bus }.fail options.tolerance now chip
    | (.ok register, bus) =>
      let cy := { cy with bus }
      let (_, condition) := chip.condition.afterSuccess
      let chip := { chip with register := some register, condition }
      if register.isBusy bus.generation.busyMask then (chip, cy)
      else
        match cy.queue with
        | [] => (chip, cy)
        | work :: queue =>
          match { cy with queue }.giveWork options work chip with
          | (.ok (), chip, cy) =>
            (chip, cy.count fun r => { r with dispatched := r.dispatched + 1 })
          | (.error _, chip, cy) => cy.fail options.tolerance now chip
  else (chip, cy)

/-! ### Recovery -/

def recheck (options : DrivingOptions) (now : Nat) (chip : Chip) (cy : Cycle τ) : Chip × Cycle τ :=
  if chip.condition.probeDue now options.tolerance then
    match (fetchRegister chip.id).runOn cy.bus with
    | (.ok register, bus) =>
      let (change, condition) := chip.condition.afterSuccess
      { cy with bus }.applyChange change { chip with register := some register, condition }
    | (.error _, bus) => { cy with bus }.fail options.tolerance now chip
  else (chip, cy)

end Cycle

/-! ### The whole scan -/

namespace Chain

variable {τ : Type}

def cycle (c : Chain τ) (sink : Sink) : Cycle τ where
  bus := c.bus
  queue := c.queue
  numCores := c.numCores
  counters := c.counters
  sink := sink
  tally := .zero

def absorb (c : Chain τ) (chips : List Chip) (schedule : Thermal.Schedule) (cy : Cycle τ) :
    Chain τ :=
  { c with
    bus := cy.bus
    queue := cy.queue
    numCores := cy.numCores
    counters := cy.counters
    chips := chips
    schedule := schedule }

structure Scanned (τ : Type) where
  result : Except OperationError ScanTally
  chain : Chain τ
  sink : Sink
  overview : Thermal.Overview

variable [Channel τ]

/-- One scan. A chain without working cores does nothing but say so once. -/
def scan (c : Chain τ) (sink : Sink) (overview : Thermal.Overview) (now : Nat) : Scanned τ :=
  let c := { c with counters := { c.counters with scans := c.counters.scans + 1 } }
  if c.numCores = 0 then
    let overview :=
      if !c.idleReported && c.publishes then overview.disable c.id else overview
    { result := .ok { ScanTally.zero with idle := true }
      chain := { c with idleReported := true }
      sink, overview }
  else
    let policy := c.options.tolerance
    let (stats, chips, schedule, cy) := (c.cycle sink).sample policy now c.chips c.schedule
    let overview := match stats with
      | some s => if c.publishes then overview.publish c.id s else overview
      | none => overview
    let cy := cy.count fun r => { r with temperature := stats }
    match cy.takeResults c.options.drainLimit chips with
    | (.error cause, chips, cy) =>
      { result := .error (.protocol cause)
        chain := c.absorb chips schedule cy
        sink := cy.sink, overview }
    | (.ok (), chips, cy) =>
      let (chips, cy) := Cycle.visit (Cycle.dispatchTo c.options now) chips cy
      let (chips, cy) := Cycle.visit (Cycle.recheck c.options now) chips cy
      { result := .ok cy.tally
        chain := c.absorb chips schedule cy
        sink := cy.sink, overview }

end Chain

end HashBoard
