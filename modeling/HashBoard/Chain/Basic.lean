import HashBoard.Chain.Detection
import HashBoard.Chain.Power
import HashBoard.Thermal.Overview
import HashBoard.Thermal.Schedule

/-!
# Chains

The state of one chain: its bus, its chips, the work that waits for them, the schedule by which
they are sampled and the counters shown to operators.
-/

namespace HashBoard

/-! ### Options and errors -/

structure DrivingOptions where
  tolerance : Tolerance
  difficultyPosition : UInt8
  /-- Results read in one scan before dispatch gets its turn. -/
  drainLimit : Nat
  /-- Whether taking work back empties the job queues of the chips. -/
  resetQueuesOnReclaim : Bool

def DrivingOptions.standard : DrivingOptions where
  tolerance := .standard
  difficultyPosition := Wire.Difficulty.defaultPosition
  drainLimit := 256
  resetQueuesOnReclaim := true

inductive OperationError where
  | protocol (cause : Wire.ExchangeError)
  | exhausted (slots : Nat)
  | power (cause : Device.DeviceError)
  deriving DecidableEq

def exhaustedMessage (slots : Nat) : String := s!"all {slots} job slots are occupied"

def OperationError.message : OperationError → String
  | .protocol cause => cause.message
  | .exhausted slots => exhaustedMessage slots
  | .power cause => s!"power control: {cause.message}"

/-! ### Tallies -/

structure ScanTally where
  idle : Bool
  results : Nat
  submitted : Nat
  stale : Nat
  hwErrors : Nat
  crcErrors : Nat
  dropped : Nat
  dispatched : Nat
  cooled : Nat
  recovered : Nat
  disabled : Nat
  temperature : Option Thermal.Statistics

namespace ScanTally

def zero : ScanTally where
  idle := false
  results := 0
  submitted := 0
  stale := 0
  hwErrors := 0
  crcErrors := 0
  dropped := 0
  dispatched := 0
  cooled := 0
  recovered := 0
  disabled := 0
  temperature := none

def isUneventful (r : ScanTally) : Bool := r.results == 0 && r.dispatched == 0

end ScanTally

structure LifetimeTally where
  crcErrors : Nat
  /-- Results for an unknown chip or slot, or for a chip that is not active. -/
  dropped : Nat
  scans : Nat
  deriving DecidableEq

/-! ### The chain -/

structure Chain (τ : Type) where
  id : UInt8
  options : DrivingOptions
  bus : Bus τ
  chips : List Chip
  numChips : Nat
  /-- Cores of the chips that are not disabled. -/
  numCores : Nat
  pllMhz : UInt32
  /-- Work that waits for a chip, oldest first. -/
  queue : List Work
  counters : LifetimeTally
  schedule : Thermal.Schedule
  power : Option PowerLine
  publishes : Bool
  idleReported : Bool

namespace Chain

variable {τ : Type}

def ofDetection (id : UInt8) (bus : Bus τ) (detected : DetectedChain) (options : DrivingOptions)
    (schedule : Thermal.Schedule) : Chain τ where
  id := id
  options := options
  bus := bus
  chips := detected.chips
  numChips := detected.numChips
  numCores := detected.numCores
  pllMhz := detected.pllMhz
  queue := []
  counters := ⟨0, 0, 0⟩
  schedule := schedule
  power := none
  publishes := false
  idleReported := false

def poweredBy (c : Chain τ) (power : PowerLine) : Chain τ := { c with power := some power }

/-- The same chain, publishing; the overview waits for it from now on. -/
def publishingTo (c : Chain τ) (overview : Thermal.Overview) : Chain τ × Thermal.Overview :=
  ({ c with publishes := true }, overview.register c.id)

def generation (c : Chain τ) : Generation := c.bus.generation

/-- Whether a chip was measured though the temperature code has no place in its register. -/
def lostSensor (c : Chain τ) : Bool :=
  c.generation.sensorPlace.isNone && c.chips.any fun chip => chip.temperature.isSome

def usableChips (c : Chain τ) : Nat := c.chips.countP fun chip => !chip.condition.isDisabled

/-! ### Offers -/

def queueSharePerChip : Nat := 2

def capacity (c : Chain τ) : Nat := queueSharePerChip * c.usableChips

/-- Take an item at the end of the queue while there is room. A refused item stays with the caller. -/
def offer (c : Chain τ) (work : Work) : Bool × Chain τ :=
  if c.capacity ≤ c.queue.length then (false, c)
  else (true, { c with queue := c.queue ++ [work] })

end Chain

end HashBoard
