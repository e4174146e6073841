import HashBoard.Bus.Command
import HashBoard.Chip.Basic
import HashBoard.Wire.Clock

/-!
# Detection

The self-test reports the number of chips once after a broadcast reset, so a chain is detected by
one sequence of commands, from the reset to a register read of every position. A failed broadcast
ends detection; a failed register read only disables its chip.
-/

namespace HashBoard

open Bus Wire

inductive DetectionError where
  | protocol (cause : ExchangeError)
  | noChips
  | tooManyChips (count limit : Nat)
  deriving DecidableEq

def DetectionError.message : DetectionError → String
  | .protocol cause => cause.message
  | .noChips => "BIST reported no chips"
  | .tooManyChips count limit =>
    s!"BIST reported {count} chips, more than the {limit} a chain can address"

structure DetectionSettings where
  targetMhz : UInt32
  /-- The most chips to drive, whatever the self-test reports. -/
  chipLimit : Option Nat

structure DetectedChain where
  numChips : Nat
  chips : List Chip
  numCores : Nat
  pllMhz : UInt32

namespace Detection

variable {τ : Type} [Channel τ]

abbrev Step (τ α : Type) := ExceptT DetectionError (StateM (Bus τ)) α

def step {α : Type} (x : Exchange τ α) : Step τ α := x.adapt .protocol

def classify (g : Generation) (id : UInt8) : Except ExchangeError Register → Chip
  | .ok register =>
    let chip := { Chip.atPosition id with
      cores := register.coreNumber
      register := some register }
    if chip.cores < g.brokenCores then { chip with condition := chip.condition.disable } else chip
  | .error _ => { Chip.atPosition id with condition := Condition.active.disable }

def probe (id : UInt8) : StateM (Bus τ) Chip := do
  let answer ← (fetchRegister id).run
  let bus ← get
  return classify bus.generation id answer

def probeAll : (before count : Nat) → StateM (Bus τ) (List Chip)
  | _, 0 => return []
  | before, count + 1 => do
    let chip ← probe (UInt8.ofNat (before + 1))
    let rest ← probeAll (before + 1) count
    return chip :: rest

def workingCores (chips : List Chip) : Nat :=
  (chips.filter fun c => !c.condition.isDisabled).foldr (fun c n => c.cores.toNat + n) 0

/-- Reset, test and clock the chain, then read the register of every position driven. -/
def run (settings : DetectionSettings) : Step τ DetectedChain := do
  step (reset broadcast)
  let count ← step (startSelfTest broadcast)
  let numChips := count.toNat
  if numChips = 0 then throw .noChips
  if longestChain < numChips then throw (.tooManyChips numChips longestChain)
  step (storeRegister broadcast (clockRegister settings.targetMhz))
  step (collectSelfTest broadcast)
  step (fixSelfTest broadcast)
  let pllMhz := selectClock settings.targetMhz
  step (storeSecondary broadcast (Register.sensorDivider pllMhz))
  let driven := settings.chipLimit.elim numChips fun limit => Nat.min limit numChips
  let chips ← (probeAll 0 driven : StateM (Bus τ) (List Chip))
  return { numChips, chips, numCores := workingCores chips, pllMhz }

def detect (settings : DetectionSettings) (bus : Bus τ) :
    Except DetectionError DetectedChain × Bus τ :=
  StateT.run (ExceptT.run (run settings)) bus

end Detection

end HashBoard
