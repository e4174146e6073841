import HashBoard.Chip.Condition
import HashBoard.Chip.JobSlots
import HashBoard.Wire.Register
import HashBoard.Work.Basic

/-!
# Chips

One chip of a chain: its position, what it last reported, its condition, the jobs it holds and the
counters shown to operators.
-/

namespace HashBoard

structure ChipTally where
  hwErrors : Nat
  /-- Results for a slot that held no job. -/
  stales : Nat
  noncesFound : Nat
  /-- Jobs sent. -/
  rangesDone : Nat
  deriving DecidableEq

def ChipTally.zero : ChipTally := ⟨0, 0, 0, 0⟩

structure Chip where
  /-- The position on the chain, from 1; also the address. -/
  id : UInt8
  cores : UInt8
  register : Option Wire.Register
  condition : Condition
  slots : JobSlots Work
  stats : ChipTally
  temperature : Option Float32

namespace Chip

def atPosition (id : UInt8) : Chip where
  id := id
  cores := 0
  register := none
  condition := .active
  slots := .empty
  stats := .zero
  temperature := none

structure Summary where
  id : UInt8
  cores : UInt8
  condition : Condition
  jobsInFlight : Nat
  stats : ChipTally
  temperature : Option Float32

def summary (c : Chip) : Summary where
  id := c.id
  cores := c.cores
  condition := c.condition
  jobsInFlight := c.slots.held
  stats := c.stats
  temperature := c.temperature

end Chip

end HashBoard
