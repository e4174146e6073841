import HashBoard.Chain.Basic
import HashBoard.Decimal.Shortest

/-!
# Summaries

What operators see of a chain at one moment, and its text as a JSON object with the fields in a
fixed order and no blanks.
-/

namespace HashBoard

structure ChainSummary where
  id : UInt8
  generation : String
  pllMhz : UInt32
  detectedChips : Nat
  drivenChips : Nat
  activeChips : Nat
  coolingChips : Nat
  disabledChips : Nat
  cores : Nat
  queued : Nat
  hwErrors : Nat
  stales : Nat
  noncesFound : Nat
  rangesDone : Nat
  counters : LifetimeTally
  temperature : Option Thermal.Statistics
  chips : List Chip.Summary

namespace Chain

variable {τ : Type}

def total (c : Chain τ) (counter : ChipTally → Nat) : Nat :=
  c.chips.foldr (fun chip n => counter chip.stats + n) 0

def summary (c : Chain τ) : ChainSummary where
  id := c.id
  generation := c.generation.name
  pllMhz := c.pllMhz
  detectedChips := c.numChips
  drivenChips := c.chips.length
  activeChips := c.chips.countP fun chip => chip.condition.isActive
  coolingChips := c.chips.countP fun chip => chip.condition.isCooling
  disabledChips := c.chips.countP fun chip => chip.condition.isDisabled
  cores := c.numCores
  queued := c.queue.length
  hwErrors := c.total ChipTally.hwErrors
  stales := c.total ChipTally.stales
  noncesFound := c.total ChipTally.noncesFound
  rangesDone := c.total ChipTally.rangesDone
  counters := c.counters
  temperature := c.schedule.stats
  chips := c.chips.map Chip.summary

end Chain

/-! ### As text -/

namespace ChainSummary

/-- A JSON object from fields that are JSON texts. The names hold nothing that needs a quote. -/
def object (fields : List (String × String)) : String :=
  "\x7b" ++ ",".intercalate (fields.map fun f => "\"" ++ f.1 ++ "\":" ++ f.2) ++ "\x7d"

def array (items : List String) : String := "[" ++ ",".intercalate items ++ "]"

def text (s : String) : String := "\"" ++ s ++ "\""

def optional {α : Type} (f : α → String) : Option α → String
  | none => "null"
  | some x => f x

def statisticsJson (s : Thermal.Statistics) : String :=
  object [("min", Decimal.jsonNumber s.min), ("max", Decimal.jsonNumber s.max),
    ("median", Decimal.jsonNumber s.median), ("mean", Decimal.jsonNumber s.mean),
    ("samples", toString s.samples)]

def chipStatsJson (s : ChipTally) : String :=
  object [("hw_errors", toString s.hwErrors), ("stales", toString s.stales),
    ("nonces_found", toString s.noncesFound), ("nonce_ranges_done", toString s.rangesDone)]

def chipJson (c : Chip.Summary) : String :=
  object [("id", toString c.id.toNat), ("cores", toString c.cores.toNat),
    ("state", text c.condition.stateName), ("fail_count", toString c.condition.failures),
    ("jobs_in_flight", toString c.jobsInFlight), ("stats", chipStatsJson c.stats),
    ("temperature_c", optional Decimal.jsonNumber c.temperature)]

def countersJson (c : LifetimeTally) : String :=
  object [("crc_errors", toString c.crcErrors), ("dropped_results", toString c.dropped),
    ("scans", toString c.scans)]

def json (s : ChainSummary) : String :=
  object [("id", toString s.id.toNat), ("generation", text s.generation),
    ("pll_mhz", toString s.pllMhz.toNat), ("detected_chips", toString s.detectedChips),
    ("driven_chips", toString s.drivenChips), ("active_chips", toString s.activeChips),
    ("cooling_chips", toString s.coolingChips), ("disabled_chips", toString s.disabledChips),
    ("cores", toString s.cores), ("queued", toString s.queued),
    ("hw_errors", toString s.hwErrors), ("stales", toString s.stales),
    ("nonces_found", toString s.noncesFound), ("nonce_ranges_done", toString s.rangesDone),
    ("counters", countersJson s.counters), ("temperature", optional statisticsJson s.temperature),
    ("chips", array (s.chips.map chipJson))]

end ChainSummary

end HashBoard
