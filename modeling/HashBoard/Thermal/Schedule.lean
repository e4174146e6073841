import HashBoard.Thermal.Statistics

/-!
# Sampling schedule

A full pass reads every active chip, replaces the statistics of the chain and picks the chip
closest to their mean as its representative. Between full passes a quick pass reads that chip alone
and moves the statistics by as much as it moved. Times are in milliseconds.
-/

namespace HashBoard.Thermal

inductive Pass where
  | full
  | quick (chip : UInt8)
  deriving DecidableEq

structure Schedule where
  fullInterval : Nat
  quickInterval : Nat
  trim : Float32
  lastFull : Option Nat
  lastQuick : Option Nat
  readings : List (UInt8 × Float32)
  typical : Option (UInt8 × Float32)
  stats : Option Statistics

namespace Schedule

def start (fullInterval quickInterval : Nat) (trim : Float32) : Schedule where
  fullInterval := fullInterval
  quickInterval := quickInterval
  trim := trim
  lastFull := none
  lastQuick := none
  readings := []
  typical := none
  stats := none

/-- Whether an interval has passed since a time; it has when there was no such time. -/
def elapsed (last : Option Nat) (interval now : Nat) : Bool :=
  match last with
  | none => true
  | some time => interval ≤ now - time

def due (s : Schedule) (now : Nat) : Option Pass :=
  if elapsed s.lastFull s.fullInterval now then some .full
  else
    match s.typical with
    | none => none
    | some (chip, _) =>
      if elapsed s.lastQuick s.quickInterval now then some (.quick chip) else none

def record (s : Schedule) (chip : UInt8) (celsius : Float32) : Schedule :=
  { s with readings := s.readings ++ [(chip, celsius)] }

def endFull (s : Schedule) (now : Nat) : Option Statistics × Schedule :=
  let stats := Statistics.ofReadings? (s.readings.map Prod.snd) s.trim
  (stats, { s with
    stats := stats
    typical := stats.bind fun t => typical? t.mean s.readings
    readings := []
    lastFull := some now
    lastQuick := some now })

/-- Close a quick pass with the new reading of the representative, if it could be read. -/
def endQuick (s : Schedule) (now : Nat) (celsius : Option Float32) : Option Statistics × Schedule :=
  let s := { s with lastQuick := some now }
  match s.typical, celsius with
  | some (chip, previous), some reading =>
    let stats := s.stats.map fun t => t.movedBy (reading - previous)
    (stats, { s with stats := stats, typical := some (chip, reading) })
  | _, _ => (none, s)

end Schedule

end HashBoard.Thermal
