import HashBoard.Thermal.Settings

/-!
# The two-level drive

The fans run at a high or a low duty, with a dead band between the two thresholds.
-/

namespace HashBoard.Thermal

inductive Band where
  | low | high
  deriving DecidableEq

namespace Band

def name : Band → String
  | low => "Low"
  | high => "High"

/-- The level for a temperature: between the thresholds it stays. -/
def next (previous : Band) (celsius : Float32) (settings : BandSettings) : Band :=
  if celsius > settings.high then high
  else if celsius < settings.low then low
  else previous

def duty (band : Band) (settings : BandSettings) : UInt8 :=
  match band with
  | low => settings.lowDuty
  | high => settings.highDuty

end Band

end HashBoard.Thermal
