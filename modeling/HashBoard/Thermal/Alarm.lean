import HashBoard.Decimal.Fixed

/-!
# Alarms

The report of a dangerous temperature.
-/

namespace HashBoard.Thermal

structure Alarm where
  /-- The chain concerned; none when nothing is known of the chains. -/
  chain : Option UInt8
  max : Float32
  reason : String

def Alarm.message (e : Alarm) : String :=
  let celsius := Decimal.fixed 1 (Decimal.Parts.ofSingle e.max)
  match e.chain with
  | some chain => s!"chain {chain.toNat}: {e.reason} ({celsius}°C)"
  | none => s!"{e.reason} ({celsius}°C)"

end HashBoard.Thermal
