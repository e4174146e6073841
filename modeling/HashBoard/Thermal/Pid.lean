import HashBoard.Thermal.Settings

/-!
# The fan controller's arithmetic

A controller with proportional, integral and derivative gain. The error is the temperature minus
its target, so a hot chain pushes the duty up from the offset. The integral stays within a range
around zero and stops growing while the output is at a limit. Durations are in nanoseconds.
-/

namespace HashBoard.Thermal

structure Pid where
  gains : Gains
  integral : Float32
  outputMin : Float32
  outputMax : Float32
  lastError : Option Float32

namespace Pid

def ofGains (gains : Gains) : Pid where
  gains := gains
  integral := 0
  outputMin := 0
  outputMax := 100
  lastError := none

def withLimits (p : Pid) (min max : Float32) : Pid := { p with outputMin := min, outputMax := max }

def reset (p : Pid) : Pid := { p with integral := 0, lastError := none }

/-- The integral after an error that lasted `seconds`; none when its range is empty because the
limit is a NaN. -/
def integrate? (p : Pid) (error seconds : Float32) : Option Float32 :=
  let limit := p.gains.integralLimit.abs
  Single.clamp? (p.integral + error * seconds) (-limit) limit

def update? (p : Pid) (error : Float32) (ns : Nat) (freeze : Bool) : Option (Float32 × Pid) :=
  let dt := Single.seconds ns
  let integral? := if freeze then some p.integral else p.integrate? error dt
  integral?.map fun integral =>
    let derivative : Float32 := match p.lastError with
      | some last => if dt > 0 then (error - last) / dt else 0
      | none => 0
    (p.gains.offset + p.gains.kp * error + p.gains.ki * integral + p.gains.kd * derivative,
      { p with integral := integral, lastError := some error })

/-- Whether the output is at a limit and the error pushes further. -/
def saturated (p : Pid) (error : Float32) : Bool :=
  let probe := p.gains.offset + p.gains.kp * error + p.gains.ki * p.integral
  (probe ≥ p.outputMax && error > 0) || (probe ≤ p.outputMin && error < 0)

/-- An output as a duty: brought up to the lower limit, then down to the upper one, then rounded. -/
def limit (p : Pid) (output : Float32) : UInt8 :=
  Single.roundToByte (Single.min (Single.max output p.outputMin) p.outputMax)

def duty? (p : Pid) (input target : Float32) (ns : Nat) : Option (UInt8 × Pid) :=
  let error := input - target
  (p.update? error ns (p.saturated error)).map fun (output, p') => (p'.limit output, p')

end Pid

end HashBoard.Thermal
