import HashBoard.Single.Basic

/-!
# From sensor code to degrees

A chip reports the code of its temperature sensor. One generation gives codes that fall along a
table of even temperature steps, to be interpolated; the other a code that is linear in the
temperature.
-/

namespace HashBoard.Thermal

inductive SensorCurve where
  /-- Codes at `start`, `start + step`, … degrees, interpolated and clamped at both ends. -/
  | table (start step : Float32) (codes : List UInt16)
  /-- `(offset - code) * scale` degrees. -/
  | linear (offset scale : Float32)

namespace SensorCurve

/-- The first pair of neighbours whose second code is at or below `code`, and how many codes stand
before it. -/
def bracket (code : UInt16) : List UInt16 → Nat → Option (Nat × UInt16 × UInt16)
  | hi :: lo :: rest, before =>
    if lo ≤ code then some (before, hi, lo) else bracket code (lo :: rest) (before + 1)
  | _, _ => none

def interpolate (start step : Float32) (codes : List UInt16) (code : UInt16) : Float32 :=
  match codes.head?, codes.getLast? with
  | some first, some last =>
    if first ≤ code then start
    else if code ≤ last then start + step * Single.ofNat (codes.length - 1)
    else
      match bracket code codes 0 with
      | some (before, hi, lo) =>
        let fraction := (hi.toFloat32 - code.toFloat32) / (hi.toFloat32 - lo.toFloat32)
        start + step * (Single.ofNat before + fraction)
      | none => start
  | _, _ => start

def celsius : SensorCurve → UInt16 → Float32
  | table start step codes, code => interpolate start step codes code
  | linear offset scale, code => (offset - code.toFloat32) * scale

/-- Sensor codes of the first generation from -40 °C to 125 °C in steps of 5 °C. -/
def tableA4 : SensorCurve :=
  table (-40) 5
    [814, 800, 786, 772, 758, 744, 730, 715, 700, 685, 670, 654, 638, 622, 606, 590, 574, 557, 540,
     523, 506, 488, 470, 452, 434, 416, 398, 379, 360, 341, 322, 302, 282, 262]

def linearA6 : SensorCurve := linear 588 0.5

end SensorCurve

end HashBoard.Thermal
