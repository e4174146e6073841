/-!
# Single-precision numbers

Temperatures, gains and duties are IEEE numbers of 32 bits. This module holds what the program
needs of them beyond arithmetic: the total order of bit patterns, maximum and minimum that
pass over a NaN, conversions to whole numbers that saturate, and the conversion of a duration.
-/

namespace HashBoard.Single

/-! ### Order -/

/-- The place of a bit pattern in the total order: negative NaNs, then numbers from negative to
positive infinity with -0 before 0, then positive NaNs. -/
def orderKey (bits : UInt32) : Nat :=
  let b := bits.toNat
  if b < 0x80000000 then b + 0x80000000 else 0xFFFFFFFF - b

def bitsLe (a b : UInt32) : Bool := orderKey a ≤ orderKey b

/-- The order of numbers by their bits. Only one NaN is among these numbers, a positive one. -/
def totalLe (a b : Float32) : Bool := bitsLe a.toBits b.toBits

/-- The larger number; a NaN gives way to the other operand, and of two equal numbers the first
stays. -/
def max (a b : Float32) : Float32 := if a.isNaN then b else if a < b then b else a

def min (a b : Float32) : Float32 := if a.isNaN then b else if b < a then b else a

/-- The number brought into the range from `lo` to `hi`; none when that range is no range, because
an end is a NaN or the ends are crossed. -/
def clamp? (x lo hi : Float32) : Option Float32 :=
  if lo ≤ hi then
    let y := if x < lo then lo else x
    some (if y > hi then hi else y)
  else none

def lowest : Float32 := Float32.ofBits 0xff7fffff

/-! ### Whole numbers -/

def toWhole (x : Float32) : Nat := x.toUInt64.toNat

/-- The nearest whole number from 0 to 255, halves away from zero; 0 for a NaN. -/
def roundToByte (x : Float32) : UInt8 :=
  let whole := x.toUInt8
  if whole < 255 ∧ x - whole.toFloat32 ≥ 0.5 then whole + 1 else whole

/-! ### Sums and conversions -/

/-- The sum from left to right, from -0. -/
def sum (xs : List Float32) : Float32 := xs.foldl (· + ·) (-0.0)

def ofNat (n : Nat) : Float32 := (UInt64.ofNat n).toFloat32

/-- A duration in nanoseconds as seconds: the whole seconds plus the rest divided by 10^9. -/
def seconds (ns : Nat) : Float32 :=
  ofNat (ns / 1000000000) + ofNat (ns % 1000000000) / 1e9

def narrow (x : Float) : Float32 :=
  Float32.ofModel (Float32.Model.pack (match x.toModel.unpack with
    | .finite sign mantissa exponent _ =>
      Float.Model.UnpackedFloat.roundWithAccuracy Float.Model.Format.binary32 sign mantissa
        exponent .exact
    | other => other))

end HashBoard.Single
