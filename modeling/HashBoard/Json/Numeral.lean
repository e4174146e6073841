import HashBoard.Decimal.Literal
import HashBoard.Single.Basic

/-!
# JSON numbers

A number as it is written, and its value. Digits are gathered into a 64-bit whole number; digits
that do not fit any more are dropped, before the point with a power of ten in their place. A number
without point and exponent that fits is a whole number; any other is the gathered number times or
divided by one power of ten, in double precision.
-/

namespace HashBoard.Json

open Decimal.Literal (valueOf)

structure Numeral where
  negative : Bool
  whole : List Char
  fraction : Option (List Char)
  /-- Whether the exponent is negative, and its digits, when there is one. -/
  exponent : Option (Bool × List Char)
  deriving DecidableEq

inductive Value where
  | natural (n : Nat)
  | negative (n : Nat)
  | real (x : Float)

namespace Numeral

def wordLimit : Nat := 0xffffffffffffffff

def digit (c : Char) : Nat := c.toNat - 48

/-- Gather the digits before the point: the number so far, and the power of ten for digits that did
not fit. -/
def gatherWhole : Nat → List Char → Nat × Int
  | acc, [] => (acc, 0)
  | acc, c :: rest =>
    if wordLimit < acc * 10 + digit c then (acc, rest.length + 1)
    else gatherWhole (acc * 10 + digit c) rest

def gatherFraction : Nat → Int → List Char → Nat × Int
  | acc, power, [] => (acc, power)
  | acc, power, c :: rest =>
    if wordLimit < acc * 10 + digit c then (acc, power)
    else gatherFraction (acc * 10 + digit c) (power - 1) rest

def powerOfTen (n : Nat) : Float := Float.ofScientific 1 false n

/-- A number times a power of ten; none when it is too large. Very small powers are reached by
several divisions, which soon give zero. -/
def scale (x : Float) (power : Int) : Nat → Option Float
  | 0 => some x
  | steps + 1 =>
    if power.natAbs ≤ 308 then
      if 0 ≤ power then
        let y := x * powerOfTen power.natAbs
        if y.isInf then none else some y
      else some (x / powerOfTen power.natAbs)
    else if x == 0 then some x
    else if 0 ≤ power then none
    else scale (x / powerOfTen 308) (power + 308) steps

def real? (n : Numeral) : Option Float :=
  let (acc, power) := gatherWhole 0 n.whole
  let (acc, power) := gatherFraction acc power (n.fraction.getD [])
  let magnitude? : Option Float := match n.exponent with
    | none => scale (UInt64.ofNat acc).toFloat power 8
    | some (down, digits) =>
      let e : Int := valueOf digits
      if 2147483647 < e then
        if acc ≠ 0 ∧ !down then none else some 0
      else scale (UInt64.ofNat acc).toFloat (if down then power - e else power + e) 8
  magnitude?.map fun x => if n.negative then -x else x

def value? (n : Numeral) : Option Value :=
  let whole := valueOf n.whole
  if n.fraction.isNone && n.exponent.isNone && decide (whole ≤ wordLimit) then
    if !n.negative then some (.natural whole)
    else if whole = 0 then some (.real (-0.0))
    else if whole ≤ 0x8000000000000000 then some (.negative whole)
    else some (.real (-(UInt64.ofNat whole).toFloat))
  else n.real?.map .real

end Numeral

namespace Value

def toSingle : Value → Float32
  | natural n => Single.ofNat n
  | negative n => -(Single.ofNat n)
  | real x => Single.narrow x

def toDouble : Value → Float
  | natural n => (UInt64.ofNat n).toFloat
  | negative n => -(UInt64.ofNat n).toFloat
  | real x => x

end Value

end HashBoard.Json
