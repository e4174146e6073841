import HashBoard.Decimal.Fixed

/-!
# Shortest decimals

The fewest decimal digits that read back as the same single-precision number, and of those the
nearest to it; where two are equally near, the caller says which. The reals that read back as a
magnitude `m * 2 ^ q` reach half a step to either side, or a quarter step down where the steps
become smaller; the ends belong to them when `m` is even.
-/

namespace HashBoard.Decimal

/-! ### The interval -/

/-- A magnitude and the reals that read back as it, in units of a quarter step. -/
structure Interval where
  value : Nat
  low : Nat
  high : Nat
  closed : Bool
  den : Nat

namespace Interval

/-- The interval of a magnitude. `lowest` says that the steps do not become smaller below it. -/
def of (mantissa : Nat) (exponent : Int) (lowest : Bool) : Interval :=
  let scale := Nat.pow 2 (exponent - 2).toNat
  let narrowBelow := mantissa = 0x800000 && !lowest
  { value := 4 * mantissa * scale
    low := (4 * mantissa - if narrowBelow then 1 else 2) * scale
    high := (4 * mantissa + 2) * scale
    closed := mantissa % 2 = 0
    den := Nat.pow 2 (2 - exponent).toNat }

def contains (i : Interval) (digits : Nat) (power : Int) : Bool :=
  let lhs := digits * Nat.pow 10 power.toNat * i.den
  let factor := Nat.pow 10 (-power).toNat
  if i.closed then i.low * factor ≤ lhs && lhs ≤ i.high * factor
  else i.low * factor < lhs && lhs < i.high * factor

/-- The neighbour of the magnitude on the grid of `10 ^ power` that lies in the interval; of two the
nearer. -/
def onGrid? (i : Interval) (tie : Tie) (power : Int) : Option Nat :=
  let num := i.value * Nat.pow 10 (-power).toNat
  let den := i.den * Nat.pow 10 power.toNat
  let below := num / den
  match i.contains below power, i.contains (below + 1) power with
  | true, true => some (roundDiv tie num den)
  | true, false => some below
  | false, true => some (below + 1)
  | false, false => none

def search (i : Interval) (tie : Tie) (power : Int) : Nat → Nat × Int
  | 0 => (0, 0)
  | steps + 1 =>
    match i.onGrid? tie power with
    | some digits => if digits = 0 then i.search tie (power - 1) steps else (digits, power)
    | none => i.search tie (power - 1) steps

end Interval

/-! ### Digits -/

def stripZeros : Nat → Nat → Int → Nat × Int
  | 0, digits, power => (digits, power)
  | fuel + 1, digits, power =>
    if digits ≠ 0 ∧ digits % 10 = 0 then stripZeros fuel (digits / 10) (power + 1)
    else (digits, power)

/-- The shortest digits of a positive single-precision magnitude, and the power of ten of the last
one. Powers from 39 down to -46 reach every such magnitude. -/
def shortest (tie : Tie) (mantissa : Nat) (exponent : Int) : Nat × Int :=
  let (digits, power) := (Interval.of mantissa exponent (exponent ≤ -149)).search tie 39 100
  stripZeros 10 digits power

/-! ### Layouts -/

def positional (digits : Nat) (power : Int) : String :=
  let text := Nat.toDigits 10 digits
  match power with
  | .ofNat p => String.ofList (text ++ List.replicate p '0')
  | .negSucc p => placePoint (p + 1) digits

/-- A single-precision number in plain notation: never an exponent, no point after a whole
number, and of two shortest decimals that are equally near the one farther from zero. -/
def plain (x : Float32) : String :=
  match Parts.ofSingle x with
  | .notANumber => "NaN"
  | .infinite negative => if negative then "-inf" else "inf"
  | .finite negative mantissa exponent =>
    let sign := if negative then "-" else ""
    if mantissa = 0 then sign ++ "0"
    else
      let (digits, power) := shortest .up mantissa exponent
      sign ++ positional digits power

def exponentText : Int → String
  | .ofNat e => s!"e+{e}"
  | .negSucc e => s!"e-{e + 1}"

def scientific (digits : Nat) (power : Int) : String :=
  match Nat.toDigits 10 digits with
  | [] => ""
  | [d] => s!"{d}{exponentText power}"
  | d :: rest => s!"{d}.{String.ofList rest}{exponentText (power + rest.length)}"

/-- A single-precision number as a JSON number: with a point from 10^-6 up to 10^13, with an
exponent beyond. Of two shortest decimals that are equally near it is the one whose last digit is
even. What is no number is null. -/
def jsonNumber (x : Float32) : String :=
  match Parts.ofSingle x with
  | .notANumber => "null"
  | .infinite _ => "null"
  | .finite negative mantissa exponent =>
    let sign := if negative then "-" else ""
    if mantissa = 0 then sign ++ "0.0"
    else
      let (digits, power) := shortest .toEven mantissa exponent
      let magnitude : Int := (Nat.toDigits 10 digits).length + power
      if -6 < magnitude ∧ magnitude ≤ 13 then
        sign ++ positional digits power ++ (if 0 ≤ power then ".0" else "")
      else sign ++ scientific digits power

end HashBoard.Decimal
