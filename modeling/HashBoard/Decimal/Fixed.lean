/-!
# Fixed places

Numbers of 32 and 64 bits written with a fixed number of decimal places. The exact binary value is
rounded, and a tie goes to the even digit. The sign of a zero is kept.
-/

namespace HashBoard.Decimal

/-- A number taken apart: its sign, and its magnitude `mantissa * 2 ^ exponent` when it is
finite. -/
inductive Parts where
  | finite (negative : Bool) (mantissa : Nat) (exponent : Int)
  | infinite (negative : Bool)
  | notANumber

namespace Parts

/-- The parts of a number with `fractionBits` stored mantissa bits, `exponentBits` exponent bits
and the given pattern. -/
def ofPattern (fractionBits exponentBits pattern : Nat) : Parts :=
  let hidden := Nat.pow 2 fractionBits
  let exponents := Nat.pow 2 exponentBits
  let fraction := pattern % hidden
  let biased := pattern / hidden % exponents
  let negative := pattern / hidden / exponents % 2 == 1
  let offset : Int := exponents / 2 - 1 + fractionBits
  if biased = exponents - 1 then
    if fraction = 0 then infinite negative else notANumber
  else if biased = 0 then finite negative fraction (1 - offset)
  else finite negative (hidden + fraction) (biased - offset)

def ofSingle (x : Float32) : Parts := ofPattern 23 8 x.toBits.toNat

def ofDouble (x : Float) : Parts := ofPattern 52 11 x.toBits.toNat

end Parts

/-- Where a number half way between two whole numbers goes. -/
inductive Tie where
  | toEven
  | up
  deriving DecidableEq

def Tie.choose : Tie → Nat → Nat
  | toEven, lower => if lower % 2 = 0 then lower else lower + 1
  | up, lower => lower + 1

def roundDiv (tie : Tie) (num den : Nat) : Nat :=
  let q := num / den
  let twice := 2 * (num % den)
  if twice < den then q
  else if den < twice then q + 1
  else tie.choose q

def scaled (places mantissa : Nat) (exponent : Int) : Nat :=
  match exponent with
  | .ofNat e => mantissa * Nat.pow 2 e * Nat.pow 10 places
  | .negSucc e => roundDiv .toEven (mantissa * Nat.pow 10 places) (Nat.pow 2 (e + 1))

def placePoint (places units : Nat) : String :=
  let digits := Nat.toDigits 10 units
  let digits := List.replicate (places + 1 - digits.length) '0' ++ digits
  let whole := digits.take (digits.length - places)
  if places = 0 then String.ofList whole
  else String.ofList (whole ++ '.' :: digits.drop (digits.length - places))

def fixed (places : Nat) : Parts → String
  | .finite negative mantissa exponent =>
    (if negative then "-" else "") ++ placePoint places (scaled places mantissa exponent)
  | .infinite negative => if negative then "-inf" else "inf"
  | .notANumber => "NaN"

def padLeft (width : Nat) (text : String) : String :=
  String.ofList (List.replicate (width - text.length) ' ') ++ text

end HashBoard.Decimal
