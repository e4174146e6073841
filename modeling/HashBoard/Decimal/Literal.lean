/-!
# Decimal numbers in text

A number is an optional sign and either digits with an optional point and an optional exponent, at
least one digit before the exponent, or one of the words for infinity and for no number in any
case. It is rounded once, to the nearest number of 32 or 64 bits.
-/

namespace HashBoard.Decimal

inductive LiteralError where
  | empty | invalid
  deriving DecidableEq

def LiteralError.message : LiteralError → String
  | empty => "cannot parse float from empty string"
  | invalid => "invalid float literal"

inductive Literal where
  /-- The magnitude `digits * 10 ^ power` with a sign. -/
  | number (negative : Bool) (digits : Nat) (power : Int)
  | infinite (negative : Bool)
  | notANumber
  deriving DecidableEq

namespace Literal

/-! ### Reading -/

def isDigit (c : Char) : Bool := '0' ≤ c && c ≤ '9'

def valueOf (cs : List Char) : Nat := cs.foldl (fun n c => 10 * n + (c.toNat - 48)) 0

def splitSign : List Char → Bool × List Char
  | '-' :: rest => (true, rest)
  | '+' :: rest => (false, rest)
  | rest => (false, rest)

/-- The exponent at the end of a number; a text that ends before it has exponent 0. -/
def readExponent? : List Char → Option Int
  | [] => some 0
  | c :: rest =>
    if c = 'e' ∨ c = 'E' then
      let (negative, digits) := splitSign rest
      if digits.isEmpty || !digits.all isDigit then none
      else some (if negative then -(valueOf digits : Int) else valueOf digits)
    else none

def readMagnitude? (text : List Char) : Option (Nat × Int) :=
  let whole := text.takeWhile isDigit
  let rest := text.dropWhile isDigit
  let (fraction, rest) := match rest with
    | '.' :: after => (after.takeWhile isDigit, after.dropWhile isDigit)
    | _ => ([], rest)
  if whole.isEmpty && fraction.isEmpty then none
  else (readExponent? rest).map fun e => (valueOf (whole ++ fraction), e - fraction.length)

def read (text : List Char) : Except LiteralError Literal :=
  if text.isEmpty then .error .empty
  else
    let (negative, rest) := splitSign text
    match readMagnitude? rest with
    | some (digits, power) => .ok (number negative digits power)
    | none =>
      let word := String.ofList (rest.map Char.toLower)
      if word = "inf" ∨ word = "infinity" then .ok (infinite negative)
      else if word = "nan" then .ok notANumber
      else .error .invalid

/-! ### Rounding -/

/-- A power of ten beyond which a magnitude with that many digits is infinite, and one below which
it is zero, for either width; magnitudes in between are rounded exactly. -/
def outOfRange (digits : Nat) (power : Int) : Option Bool :=
  let size := power + (Nat.toDigits 10 digits).length
  if digits = 0 then some false
  else if 400 < size then some true
  else if size < -400 then some false
  else none

def toSingle : Literal → Float32
  | notANumber => Float32.ofBits 0x7fc00000
  | infinite negative => Float32.ofBits (if negative then 0xff800000 else 0x7f800000)
  | number negative digits power =>
    let magnitude := match outOfRange digits power with
      | some true => Float32.ofBits 0x7f800000
      | some false => 0
      | none => Float32.ofScientific digits (power < 0) power.natAbs
    if negative then -magnitude else magnitude

def toDouble : Literal → Float
  | notANumber => Float.ofBits 0x7ff8000000000000
  | infinite negative => Float.ofBits (if negative then 0xfff0000000000000 else 0x7ff0000000000000)
  | number negative digits power =>
    let magnitude := match outOfRange digits power with
      | some true => Float.ofBits 0x7ff0000000000000
      | some false => 0
      | none => Float.ofScientific digits (power < 0) power.natAbs
    if negative then -magnitude else magnitude

end Literal

end HashBoard.Decimal
