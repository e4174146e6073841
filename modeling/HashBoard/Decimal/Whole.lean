/-!
# Whole numbers in text

Unsigned numbers in some base, with an optional plus sign and an upper bound. The first character
that is no digit, or at which the bound is passed, decides the error.
-/

namespace HashBoard.Decimal

inductive WholeError where
  | empty | invalidDigit | tooLarge
  deriving DecidableEq

def WholeError.message : WholeError → String
  | empty => "cannot parse integer from empty string"
  | invalidDigit => "invalid digit found in string"
  | tooLarge => "number too large to fit in target type"

def digitValue? (base : Nat) (c : Char) : Option Nat :=
  let value? :=
    if '0' ≤ c ∧ c ≤ '9' then some (c.toNat - 48)
    else if 'a' ≤ c ∧ c ≤ 'z' then some (c.toNat - 87)
    else if 'A' ≤ c ∧ c ≤ 'Z' then some (c.toNat - 55)
    else none
  value?.filter fun v => v < base

def readDigits (base bound : Nat) : Nat → List Char → Except WholeError Nat
  | acc, [] => .ok acc
  | acc, c :: rest =>
    match digitValue? base c with
    | none => .error .invalidDigit
    | some d =>
      if bound < acc * base + d then .error .tooLarge
      else readDigits base bound (acc * base + d) rest

def readWhole (base bound : Nat) (text : List Char) : Except WholeError Nat :=
  match text with
  | [] => .error .empty
  | [_] => readDigits base bound 0 text
  | '+' :: rest => readDigits base bound 0 rest
  | _ => readDigits base bound 0 text

theorem readDigits_le {base bound acc n : Nat} {text : List Char} (h : acc ≤ bound)
    (hr : readDigits base bound acc text = .ok n) : n ≤ bound := by
  induction text generalizing acc with
  | nil =>
    cases hr
    exact h
  | cons c rest ih =>
    simp only [readDigits] at hr
    split at hr
    · cases hr
    · split at hr
      · cases hr
      · exact ih (by omega) hr

end HashBoard.Decimal
