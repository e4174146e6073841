/-!
# The condition of a chip

A chip is active until a probe or a job fails. It then cools down and is probed again once the
cooldown is over; a success makes it active again, and too many failures in a row disable it
for good. Times are in milliseconds and may go backwards; a difference is never
less than zero.
-/

namespace HashBoard

/-- How long a chip cools down, and how many failures in a row disable it. -/
structure Tolerance where
  cooldown : Nat
  disableThreshold : Nat
  deriving DecidableEq

def Tolerance.standard : Tolerance where
  cooldown := 30000
  disableThreshold := 4

inductive Condition where
  | active
  | cooling (since fails : Nat)
  | disabled (fails : Nat)
  deriving DecidableEq

inductive ConditionChange where
  | unchanged
  | enteredCooldown
  | cooldownRestarted
  | recovered
  /-- Returned once, by the failure that reached the threshold. -/
  | disabled
  deriving DecidableEq

def ConditionChange.name : ConditionChange → String
  | unchanged => "Unchanged"
  | enteredCooldown => "EnteredCooldown"
  | cooldownRestarted => "CooldownRestarted"
  | recovered => "Recovered"
  | disabled => "Disabled"

namespace Condition

def stateName : Condition → String
  | active => "active"
  | cooling _ _ => "cooldown"
  | disabled _ => "disabled"

def isActive : Condition → Bool
  | active => true
  | _ => false

def isCooling : Condition → Bool
  | cooling _ _ => true
  | _ => false

def isDisabled : Condition → Bool
  | disabled _ => true
  | _ => false

def failures : Condition → Nat
  | active => 0
  | cooling _ fails => fails
  | disabled fails => fails

def probeDue (h : Condition) (now : Nat) (policy : Tolerance) : Bool :=
  match h with
  | cooling since _ => policy.cooldown ≤ now - since
  | _ => false

def afterFailure (h : Condition) (now : Nat) (policy : Tolerance) :
    ConditionChange × Condition :=
  match h with
  | disabled fails => (.unchanged, disabled fails)
  | active =>
    if policy.disableThreshold ≤ 1 then (.disabled, disabled 1)
    else (.enteredCooldown, cooling now 1)
  | cooling _ fails =>
    if policy.disableThreshold ≤ fails + 1 then (.disabled, disabled (fails + 1))
    else (.cooldownRestarted, cooling now (fails + 1))

def afterSuccess : Condition → ConditionChange × Condition
  | active => (.unchanged, active)
  | cooling _ _ => (.recovered, active)
  | disabled fails => (.unchanged, disabled fails)

def disable (h : Condition) : Condition := disabled h.failures

/-! ### Facts -/

theorem afterFailure_of_disabled {h : Condition} (now : Nat) (policy : Tolerance)
    (hd : h.isDisabled = true) : h.afterFailure now policy = (.unchanged, h) := by
  cases h with
  | disabled fails => rfl
  | active => cases hd
  | cooling since fails => cases hd

theorem afterSuccess_of_disabled {h : Condition} (hd : h.isDisabled = true) :
    h.afterSuccess = (.unchanged, h) := by
  cases h with
  | disabled fails => rfl
  | active => cases hd
  | cooling since fails => cases hd

theorem isDisabled_disable (h : Condition) : h.disable.isDisabled = true := rfl

end Condition

end HashBoard
