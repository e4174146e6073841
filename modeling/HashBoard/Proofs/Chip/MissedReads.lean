import HashBoard.Chip.Condition
import Mathlib.Tactic.Common

/-!
# Missed reads

A chip that ignores a given number of reads, by itself: its condition beside the reads that it still
ignores. Each read that it ignores counts as a failure, and the first one that it answers while it
cools down brings it back. The failures counted and those still to come add up to the given number,
whoever asks and when.
-/

namespace HashBoard

/-- A condition and the reads that the chip still ignores. -/
abbrev Standing := Condition × Nat

/-- What a read changes. -/
inductive Turn (policy : Tolerance) (now : Nat) : Standing → Standing → Prop
  | recovered (since fails : Nat) : Turn policy now (.cooling since fails, 0) (.active, 0)
  | ignored {condition : Condition} (reads : Nat) (hstands : condition.isDisabled = false) :
    Turn policy now (condition, reads + 1) ((condition.afterFailure now policy).2, reads)

/-- A chip that was to ignore `budget` reads when it was active. -/
inductive Phase (threshold budget : Nat) : Standing → Prop
  | active {reads : Nat} (h : reads = budget ∨ (reads = 0 ∧ budget < threshold)) :
    Phase threshold budget (.active, reads)
  | cooling {since fails reads : Nat} (hsum : fails + reads = budget) (hpos : 0 < fails)
    (hlow : fails < threshold) : Phase threshold budget (.cooling since fails, reads)
  | disabled {fails reads : Nat} (h : threshold ≤ budget) :
    Phase threshold budget (.disabled fails, reads)

namespace Standing

/-- A bound on the scans until the chip is settled. -/
def weight : Standing → Nat
  | (.active, reads) => reads
  | (.cooling _ _, reads) => reads + 1
  | (.disabled _, _) => 0

/-- It is not to be found out any more that the chip ignores reads. -/
def Tried (x : Standing) : Prop := x.1 = .active → x.2 = 0

end Standing

open Standing

variable {policy : Tolerance} {now budget threshold : Nat} {x y : Standing}

namespace Condition

theorem afterFailure_cases {c : Condition} (now : Nat) (policy : Tolerance)
    (h : c.isDisabled = false) :
    (policy.disableThreshold ≤ c.failures + 1 ∧
        (c.afterFailure now policy).2 = .disabled (c.failures + 1)) ∨
      (c.failures + 1 < policy.disableThreshold ∧
        (c.afterFailure now policy).2 = .cooling now (c.failures + 1)) := by
  cases c with
  | active =>
    unfold afterFailure
    by_cases hlimit : policy.disableThreshold ≤ 1
    · exact .inl ⟨hlimit, congrArg Prod.snd (if_pos hlimit)⟩
    · exact .inr ⟨Nat.lt_of_not_le hlimit, congrArg Prod.snd (if_neg hlimit)⟩
  | cooling since fails =>
    unfold afterFailure
    by_cases hlimit : policy.disableThreshold ≤ fails + 1
    · exact .inl ⟨hlimit, congrArg Prod.snd (if_pos hlimit)⟩
    · exact .inr ⟨Nat.lt_of_not_le hlimit, congrArg Prod.snd (if_neg hlimit)⟩
  | disabled fails => cases h

/-- Without a cooldown a chip is asked again whenever it cools down. -/
theorem probeDue_eq_isCooling (c : Condition) (now : Nat) (h : policy.cooldown = 0) :
    c.probeDue now policy = c.isCooling := by
  cases c with
  | active => rfl
  | cooling since fails =>
    rw [probeDue, h]
    exact decide_eq_true (Nat.zero_le _)
  | disabled fails => rfl

theorem afterFailure_ne_active {c : Condition} (now : Nat) (policy : Tolerance)
    (h : c.isDisabled = false) : (c.afterFailure now policy).2 ≠ .active := by
  rcases afterFailure_cases now policy h with ⟨_, heq⟩ | ⟨_, heq⟩
  · rw [heq]
    nofun
  · rw [heq]
    nofun

end Condition

namespace Standing

theorem weight_of_isDisabled (h : x.1.isDisabled = true) : weight x = 0 := by
  obtain ⟨condition, reads⟩ := x
  cases condition with
  | active => cases h
  | cooling since fails => cases h
  | disabled fails => rfl

theorem Tried.weight_eq (h : Tried x) (hcooling : x.1.isCooling = false) : weight x = 0 := by
  obtain ⟨condition, reads⟩ := x
  cases condition with
  | active => exact h rfl
  | cooling since fails => cases hcooling
  | disabled fails => rfl

end Standing

/-! ### One read -/

theorem Turn.of_pos {c : Condition} {reads : Nat} (hreads : 0 < reads)
    (hstands : c.isDisabled = false) :
    Turn policy now (c, reads) ((c.afterFailure now policy).2, reads - 1) := by
  obtain ⟨n, rfl⟩ := Nat.exists_eq_succ_of_ne_zero (Nat.ne_of_gt hreads)
  exact .ignored n hstands

theorem Turn.phase (h : Turn policy now x y) (hx : Phase policy.disableThreshold budget x) :
    Phase policy.disableThreshold budget y := by
  cases h with
  | recovered since fails =>
    cases hx with
    | cooling hsum hpos hlow => exact .active (.inr ⟨rfl, by omega⟩)
  | @ignored condition reads hstands =>
    have hsum : condition.failures + (reads + 1) = budget := by
      cases hx with
      | active h =>
        rcases h with h | ⟨h, _⟩
        · rw [← h]
          exact Nat.zero_add _
        · omega
      | cooling hsum _ _ => exact hsum
      | disabled _ => cases hstands
    rcases Condition.afterFailure_cases now policy hstands with ⟨hlimit, heq⟩ | ⟨hlow, heq⟩
    · rw [heq]
      exact .disabled (by omega)
    · rw [heq]
      exact .cooling (by omega) (Nat.succ_pos _) hlow

theorem Turn.weight_le (h : Turn policy now x y) : weight y ≤ weight x := by
  cases h with
  | recovered since fails => exact Nat.zero_le _
  | @ignored condition reads hstands =>
    have hx : reads + 1 ≤ weight (condition, reads + 1) := by
      cases condition with
      | active => exact Nat.le_refl _
      | cooling since fails => exact Nat.le_succ _
      | disabled fails => cases hstands
    rcases Condition.afterFailure_cases now policy hstands with ⟨_, heq⟩ | ⟨_, heq⟩
    · rw [heq]
      exact Nat.zero_le _
    · rw [heq]
      exact hx

theorem Turn.tried (h : Turn policy now x y) : Tried y := by
  cases h with
  | recovered since fails => exact fun _ => rfl
  | ignored reads hstands =>
    exact fun hactive => absurd hactive (Condition.afterFailure_ne_active now policy hstands)

theorem Turn.weight_lt (h : Turn policy now x y) (hx : x.1.isCooling = true) :
    weight y < weight x := by
  cases h with
  | recovered since fails => exact Nat.zero_lt_succ _
  | @ignored condition reads hstands =>
    have hweight : weight (condition, reads + 1) = reads + 1 + 1 := by
      cases condition with
      | active => cases hx
      | cooling since fails => rfl
      | disabled fails => cases hstands
    rw [hweight]
    rcases Condition.afterFailure_cases now policy hstands with ⟨_, heq⟩ | ⟨_, heq⟩
    · rw [heq]
      exact Nat.zero_lt_succ _
    · rw [heq]
      exact Nat.lt_succ_self _

/-! ### The outcome -/

/-- A settled chip is active when it was to ignore fewer reads than the threshold, and disabled
otherwise. -/
theorem Phase.outcome (h : Phase threshold budget x) (hlimit : 1 ≤ threshold) (hw : weight x = 0) :
    (budget < threshold ∧ x.1 = .active) ∨ (threshold ≤ budget ∧ x.1.isDisabled = true) := by
  cases h with
  | @active reads h =>
    have hreads : reads = 0 := hw
    refine .inl ⟨?_, rfl⟩
    rcases h with h | ⟨_, h⟩
    · omega
    · exact h
  | cooling _ _ _ => cases hw
  | disabled h => exact .inr ⟨h, rfl⟩

/-- A chip that ignores no reads stays active. -/
theorem Phase.active_of_zero (h : Phase threshold 0 x) (hlimit : 1 ≤ threshold) :
    x.1 = .active := by
  cases h with
  | active _ => rfl
  | cooling hsum hpos _ => omega
  | disabled h => omega

end HashBoard
