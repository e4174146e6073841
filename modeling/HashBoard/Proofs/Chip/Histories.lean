import HashBoard.Proofs.Chip.MissedReads
import Mathlib.Algebra.Group.Nat.Defs
import Mathlib.Data.List.Chain
import Mathlib.Data.List.TakeWhile

/-!
# What the history of a chip tells

Failures, answers and the decision to give a chip up arrive in any order, at times that may go
backwards. The condition they lead to is read off the history as a whole: too many failures in a
row, or having been given up, disable the chip for good; otherwise the latest event decides, and the
failures counted are those since the latest answer.
-/

namespace HashBoard

/-! ### Histories -/

inductive ChipEvent where
  | failed (time : Nat)
  | answered
  | givenUp
  deriving DecidableEq

namespace ChipEvent

def isFailure : ChipEvent → Bool
  | failed _ => true
  | _ => false

def isAnswer : ChipEvent → Bool
  | answered => true
  | _ => false

end ChipEvent

/-- A condition and the changes on the way to it, the latest first. -/
structure ChipRecord where
  condition : Condition
  changes : List ConditionChange

namespace ChipRecord

def fresh : ChipRecord := ⟨.active, []⟩

def after (policy : Tolerance) (r : ChipRecord) : ChipEvent → ChipRecord
  | .failed time =>
    ⟨(r.condition.afterFailure time policy).2,
      (r.condition.afterFailure time policy).1 :: r.changes⟩
  | .answered => ⟨r.condition.afterSuccess.2, r.condition.afterSuccess.1 :: r.changes⟩
  | .givenUp => ⟨r.condition.disable, r.changes⟩

/-- The record of a chip after a history, which has the latest event first. -/
def ofHistory (policy : Tolerance) (history : List ChipEvent) : ChipRecord :=
  history.foldr (fun event r => r.after policy event) fresh

end ChipRecord

/-! ### What is read off a history -/

/-- The failures in a row that disable a chip: one at least. -/
def Tolerance.limit (policy : Tolerance) : Nat := max policy.disableThreshold 1

def failuresSinceAnswer (history : List ChipEvent) : Nat :=
  (history.takeWhile fun event => !event.isAnswer).countP ChipEvent.isFailure

/-- The chip was given up, or failed too often in a row. What follows once it is disabled does not
matter, so the failures may stand anywhere. -/
def Spent (policy : Tolerance) (history : List ChipEvent) : Prop :=
  .givenUp ∈ history ∨ ∃ failures : List ChipEvent, failures <:+: history ∧
    (∀ event ∈ failures, event.isFailure = true) ∧ failures.length = policy.limit

/-- Whether a change enters a cooldown or ends one by a recovery. -/
def ConditionChange.isTurn : ConditionChange → Bool
  | enteredCooldown => true
  | recovered => true
  | _ => false

def turns (changes : List ConditionChange) : List ConditionChange :=
  changes.filter ConditionChange.isTurn

variable {policy : Tolerance} {history : List ChipEvent} {time : Nat} {c : Condition}

theorem limit_pos (policy : Tolerance) : 0 < policy.limit := by
  unfold Tolerance.limit
  omega

theorem limit_le_succ_iff (policy : Tolerance) (n : Nat) :
    policy.limit ≤ n + 1 ↔ policy.disableThreshold ≤ n + 1 := by
  unfold Tolerance.limit
  omega

/-! ### Failures in a row -/

theorem takeWhile_failures (h : .givenUp ∉ history) :
    ∀ event ∈ history.takeWhile fun event => !event.isAnswer, event.isFailure = true := by
  intro event hevent
  have hmem := (List.takeWhile_prefix _).subset hevent
  have hother := List.mem_takeWhile_imp hevent
  cases event with
  | failed time => rfl
  | answered => cases hother
  | givenUp => exact absurd hmem h

theorem failuresSinceAnswer_eq_length (h : .givenUp ∉ history) :
    failuresSinceAnswer history = (history.takeWhile fun event => !event.isAnswer).length :=
  List.countP_eq_length.2 (takeWhile_failures h)

theorem failuresSinceAnswer_failed :
    failuresSinceAnswer (.failed time :: history) = failuresSinceAnswer history + 1 :=
  List.countP_cons_of_pos rfl

theorem failuresSinceAnswer_answered : failuresSinceAnswer (.answered :: history) = 0 := by
  simp [failuresSinceAnswer, ChipEvent.isAnswer]

theorem length_le_failuresSinceAnswer (h : .givenUp ∉ history) {failures : List ChipEvent}
    (hstart : failures <+: history) (hfailures : ∀ event ∈ failures, event.isFailure = true) :
    failures.length ≤ failuresSinceAnswer history := by
  rw [failuresSinceAnswer_eq_length h]
  have hpass : ∀ event ∈ failures, (!event.isAnswer) = true := by
    intro event hevent
    have hfailure := hfailures event hevent
    cases event with
    | failed time => rfl
    | answered => cases hfailure
    | givenUp => cases hfailure
  obtain ⟨rest, rfl⟩ := hstart
  rw [List.takeWhile_append_of_pos hpass, List.length_append]
  exact Nat.le_add_right _ _

/-! ### Spent histories -/

theorem Spent.cons (h : Spent policy history) (event : ChipEvent) :
    Spent policy (event :: history) := by
  rcases h with hgiven | ⟨failures, hinfix, hrest⟩
  · exact .inl (List.mem_cons_of_mem _ hgiven)
  · exact .inr ⟨failures, hinfix.trans (List.suffix_cons _ _).isInfix, hrest⟩

theorem spent_givenUp (policy : Tolerance) (history : List ChipEvent) :
    Spent policy (.givenUp :: history) := .inl List.mem_cons_self

theorem not_spent_nil (policy : Tolerance) : ¬Spent policy [] := by
  rintro (hgiven | ⟨failures, hinfix, _, hlength⟩)
  · cases hgiven
  · have hpos := limit_pos policy
    rw [List.eq_nil_of_infix_nil hinfix, List.length_nil] at hlength
    omega

theorem not_spent_answered (h : ¬Spent policy history) : ¬Spent policy (.answered :: history) := by
  rintro (hgiven | ⟨failures, hinfix, hfailures, hlength⟩)
  · cases hgiven with
    | tail _ hgiven => exact h (.inl hgiven)
  · rcases List.infix_cons_iff.1 hinfix with hstart | hinfix
    · have hpos := limit_pos policy
      cases failures with
      | nil => simp only [List.length_nil] at hlength; omega
      | cons first rest =>
        obtain ⟨rfl, _⟩ := List.cons_prefix_cons.1 hstart
        cases hfailures _ List.mem_cons_self
    · exact h (.inr ⟨failures, hinfix, hfailures, hlength⟩)

/-- Since its latest answer a chip that is not spent has failed less often than the limit. -/
theorem failuresSinceAnswer_lt (h : ¬Spent policy history) :
    failuresSinceAnswer history < policy.limit := by
  obtain ⟨hgiven, hburst⟩ := not_or.1 h
  by_contra hle
  rw [Nat.not_lt, failuresSinceAnswer_eq_length hgiven] at hle
  have hall := takeWhile_failures hgiven
  refine hburst ⟨(history.takeWhile fun event => !event.isAnswer).take policy.limit, ?_, ?_, ?_⟩
  · exact ((List.take_prefix _ _).trans (List.takeWhile_prefix _)).isInfix
  · exact fun event hevent => hall event (List.mem_of_mem_take hevent)
  · rw [List.length_take, Nat.min_eq_left hle]

/-- One more failure is one too many when those since the latest answer reach the limit with it. -/
theorem spent_failed_iff (h : ¬Spent policy history) :
    Spent policy (.failed time :: history) ↔ policy.limit ≤ failuresSinceAnswer history + 1 := by
  have hgiven : .givenUp ∉ ChipEvent.failed time :: history := by
    simpa using (not_or.1 h).1
  constructor
  · rintro (hmem | ⟨failures, hinfix, hfailures, hlength⟩)
    · exact absurd hmem hgiven
    · rcases List.infix_cons_iff.1 hinfix with hstart | hinfix
      · have hmost := length_le_failuresSinceAnswer hgiven hstart hfailures
        rw [failuresSinceAnswer_failed, hlength] at hmost
        exact hmost
      · exact absurd (.inr ⟨failures, hinfix, hfailures, hlength⟩) h
  · intro hle
    by_contra hstands
    have hlt := failuresSinceAnswer_lt hstands
    rw [failuresSinceAnswer_failed] at hlt
    omega

/-! ### Conditions -/

/-- What a history tells of a condition. -/
inductive Tells (policy : Tolerance) (history : List ChipEvent) : Condition → Prop
  | active (hstands : ¬Spent policy history)
    (hlast : history = [] ∨ history.head? = some .answered) : Tells policy history .active
  | cooling {time fails : Nat} (hstands : ¬Spent policy history)
    (hlast : history.head? = some (.failed time)) (hfails : fails = failuresSinceAnswer history) :
    Tells policy history (.cooling time fails)
  | disabled {fails : Nat} (hspent : Spent policy history) (hfails : fails ≤ policy.limit) :
    Tells policy history (.disabled fails)

namespace Tells

theorem failures_eq (h : Tells policy history c) (hstands : c.isDisabled = false) :
    ¬Spent policy history ∧ c.failures = failuresSinceAnswer history := by
  cases h with
  | active hspent hlast =>
    refine ⟨hspent, ?_⟩
    rcases hlast with rfl | hlast
    · rfl
    · obtain ⟨earlier, rfl⟩ := List.head?_eq_some_iff.1 hlast
      exact failuresSinceAnswer_answered.symm
  | cooling hspent _ hfails => exact ⟨hspent, hfails⟩
  | disabled _ _ => cases hstands

theorem failures_le (h : Tells policy history c) : c.failures ≤ policy.limit := by
  cases hc : c.isDisabled with
  | false =>
    obtain ⟨hstands, heq⟩ := h.failures_eq hc
    rw [heq]
    exact Nat.le_of_lt (failuresSinceAnswer_lt hstands)
  | true =>
    cases h with
    | active _ _ => cases hc
    | cooling _ _ _ => cases hc
    | disabled _ hfails => exact hfails

theorem failed (h : Tells policy history c) (time : Nat) :
    Tells policy (.failed time :: history) (c.afterFailure time policy).2 := by
  cases hc : c.isDisabled with
  | true =>
    rw [Condition.afterFailure_of_disabled time policy hc]
    cases h with
    | active _ _ => cases hc
    | cooling _ _ _ => cases hc
    | disabled hspent hfails => exact .disabled (hspent.cons _) hfails
  | false =>
    obtain ⟨hstands, hfails⟩ := h.failures_eq hc
    have hlow := failuresSinceAnswer_lt hstands
    have hspent := @spent_failed_iff _ _ time hstands
    rw [← hfails] at hlow hspent
    rcases Condition.afterFailure_cases time policy hc with ⟨hlimit, heq⟩ | ⟨hlimit, heq⟩
    · rw [heq]
      exact .disabled (hspent.2 ((limit_le_succ_iff _ _).2 hlimit)) hlow
    · rw [heq]
      refine .cooling (fun h => ?_) rfl (by rw [failuresSinceAnswer_failed, hfails])
      exact Nat.not_le_of_lt hlimit ((limit_le_succ_iff _ _).1 (hspent.1 h))

theorem answered (h : Tells policy history c) :
    Tells policy (.answered :: history) c.afterSuccess.2 := by
  cases h with
  | active hstands _ => exact .active (not_spent_answered hstands) (.inr rfl)
  | cooling hstands _ _ => exact .active (not_spent_answered hstands) (.inr rfl)
  | disabled hspent hfails => exact .disabled (hspent.cons _) hfails

theorem givenUp (h : Tells policy history c) : Tells policy (.givenUp :: history) c.disable :=
  .disabled (spent_givenUp policy history) h.failures_le

theorem ofHistory (policy : Tolerance) (history : List ChipEvent) :
    Tells policy history (ChipRecord.ofHistory policy history).condition := by
  induction history with
  | nil => exact .active (not_spent_nil policy) (.inl rfl)
  | cons event earlier ih =>
    cases event with
    | failed time => exact ih.failed time
    | answered => exact ih.answered
    | givenUp => exact ih.givenUp

end Tells

/-! ### Changes -/

namespace ChipRecord

/-- What the changes of a record are like: the chip was disabled at most once, and cooldowns were
entered and left in turn, the first time to enter one. -/
structure Orderly (r : ChipRecord) : Prop where
  disabled : r.changes.count .disabled ≤ r.condition.isDisabled.toNat
  alternate : (turns r.changes).IsChain (· ≠ ·)
  first : ∀ change, (turns r.changes).getLast? = some change → change = .enteredCooldown
  active : r.condition.isActive = true → (turns r.changes).head? ≠ some .enteredCooldown
  cooling : r.condition.isCooling = true → (turns r.changes).head? = some .enteredCooldown

namespace Orderly

variable {time fails : Nat} {changes changes' : List ConditionChange} {c' : Condition}

theorem of_turns_eq (h : Orderly ⟨c, changes⟩) (hturns : turns changes' = turns changes)
    (hcount : changes'.count .disabled ≤ c'.isDisabled.toNat)
    (hactive : c'.isActive = true → c.isActive = true)
    (hcooling : c'.isCooling = true → c.isCooling = true) : Orderly ⟨c', changes'⟩ := by
  refine ⟨hcount, ?_, ?_, ?_, ?_⟩
  · rw [hturns]
    exact h.alternate
  · rw [hturns]
    exact h.first
  · rw [hturns]
    exact fun hc' => h.active (hactive hc')
  · rw [hturns]
    exact fun hc' => h.cooling (hcooling hc')

theorem entered (h : Orderly ⟨.active, changes⟩) (time fails : Nat) :
    Orderly ⟨.cooling time fails, .enteredCooldown :: changes⟩ := by
  have hturns : turns (.enteredCooldown :: changes) = .enteredCooldown :: turns changes := rfl
  refine ⟨h.disabled, ?_, ?_, nofun, fun _ => congrArg List.head? hturns⟩
  · rw [hturns, List.isChain_cons]
    refine ⟨?_, h.alternate⟩
    rintro change hchange rfl
    exact h.active rfl hchange
  · intro change hchange
    rw [hturns] at hchange
    cases hearlier : turns changes with
    | nil =>
      rw [hearlier] at hchange
      exact (Option.some.inj hchange).symm
    | cons latest earlier =>
      rw [hearlier, List.getLast?_cons_cons, ← hearlier] at hchange
      exact h.first change hchange

theorem recovered (h : Orderly ⟨.cooling time fails, changes⟩) :
    Orderly ⟨.active, .recovered :: changes⟩ := by
  have hturns : turns (.recovered :: changes) = .recovered :: turns changes := rfl
  obtain ⟨earlier, hearlier⟩ := List.head?_eq_some_iff.1 (h.cooling rfl)
  refine ⟨h.disabled, ?_, ?_, ?_, nofun⟩
  · rw [hturns, List.isChain_cons]
    refine ⟨?_, h.alternate⟩
    rintro change hchange rfl
    cases (h.cooling rfl).symm.trans hchange
  · intro change hchange
    rw [hturns, hearlier, List.getLast?_cons_cons, ← hearlier] at hchange
    exact h.first change hchange
  · rw [hturns]
    nofun

theorem spent (h : Orderly ⟨c, changes⟩) (hstands : c.isDisabled = false) (fails : Nat) :
    Orderly ⟨.disabled fails, .disabled :: changes⟩ := by
  have hnone : changes.count .disabled ≤ c.isDisabled.toNat := h.disabled
  rw [hstands] at hnone
  refine h.of_turns_eq rfl ?_ nofun nofun
  rw [List.count_cons_self]
  exact Nat.succ_le_succ hnone

theorem failed (h : Orderly ⟨c, changes⟩) (policy : Tolerance) (time : Nat) :
    Orderly ⟨(c.afterFailure time policy).2, (c.afterFailure time policy).1 :: changes⟩ := by
  unfold Condition.afterFailure
  cases c with
  | disabled fails => exact h.of_turns_eq rfl h.disabled nofun nofun
  | active =>
    dsimp only
    split
    · exact h.spent rfl 1
    · exact h.entered time 1
  | cooling since fails =>
    dsimp only
    split
    · exact h.spent rfl (fails + 1)
    · exact h.of_turns_eq rfl h.disabled nofun fun _ => rfl

theorem answered (h : Orderly ⟨c, changes⟩) :
    Orderly ⟨c.afterSuccess.2, c.afterSuccess.1 :: changes⟩ := by
  cases c with
  | active => exact h.of_turns_eq rfl h.disabled id nofun
  | cooling since fails => exact h.recovered
  | disabled fails => exact h.of_turns_eq rfl h.disabled nofun nofun

theorem givenUp (h : Orderly ⟨c, changes⟩) : Orderly ⟨c.disable, changes⟩ :=
  h.of_turns_eq rfl (Nat.le_trans h.disabled (Bool.toNat_le _)) nofun nofun

theorem ofHistory (policy : Tolerance) (history : List ChipEvent) :
    Orderly (.ofHistory policy history) := by
  induction history with
  | nil => exact ⟨Nat.le_refl _, .nil, nofun, nofun, nofun⟩
  | cons event earlier ih =>
    cases event with
    | failed time => exact ih.failed policy time
    | answered => exact ih.answered
    | givenUp => exact ih.givenUp

end Orderly

end ChipRecord

/-! ### The whole history -/

/-- What a history of failures, answers and giving up leads to, for every policy. The chip is
disabled exactly when the history is spent. Otherwise it cools down since the latest event, if that
is a failure, with the failures since the latest answer counted, and is active if it is an answer or
there is none. It is disabled at most once, cooldowns are entered and left in turn, and it is to be
probed again only in a cooldown that is over. The failures counted stay within the limit, and so
within any width that holds the threshold. -/
theorem condition_of_history (policy : Tolerance) (history : List ChipEvent) :
    let r := ChipRecord.ofHistory policy history
    (r.condition.isDisabled = true ↔ Spent policy history) ∧
      (¬Spent policy history →
        (∀ time, history.head? = some (.failed time) →
            r.condition = .cooling time (failuresSinceAnswer history)) ∧
          (history = [] ∨ history.head? = some .answered → r.condition = .active)) ∧
      r.changes.count .disabled ≤ 1 ∧
      (turns r.changes).IsChain (· ≠ ·) ∧
      (∀ change, (turns r.changes).getLast? = some change → change = .enteredCooldown) ∧
      (∀ now, r.condition.probeDue now policy = true ↔ r.condition.isCooling = true ∧
        ∃ time, history.head? = some (.failed time) ∧ policy.cooldown ≤ now - time) ∧
      r.condition.failures ≤ policy.limit ∧
      (policy.disableThreshold < 2 ^ 32 → r.condition.failures < 2 ^ 32) := by
  intro r
  have htells : Tells policy history r.condition := .ofHistory policy history
  have horderly : r.Orderly := .ofHistory policy history
  have hfails := htells.failures_le
  refine ⟨?_, ?_, Nat.le_trans horderly.disabled (Bool.toNat_le _), horderly.alternate,
    horderly.first, ?_, hfails, ?_⟩
  · generalize r.condition = c at htells
    cases htells with
    | active hstands _ => exact iff_of_false Bool.false_ne_true hstands
    | cooling hstands _ _ => exact iff_of_false Bool.false_ne_true hstands
    | disabled hspent _ => exact iff_of_true rfl hspent
  · intro hnot
    generalize r.condition = c at htells
    cases htells with
    | active _ hlast =>
      refine ⟨?_, fun _ => rfl⟩
      intro time htime
      rcases hlast with rfl | hlast
      · cases htime
      · cases hlast.symm.trans htime
    | cooling _ hlast heq =>
      refine ⟨?_, ?_⟩
      · intro time htime
        cases hlast.symm.trans htime
        rw [heq]
      · rintro (rfl | hanswered)
        · cases hlast
        · cases hlast.symm.trans hanswered
    | disabled hspent _ => exact absurd hspent hnot
  · intro now
    generalize r.condition = c at htells
    cases htells with
    | active _ _ => exact iff_of_false Bool.false_ne_true fun h => Bool.false_ne_true h.1
    | cooling _ hlast _ =>
      rw [Condition.probeDue, decide_eq_true_iff]
      constructor
      · exact fun hdue => ⟨rfl, _, hlast, hdue⟩
      · rintro ⟨_, time, htime, hdue⟩
        cases hlast.symm.trans htime
        exact hdue
    | disabled _ _ => exact iff_of_false Bool.false_ne_true fun h => Bool.false_ne_true h.1
  · intro hwidth
    unfold Tolerance.limit at hfails
    omega

/-- Where two failures in a row disable, one that follows an answer starts a cooldown of its
own, though its time is before that of the failure answered; one more and the chip is disabled. -/
theorem condition_of_history_after_recovery :
    let policy : Tolerance := ⟨30000, 2⟩
    let history : List ChipEvent := [.failed 5, .answered, .failed 9]
    ¬Spent policy history ∧ (ChipRecord.ofHistory policy history).condition = .cooling 5 1 ∧
      Spent policy (.failed 0 :: history) := by
  intro policy history
  obtain ⟨hspent, hcondition, _⟩ := condition_of_history policy history
  have hstands : ¬Spent policy history := fun h => absurd (hspent.2 h) (by decide)
  obtain ⟨hcooling, _⟩ := hcondition hstands
  exact ⟨hstands, hcooling 5 rfl, (condition_of_history policy (.failed 0 :: history)).1.1 rfl⟩

end HashBoard
