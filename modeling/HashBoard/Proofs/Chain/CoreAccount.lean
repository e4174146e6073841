import HashBoard.Chain.Summary
import HashBoard.Proofs.Chain.Course

/-!
# The account of cores

A chain counts the cores of its chips that are not disabled. The count follows the chips through
every exchange: a chip takes its cores with it when it is disabled, once, and nothing else changes
the count.
-/

namespace HashBoard

open Bus Wire Detection

def newlyDisabled (old new : Chip) : Bool := !old.condition.isDisabled && new.condition.isDisabled

/-- The cores of the chips that were disabled from one state of a chain to a later one. -/
def coresLost : List Chip → List Chip → Nat
  | old :: rest, new :: rest' =>
    (if newlyDisabled old new then old.cores.toNat else 0) + coresLost rest rest'
  | _, _ => 0

namespace Succession

variable {chips chips' : List Chip}

theorem coresOf_add {old new : Chip} (h : old.Follows new) :
    coresOf new + (if newlyDisabled old new then old.cores.toNat else 0) = coresOf old := by
  cases hold : old.condition.isDisabled with
  | true =>
    have hnew : new = old := h.ofDisabled hold
    simp [hnew, newlyDisabled, hold]
  | false =>
    cases hnew : new.condition.isDisabled with
    | true => simp [coresOf, newlyDisabled, hold, hnew]
    | false => simp [coresOf, newlyDisabled, hold, hnew, h.cores]

theorem workingCores_add (h : Succession chips chips') :
    workingCores chips' + coresLost chips chips' = workingCores chips := by
  unfold Succession at h
  induction h with
  | nil => rfl
  | cons hfirst _ ih =>
    have hone := coresOf_add hfirst
    rw [workingCores_cons, workingCores_cons, coresLost]
    omega

/-- While no chip is disabled, no cores are lost. -/
theorem workingCores_eq (h : Succession chips chips')
    (hstand : ∀ chip ∈ chips', chip.condition.isDisabled = false) :
    workingCores chips' = workingCores chips := by
  unfold Succession at h
  induction h with
  | nil => rfl
  | cons hfirst _ ih =>
    have hnew := hstand _ (List.mem_cons_self ..)
    have hone := coresOf_add hfirst
    rw [newlyDisabled, hnew, Bool.and_false, if_neg Bool.false_ne_true, Nat.add_zero] at hone
    rw [workingCores_cons, workingCores_cons, hone,
      ih fun chip hchip => hstand chip (List.mem_cons_of_mem _ hchip)]

/-- While one chip alone may be disabled, the count changes by the cores of that chip. -/
theorem workingCores_add_coresOf {before before' after after' : List Chip} (old new : Chip)
    (hbefore : Succession before before') (hafter : Succession after after')
    (hstand : ∀ chip ∈ before' ++ after', chip.condition.isDisabled = false) :
    workingCores (before' ++ new :: after') + coresOf old =
      workingCores (before ++ old :: after) + coresOf new := by
  have hfront : workingCores before' = workingCores before :=
    hbefore.workingCores_eq fun chip hmem => hstand chip (List.mem_append_left _ hmem)
  have hback : workingCores after' = workingCores after :=
    hafter.workingCores_eq fun chip hmem => hstand chip (List.mem_append_right _ hmem)
  rw [workingCores_append_cons, workingCores_append_cons, hfront, hback]
  omega

end Succession

theorem countP_conditions (chips : List Chip) :
    chips.countP (fun chip => chip.condition.isActive) +
      chips.countP (fun chip => chip.condition.isCooling) +
        chips.countP (fun chip => chip.condition.isDisabled) = chips.length := by
  induction chips with
  | nil => rfl
  | cons chip rest ih =>
    have hone : (if chip.condition.isActive = true then 1 else 0) +
        (if chip.condition.isCooling = true then 1 else 0) +
          (if chip.condition.isDisabled = true then 1 else 0) = 1 := by
      cases chip.condition <;> rfl
    simp only [List.countP_cons, List.length_cons]
    omega

def disabledCount (chips : List Chip) : Nat := chips.countP fun chip => chip.condition.isDisabled

namespace Cycle

variable {τ : Type}

theorem disabledCount_append_cons (before after : List Chip) (chip : Chip) :
    disabledCount (before ++ chip :: after) =
      disabledCount before + (if chip.condition.isDisabled then 1 else 0) + disabledCount after := by
  simp only [disabledCount, List.countP_append, List.countP_cons]
  omega

/-- A failure is reported as a disabled chip when it disables the chip. -/
theorem fail_disabled (cy : Cycle τ) (policy : Tolerance) (now : Nat) {chip : Chip}
    (h : chip.condition.isDisabled = false) :
    (cy.fail policy now chip).2.tally.disabled =
      cy.tally.disabled + if (cy.fail policy now chip).1.condition.isDisabled then 1 else 0 := by
  have hiff := Condition.isDisabled_afterFailure now policy h
  unfold fail
  cases hfailed : chip.condition.afterFailure now policy with
  | mk change condition =>
    rw [hfailed] at hiff
    have hstands (hchange : change ≠ .disabled) : condition.isDisabled = false := by
      rw [← Bool.not_eq_true, hiff]
      exact hchange
    cases change with
    | disabled => simp only [applyChange, hiff.2 rfl, if_true]
    | unchanged | cooldownRestarted =>
      simp only [applyChange, hstands (by decide), Bool.false_eq_true, if_false, Nat.add_zero]
    | enteredCooldown | recovered =>
      simp only [applyChange, count, hstands (by decide), Bool.false_eq_true, if_false, Nat.add_zero]

variable [Channel τ] {options : DrivingOptions} {now : Nat} {round : Round}

theorem ChipStep.disabled_eq {chip chip' : Chip} {cy cy' : Cycle τ}
    (h : ChipStep options now round chip cy chip' cy') :
    cy'.tally.disabled = cy.tally.disabled + if chip'.condition.isDisabled then 1 else 0 := by
  have hstands := h.standing
  cases h with
  | measured _ _ | probed _ _ => simp only [hstands, Bool.false_eq_true, if_false, Nat.add_zero]
  | recovered _ _ => rfl
  | missed _ _ | missedAgain _ _ | unsent _ _ _ _ _ =>
    exact fail_disabled (_ : Cycle τ) options.tolerance now hstands
  | @sent _ _ _ work _ _ _ _ _ _ _ _ =>
    have hchip : (withJob chip work).condition.isDisabled = false := hstands
    rw [hchip]
    cases chip.slots.current? with
    | none => rfl
    | some done => rfl

/-- The chips reported as disabled while no results are read are those that were disabled. -/
theorem Asks.disabled_add {p q : Moment τ} (h : Asks options now round p q) :
    q.2.tally.disabled + disabledCount p.1 = p.2.tally.disabled + disabledCount q.1 := by
  induction h with
  | refl => rfl
  | tail _ hlast ih =>
    cases hlast with
    | @chip before after chip chip' cy cy' hchip =>
      have hone := hchip.disabled_eq
      have hbefore := disabledCount_append_cons before after chip
      rw [hchip.standing, if_neg Bool.false_ne_true] at hbefore
      have hafter := disabledCount_append_cons before after chip'
      simp only at ih ⊢
      omega

end Cycle

namespace Service

open HashBoard.Cycle

variable {τ : Type} [Channel τ] {s : Service τ}

theorem after_numChips (s : Service τ) (request : Request) :
    (s.after request).chain.numChips = s.chain.numChips := by
  cases request with
  | offer work =>
    rcases s.after_offer work with ⟨_, heq⟩ | ⟨_, heq⟩
    · rw [heq]
    · rw [heq]
  | scan overview now => exact s.chain.scan_numChips s.sink overview now
  | reclaim =>
    obtain ⟨bus, _, heq⟩ := s.after_reclaim
    rw [heq]

theorem Reachable.numChips_bounds (h : Reachable s) :
    1 ≤ s.chain.numChips ∧ s.chain.numChips ≤ longestChain ∧
      s.chain.chips.length ≤ s.chain.numChips := by
  induction h with
  | detected hfound id options schedule power publishes judge =>
    obtain ⟨hpos, hmax, hdriven, _, _⟩ := detect_counts hfound
    exact ⟨hpos, hmax, hdriven⟩
  | after hs request ih =>
    have hlength := (after_sound hs.sound request).2.length_eq
    rw [after_numChips, ← hlength]
    exact ih

/-- Between any two exchanges the cores counted are those of the chips that are not disabled, and
from any state to a later one, a run or a single exchange on, the count falls by the cores of the
chips that were disabled on the way. A summary counts the chips by their conditions, and each is in
one of the counts. -/
theorem Reachable.cores_accounted (h : Reachable s) :
    s.chain.numCores = workingCores s.chain.chips ∧
      1 ≤ s.chain.numChips ∧ s.chain.numChips ≤ 64 ∧
      s.chain.chips.length ≤ s.chain.numChips ∧
      (∀ place chip, s.chain.chips[place]? = some chip → chip.id.toNat = place + 1) ∧
      (s.chain.summary.detectedChips = s.chain.numChips ∧
        s.chain.summary.cores = s.chain.numCores ∧
        s.chain.summary.drivenChips = s.chain.chips.length ∧
        s.chain.summary.activeChips = s.chain.chips.countP (fun chip => chip.condition.isActive) ∧
        s.chain.summary.coolingChips = s.chain.chips.countP (fun chip => chip.condition.isCooling) ∧
        s.chain.summary.disabledChips =
          s.chain.chips.countP (fun chip => chip.condition.isDisabled) ∧
        s.chain.summary.activeChips + s.chain.summary.coolingChips +
          s.chain.summary.disabledChips = s.chain.summary.drivenChips) ∧
      (∀ chip ∈ s.chain.chips, chip.condition.isDisabled = false →
        s.chain.generation.brokenCores ≤ chip.cores) ∧
      (∀ requests, (s.run requests).chain.numCores +
        coresLost s.chain.chips (s.run requests).chain.chips = s.chain.numCores) ∧
      ∀ overview now, ∃ later,
        Course (fun p q => Moved s.chain.options now p q ∧ q.2.numCores = workingCores q.1 ∧
            q.2.numCores + coresLost p.1 q.1 = p.2.numCores)
          (s.chain.chips, s.chain.counted.cycle s.sink) later
          (s.after (.scan overview now)).moment := by
  have hsound : Sound s.moment := h.sound
  obtain ⟨hpos, hmax, hdriven⟩ := h.numChips_bounds
  refine ⟨hsound.cores, hpos, hmax, hdriven, hsound.numbered,
    ⟨rfl, rfl, rfl, rfl, rfl, rfl, countP_conditions s.chain.chips⟩, hsound.capable, ?_, ?_⟩
  · intro requests
    have hlater : (s.run requests).chain.numCores = workingCores (s.run requests).chain.chips :=
      (h.run requests).sound.cores
    have hnow : s.chain.numCores = workingCores s.chain.chips := hsound.cores
    rw [hlater, hnow]
    exact (h.succession requests).workingCores_add
  · intro overview now
    obtain ⟨later, hcourse, _⟩ :=
      Chain.scan_course (c := s.chain) hsound.numbered s.sink overview now
    have hstart : Sound (s.chain.chips, s.chain.counted.cycle s.sink) := hsound.of_same rfl rfl
    refine ⟨later, hcourse.of_invariant (I := Sound) hstart ?_⟩
    intro p q hmoved hp
    obtain ⟨round, hmove⟩ := hmoved
    have hq : Sound q ∧ Succession p.1 q.1 := by
      cases hmove with
      | step hstep => exact ⟨hstep.sound hp, hstep.succession⟩
      | noted chips cy f => exact ⟨hp.of_same rfl rfl, .refl _⟩
    refine ⟨hq.1, ⟨round, hmove⟩, hq.1.cores, ?_⟩
    rw [hq.1.cores, hp.cores]
    exact hq.2.workingCores_add

/-- A chip of forty cores that never answers is disabled by its fourth failure. -/
theorem cores_accounted_of_silent_chip : ∃ (s : Service Script) (requests : List Request),
    Reachable s ∧ s.chain.numCores = 40 ∧ (s.run requests).chain.numCores = 0 ∧
      coresLost s.chain.chips (s.run requests).chain.chips = 40 := by
  let requests : List Request :=
    [.scan .empty 0, .scan .empty 30000, .scan .empty 60000, .scan .empty 90000]
  have hany : ((ofBus? (oneChip []) 600000).any fun s =>
      decide (s.chain.numCores = 40 ∧ (s.run requests).chain.numCores = 0)) = true := by
    decide +kernel
  obtain ⟨s, hs, hcheck⟩ := (Option.any_eq_true _ _).1 hany
  obtain ⟨hbefore, hafter⟩ := of_decide_eq_true hcheck
  have hreach := reachable_of_ofBus? hs
  obtain ⟨_, _, _, _, _, _, _, hruns, _⟩ := hreach.cores_accounted
  have hlost := hruns requests
  rw [hbefore, hafter, Nat.zero_add] at hlost
  exact ⟨s, requests, hreach, hbefore, hafter, hlost⟩

end Service

end HashBoard
