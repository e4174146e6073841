import HashBoard.Proofs.Chain.Succession
import Mathlib.Data.List.Nodup

/-!
# The course of a scan

The moments that a scan passes through, one exchange apart, and what each exchange may send to a
chip that cools down. While a scan works it sends nothing to such a chip, and at its end it asks
each of them at most once.
-/

namespace HashBoard

open Bus Wire

namespace Cycle

variable {τ : Type}

/-! ### Courses -/

/-- The later moments of a course, in order, each related to the one before it. -/
inductive Course (R : Moment τ → Moment τ → Prop) : Moment τ → List (Moment τ) → Moment τ → Prop
  | here (p : Moment τ) : Course R p [] p
  | next {p q r : Moment τ} {later : List (Moment τ)} (hfirst : R p q)
    (hlater : Course R q later r) : Course R p (q :: later) r

namespace Course

variable {R R' : Moment τ → Moment τ → Prop} {I : Moment τ → Prop} {p q r : Moment τ}
  {first second later : List (Moment τ)}

theorem append (h1 : Course R p first q) (h2 : Course R q second r) :
    Course R p (first ++ second) r := by
  induction h1 with
  | here p => exact h2
  | next hfirst _ ih => exact .next hfirst (ih h2)

theorem keeps (h : Course R p later q) (hp : I p) (hstep : ∀ p q, R p q → I p → I q) : I q := by
  induction h with
  | here p => exact hp
  | next hfirst _ ih => exact ih (hstep _ _ hfirst hp)

theorem of_steps (h : Relation.ReflTransGen R p q) : ∃ later, Course R p later q := by
  induction h using Relation.ReflTransGen.head_induction_on with
  | refl => exact ⟨[], .here q⟩
  | head hfirst _ ih =>
    obtain ⟨later, hlater⟩ := ih
    exact ⟨_, .next hfirst hlater⟩

/-- What each exchange does while an invariant holds, the exchanges of a course do. -/
theorem of_invariant (h : Course R p later q) (hp : I p)
    (hstep : ∀ p q, R p q → I p → I q ∧ R' p q) : Course R' p later q := by
  induction h with
  | here p => exact .here p
  | next hfirst _ ih =>
    obtain ⟨hnext, hrelated⟩ := hstep _ _ hfirst hp
    exact .next hrelated (ih hnext)

theorem mono (h : Course R p later q) (hR : ∀ p q, R p q → R' p q) : Course R' p later q :=
  of_invariant (I := fun _ => True) h trivial fun p q hone _ => ⟨trivial, hR p q hone⟩

end Course

/-! ### Frames to cooling chips -/

def isCoolingAt (id : UInt8) (chips : List Chip) : Bool :=
  chips.any fun chip => chip.id == id && chip.condition.isCooling

/-- How many frames an exchange sent to a chip that was cooling down. -/
def framesWhileCooling (id : UInt8) (p q : Moment τ) : Nat :=
  if isCoolingAt id p.1 then (q.2.bus.framesTo id).length - (p.2.bus.framesTo id).length else 0

def coolingFrames (id : UInt8) : Moment τ → List (Moment τ) → Nat
  | _, [] => 0
  | p, q :: later => framesWhileCooling id p q + coolingFrames id q later

theorem framesWhileCooling_of_same {id : UInt8} {p q : Moment τ}
    (h : q.2.bus.framesTo id = p.2.bus.framesTo id) : framesWhileCooling id p q = 0 := by
  rw [framesWhileCooling, h, Nat.sub_self, ite_self]

theorem framesWhileCooling_of_no_cooling {id : UInt8} {p : Moment τ} (q : Moment τ)
    (h : ∀ chip ∈ p.1, chip.id = id → chip.condition.isCooling = false) :
    framesWhileCooling id p q = 0 := by
  have hnone : isCoolingAt id p.1 = false := by
    apply List.any_eq_false.2
    intro chip hmem hboth
    obtain ⟨hid, hcooling⟩ := Bool.and_eq_true_iff.1 hboth
    rw [h chip hmem (beq_iff_eq.1 hid)] at hcooling
    cases hcooling
  rw [framesWhileCooling, hnone, if_neg Bool.false_ne_true]

theorem coolingFrames_append {R : Moment τ → Moment τ → Prop} {id : UInt8} {p q : Moment τ}
    {first second : List (Moment τ)} (h : Course R p first q) :
    coolingFrames id p (first ++ second) =
      coolingFrames id p first + coolingFrames id q second := by
  induction h with
  | here p => rw [List.nil_append, coolingFrames, Nat.zero_add]
  | next _ _ ih => rw [List.cons_append, coolingFrames, coolingFrames, ih, Nat.add_assoc]

theorem coolingFrames_eq_zero {id : UInt8} {p q : Moment τ} {later : List (Moment τ)}
    (h : Course (fun p q => framesWhileCooling id p q = 0) p later q) :
    coolingFrames id p later = 0 := by
  induction h with
  | here p => rfl
  | next hfirst _ ih => rw [coolingFrames, hfirst, ih]

/-! ### Exchanges -/

variable [Channel τ] {options : DrivingOptions} {now : Nat} {round : Round}

def Moved (options : DrivingOptions) (now : Nat) (p q : Moment τ) : Prop :=
  ∃ round, Move options now round p q

theorem ChipStep.isActive_of_work {chip chip' : Chip} {cy cy' : Cycle τ}
    (h : ChipStep options now .work chip cy chip' cy') : chip.condition.isActive = true := by
  cases h with
  | measured hactive _ => exact hactive
  | probed hactive _ => exact hactive
  | missed hactive _ => exact hactive
  | sent hactive _ _ _ _ => exact hactive
  | unsent hactive _ _ _ _ => exact hactive

theorem ChipStep.framesTo_of_recovery {chip chip' : Chip} {cy cy' : Cycle τ}
    (h : ChipStep options now .recovery chip cy chip' cy') :
    cy'.bus.framesTo chip.id = readFrame chip.id :: cy.bus.framesTo chip.id := by
  cases h with
  | recovered _ hread => exact fetchRegister_framesTo hread
  | missedAgain _ hread =>
    rw [fail_bus]
    exact fetchRegister_framesTo hread

theorem isCooling_of_isActive {chip : Chip} (h : chip.condition.isActive = true) :
    chip.condition.isCooling = false := by
  rw [condition_eq_active h]
  rfl

theorem Step.listens {p q : Moment τ} (h : Step options now round p q) :
    (∃ before after chip chip' cy cy', p = (before ++ chip :: after, cy) ∧
        q = (before ++ chip' :: after, cy') ∧ ChipStep options now round chip cy chip' cy') ∨
      WritesTo broadcast p.2.bus q.2.bus := by
  cases h with
  | chip hchip => exact .inl ⟨_, _, _, _, _, _, rfl, rfl, hchip⟩
  | listened hread _ _ => exact .inr (fetchResult_writesTo hread)
  | spoilt hread => exact .inr (fetchResult_writesTo hread)
  | dropped hread _ => exact .inr (fetchResult_writesTo hread)
  | credited hread _ _ _ =>
    refine .inr ?_
    show WritesTo broadcast _ (credit _ _ _).2.bus
    rw [(credit_keeps ..).2.1]
    exact fetchResult_writesTo hread

theorem Move.numbered {p q : Moment τ} (h : Move options now round p q) (hp : Numbered p.1) :
    Numbered q.1 := by
  cases h with
  | step h => exact hp.of_ids_eq h.ids_eq
  | noted _ _ _ => exact hp

/-- While a scan works, nothing is sent to a chip that cools down. -/
theorem Move.framesWhileCooling_of_work {p q : Moment τ} (h : Move options now .work p q)
    (hp : Numbered p.1) (id : UInt8) : framesWhileCooling id p q = 0 := by
  cases h with
  | noted _ _ _ => exact framesWhileCooling_of_same rfl
  | step h =>
    rcases h.listens with ⟨before, after, chip, chip', cy, cy', rfl, rfl, hchip⟩ | hwrites
    · by_cases hid : id = chip.id
      · apply framesWhileCooling_of_no_cooling
        intro other hmem hsame
        rcases hp.eq_or_elsewhere hmem with rfl | ⟨hne, _⟩
        · exact isCooling_of_isActive hchip.isActive_of_work
        · exact absurd (hsame.trans hid) hne
      · exact framesWhileCooling_of_same (hchip.writesTo.framesTo hid)
    · by_cases hid : id = broadcast
      · apply framesWhileCooling_of_no_cooling
        intro other hmem hsame
        exact absurd (hsame.trans hid) (hp.id_ne_broadcast hmem)
      · exact framesWhileCooling_of_same (hwrites.framesTo hid)

/-- At the end of a scan each chip is asked at most once. -/
theorem recheck_course (before chips : List Chip) (cy : Cycle τ) : ∃ later,
    Course (Move options now .recovery) (before ++ chips, cy) later
        (before ++ (visit (recheck options now) chips cy).1,
          (visit (recheck options now) chips cy).2) ∧
      ∀ id, coolingFrames id (before ++ chips, cy) later ≤ (chips.map Chip.id).count id := by
  -- On the chips not asked yet: asking one of them adds at most one frame, to its own address.
  induction chips generalizing before cy with
  | nil => exact ⟨[], .here _, fun id => Nat.zero_le _⟩
  | cons chip rest ih =>
    obtain ⟨later, hcourse, hcount⟩ := ih (before ++ [(recheck options now chip cy).1])
      (recheck options now chip cy).2
    simp only [List.append_assoc, List.singleton_append] at hcourse hcount
    rcases recheck_cases options now chip cy with heq | hstep
    · simp only [visit, heq] at hcourse hcount ⊢
      refine ⟨later, hcourse, ?_⟩
      intro id
      have hrest := hcount id
      rw [List.map_cons, List.count_cons]
      omega
    · refine ⟨_, .next (.step (.chip hstep)) hcourse, ?_⟩
      intro id
      have hrest := hcount id
      have hone : framesWhileCooling id (before ++ chip :: rest, cy)
          (before ++ (recheck options now chip cy).1 :: rest, (recheck options now chip cy).2) ≤
            if chip.id == id then 1 else 0 := by
        by_cases hid : id = chip.id
        · rw [hid, framesWhileCooling, hstep.framesTo_of_recovery, List.length_cons,
            Nat.add_sub_cancel_left, beq_self_eq_true, if_pos rfl]
          split
          · exact Nat.le_refl 1
          · exact Nat.zero_le 1
        · rw [framesWhileCooling_of_same (hstep.writesTo.framesTo hid)]
          exact Nat.zero_le _
      rw [coolingFrames, List.map_cons, List.count_cons]
      omega

end Cycle

namespace Chain

open HashBoard.Cycle

variable {τ : Type} [Channel τ]

theorem scan_course {c : Chain τ} (hnum : Numbered c.chips) (sink : Sink)
    (overview : Thermal.Overview) (now : Nat) : ∃ later,
    Course (Moved c.options now) (c.chips, c.counted.cycle sink) later
        ((c.scan sink overview now).chain.chips,
          (c.scan sink overview now).chain.cycle (c.scan sink overview now).sink) ∧
      ∀ id, coolingFrames id (c.chips, c.counted.cycle sink) later ≤ 1 := by
  -- First the work up to p, then the chips that cool down are asked, then the report is noted.
  obtain ⟨p, q, hwork, hlast, hend⟩ := c.scan_moves sink overview now
  obtain ⟨worked, hworked⟩ := Course.of_steps hwork
  have hquiet : ∀ id, coolingFrames id (c.chips, c.counted.cycle sink) worked = 0 := by
    intro id
    apply coolingFrames_eq_zero (hworked.of_invariant (I := fun p => Numbered p.1) hnum ?_)
    intro p q hmove hp
    exact ⟨hmove.numbered hp, hmove.framesWhileCooling_of_work hp id⟩
  have hp : Numbered p.1 :=
    hworked.keeps (I := fun p => Numbered p.1) hnum fun _ _ hmove hp => hmove.numbered hp
  have hrechecked : ∃ rechecked, Course (Move c.options now .recovery) p rechecked q ∧
      ∀ id, coolingFrames id p rechecked ≤ 1 := by
    rcases hlast with rfl | rfl
    · exact ⟨[], .here _, fun id => Nat.zero_le 1⟩
    · obtain ⟨rechecked, hcourse, hcount⟩ := recheck_course [] p.1 p.2
      refine ⟨rechecked, hcourse, fun id => ?_⟩
      exact Nat.le_trans (hcount id) (List.nodup_iff_count_le_one.1 hp.nodup id)
  obtain ⟨rechecked, hcourse, hcount⟩ := hrechecked
  have hnoted : Moved c.options now q (q.1, q.2.count fun _ => .zero) :=
    ⟨.recovery, .noted q.1 q.2 _⟩
  have hdone : Course (Moved c.options now) q [(q.1, q.2.count fun _ => .zero)]
      (q.1, q.2.count fun _ => .zero) := .next hnoted (.here _)
  rw [hend]
  refine ⟨worked ++ (rechecked ++ [(q.1, q.2.count fun _ => .zero)]), ?_, ?_⟩
  · have hworked' : Course (Moved c.options now) _ worked p :=
      hworked.mono fun _ _ hmove => ⟨.work, hmove⟩
    have hcourse' : Course (Moved c.options now) p rechecked q :=
      hcourse.mono fun _ _ hmove => ⟨.recovery, hmove⟩
    exact hworked'.append (hcourse'.append hdone)
  · intro id
    have hbound := hcount id
    have hlast : coolingFrames id q [(q.1, q.2.count fun _ => .zero)] = 0 :=
      framesWhileCooling_of_same rfl
    rw [coolingFrames_append hworked, coolingFrames_append hcourse, hquiet, hlast]
    omega

end Chain

end HashBoard
