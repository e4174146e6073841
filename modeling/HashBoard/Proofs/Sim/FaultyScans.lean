import HashBoard.Proofs.Chain.CoreAccount
import HashBoard.Proofs.Sim.Standings

/-!
# Scans of chips that ignore reads

Every scan of a simulated chain succeeds, and without a cooldown every scan brings each chip nearer
to its outcome: while work is dispatched a chip that ignores reads is found out, and at the end of
the scan one that was found out is asked again.
-/

namespace HashBoard

open Bus Wire SimulatedChain Standing

namespace Cycle

variable {options : DrivingOptions} {now : Nat}

/-! ### Results -/

theorem takeResults_served (limit : Nat) (chips : List Chip) {cy : Cycle SimulatedChain}
    (hs : Serving cy.bus) : ∃ bus, Undisturbed cy.bus bus ∧
      cy.takeResults limit chips = (.ok (), chips, { cy with bus }) := by
  cases limit with
  | zero => exact ⟨cy.bus, ⟨rfl, rfl, .refl _⟩, rfl⟩
  | succ limit =>
    obtain ⟨bus, hanswer, hundisturbed⟩ := hs.fetchResult_none
    refine ⟨bus, hundisturbed, ?_⟩
    rw [takeResults, hanswer]

theorem standings_of_undisturbed {chips : List Chip} {cy cy' : Cycle SimulatedChain}
    (h : Undisturbed cy.bus cy'.bus) : standings (chips, cy') = standings (chips, cy) := by
  rw [standings, standings, h.channel.profiles]

theorem Tied.of_undisturbed {chips : List Chip} {cy cy' : Cycle SimulatedChain}
    (h : Tied (chips, cy)) (hbus : Undisturbed cy.bus cy'.bus) : Tied (chips, cy') := by
  refine ⟨hbus.serving h.serving, h.numbered, ?_⟩
  rw [hbus.channel.profiles]
  exact h.simulated

/-! ### Dispatch -/

theorem stable_tried (policy : Tolerance) : Stable policy now fun _ => Tried :=
  fun _ _ _ hturn _ => hturn.tried

theorem stable_weight (policy : Tolerance) (w : Nat → Nat) :
    Stable policy now fun place x => weight x ≤ w place :=
  fun _ _ _ hturn hx => Nat.le_trans hturn.weight_le hx

/-- A chip that ignores reads is not active any more when it was its turn to get work. -/
theorem dispatchTo_tried {before after : List Chip} {chip : Chip} {cy : Cycle SimulatedChain}
    {y : Standing} (htied : Tied (before ++ chip :: after, cy))
    (hy : (standings (before ++ (dispatchTo options now chip cy).1 :: after,
      (dispatchTo options now chip cy).2))[before.length]? = some y) : Tried y := by
  have hasks : Asks options now .work (before ++ chip :: after, cy)
      (before ++ (dispatchTo options now chip cy).1 :: after, (dispatchTo options now chip cy).2) :=
    dispatchTo_asks
  obtain ⟨m, hid, hm, hstanding⟩ := htied.exists_simulated
  by_cases htried : Tried (chip.condition, m.failingReads)
  · have hold : Holds (fun place x => place = before.length → Tried x)
        (before ++ chip :: after, cy) := by
      intro place x hx hplace
      rw [hplace, hstanding] at hx
      rw [← Option.some.inj hx]
      exact htried
    exact hasks.holds htied (stable_tried _).imp hold _ y hy rfl
  · obtain ⟨hactive, hreads⟩ := Classical.not_imp.1 htried
    have hisActive : chip.condition.isActive = true := congrArg Condition.isActive hactive
    obtain ⟨cause, bus, hread, _⟩ :=
      htied.serving.fetchRegister_of_ignoring hid hm (Nat.pos_of_ne_zero hreads)
    have hfailed : dispatchTo options now chip cy =
        fail { cy with bus } options.tolerance now chip := by
      rw [dispatchTo, if_pos hisActive, hread]
    obtain ⟨m', _, _, hlast⟩ := (hasks.tied htied).exists_simulated
    rw [hlast] at hy
    obtain rfl := Option.some.inj hy
    intro hstill
    rw [hfailed, fail_condition] at hstill
    exact absurd hstill (Condition.afterFailure_ne_active now options.tolerance
      (Condition.isDisabled_of_isActive hisActive))

/-! ### Recovery -/

theorem recheck_weight {before after : List Chip} {chip : Chip} {cy : Cycle SimulatedChain}
    {x y : Standing} (hcool : options.tolerance.cooldown = 0)
    (htied : Tied (before ++ chip :: after, cy))
    (hx : (standings (before ++ chip :: after, cy))[before.length]? = some x) (htried : Tried x)
    (hy : (standings (before ++ (recheck options now chip cy).1 :: after,
      (recheck options now chip cy).2))[before.length]? = some y) : weight y ≤ weight x - 1 := by
  obtain ⟨m, hid, hm, hstanding⟩ := htied.exists_simulated
  rw [hstanding] at hx
  obtain rfl := Option.some.inj hx
  cases hcooling : chip.condition.isCooling with
  | true =>
    have hdue : chip.condition.probeDue now options.tolerance = true :=
      (chip.condition.probeDue_eq_isCooling now hcool).trans hcooling
    have hstep := recheck_of_due cy hdue
    obtain ⟨_, reads, hprofiles, hturn⟩ := hstep.turn htied.serving hid hm
    have hturned : (standings (before ++ (recheck options now chip cy).1 :: after,
        (recheck options now chip cy).2))[before.length]? =
          some ((recheck options now chip cy).1.condition, reads) := by
      rw [standings, hprofiles, standingsOf_set]
      exact List.getElem?_set_self (List.getElem?_eq_some_iff.1 hstanding).1
    rw [hturned] at hy
    obtain rfl := Option.some.inj hy
    rcases hturn with ⟨hactive, _⟩ | hturn
    · rw [Condition.isActive_of_isCooling hcooling] at hactive
      cases hactive
    · have hless := hturn.weight_lt hcooling
      omega
  | false =>
    have hsame : recheck options now chip cy = (chip, cy) := by
      apply if_neg
      rw [chip.condition.probeDue_eq_isCooling now hcool, hcooling]
      exact Bool.false_ne_true
    rw [hsame, hstanding] at hy
    obtain rfl := Option.some.inj hy
    have hzero : weight (chip.condition, m.failingReads) = 0 := htried.weight_eq hcooling
    exact Nat.le_trans (Nat.le_of_eq hzero) (Nat.zero_le _)

/-! ### Phases -/

theorem dispatched_tried (chips : List Chip) (cy : Cycle SimulatedChain) (htied : Tied (chips, cy)) :
    Holds (fun _ => Tried) (visit (dispatchTo options now) chips cy) :=
  visit_holds (Q := fun _ _ => True) (fun _ _ _ _ => dispatchTo_asks)
    (stable_tried options.tolerance) (fun _ _ _ _ _ => trivial)
    (fun _ _ htied _ _ hy => dispatchTo_tried htied hy) [] chips cy htied
    (fun _ _ _ hlt => absurd hlt (Nat.not_lt_zero _)) (fun _ _ _ _ => trivial)

theorem rechecked_weight (hcool : options.tolerance.cooldown = 0) {w : Nat → Nat}
    (chips : List Chip) (cy : Cycle SimulatedChain) (htied : Tied (chips, cy))
    (htried : Holds (fun _ => Tried) (chips, cy))
    (hw : Holds (fun place x => weight x ≤ w place) (chips, cy)) :
    Holds (fun place x => weight x ≤ w place - 1) (visit (recheck options now) chips cy) := by
  refine visit_holds (Q := fun place x => Tried x ∧ weight x ≤ w place)
    (fun _ _ _ _ => recheck_asks) (stable_weight options.tolerance _) ?_ ?_ [] chips cy htied
    (fun _ _ _ hlt => absurd hlt (Nat.not_lt_zero _))
    (fun place x hx _ => ⟨htried place x hx, hw place x hx⟩)
  · exact fun place x y hturn hx => ⟨hturn.tried, Nat.le_trans hturn.weight_le hx.2⟩
  · intro before after chip cy x y htied hx hboth hy
    have hless := recheck_weight hcool htied hx hboth.1 hy
    have hbound := hboth.2
    omega

end Cycle

/-! ### Whole scans -/

namespace Chain

open HashBoard.Cycle

variable {c : Chain SimulatedChain} {sink : Sink}

/-- A scan of a chain with working cores succeeds, reports the chips that it disabled and, without a
cooldown, brings each chip nearer to its outcome. -/
theorem scan_served (htied : Tied (c.chips, c.cycle sink)) (hcores : c.numCores ≠ 0)
    (overview : Thermal.Overview) (now : Nat) :
    ∃ q : Moment SimulatedChain, ((c.scan sink overview now).chain.chips,
        (c.scan sink overview now).chain.cycle (c.scan sink overview now).sink) =
          (q.1, q.2.count fun _ => .zero) ∧
      (c.scan sink overview now).result = .ok q.2.tally ∧
      q.2.tally.disabled + disabledCount c.chips = disabledCount q.1 ∧ Tied q ∧
      (∀ P, (∀ now, Stable c.options.tolerance now P) → Holds P (c.chips, c.cycle sink) →
        Holds P q) ∧
      ∀ w : Nat → Nat, c.options.tolerance.cooldown = 0 →
        Holds (fun place x => weight x ≤ w place) (c.chips, c.cycle sink) →
          Holds (fun place x => weight x ≤ w place - 1) q := by
  obtain ⟨cy, hsampled, stats, hnoted⟩ := c.sampled_asks sink now
  have hstart : Tied (c.chips, c.counted.cycle sink) := htied.of_undisturbed ⟨rfl, rfl, .refl _⟩
  have hmeasured : Tied ((c.sampled sink now).1, cy) := hsampled.tied hstart
  have hbus : (c.sampled sink now).2.bus = cy.bus := by
    rw [hnoted]
    rfl
  have hserving : Serving (c.sampled sink now).2.bus := by
    rw [hbus]
    exact hmeasured.serving
  obtain ⟨bus, hundisturbed, hread⟩ :=
    takeResults_served c.options.drainLimit (c.sampled sink now).1 hserving
  rw [hbus] at hundisturbed
  have hdrained : c.drained sink now =
      (.ok (), (c.sampled sink now).1, { (c.sampled sink now).2 with bus }) := hread
  -- Reading the results changes nothing but the bus, and nothing of it that matters.
  have hsame : standings (c.drained sink now).2 = standings ((c.sampled sink now).1, cy) := by
    rw [hdrained]
    exact standings_of_undisturbed hundisturbed
  have hlistened : Tied (c.drained sink now).2 := by
    rw [hdrained]
    exact hmeasured.of_undisturbed hundisturbed
  have hdispatched := c.dispatched_asks sink now
  have hrechecked := c.rechecked_asks sink now
  have hworked : Tied (c.dispatched sink now) := hdispatched.tied hlistened
  have hholds (P : Nat → Standing → Prop) (hP : ∀ now, Stable c.options.tolerance now P)
      (hold : Holds P (c.chips, c.cycle sink)) : Holds P (c.dispatched sink now) := by
    have hheld : Holds P (c.drained sink now).2 := by
      have hfirst : Holds P ((c.sampled sink now).1, cy) := hsampled.holds hstart (hP now) hold
      intro place x hx
      rw [hsame] at hx
      exact hfirst place x hx
    exact hdispatched.holds hlistened (hP now) hheld
  obtain ⟨p, hend, hanswer⟩ := c.scan_phases sink overview now hcores
  rcases hanswer with ⟨cause, herror, _⟩ | ⟨_, rfl, hresult⟩
  · rw [hdrained] at herror
    cases herror
  · refine ⟨_, hend, hresult, ?_, hrechecked.tied hworked,
      fun P hP hold => hrechecked.holds hworked (hP now) (hholds P hP hold), ?_⟩
    · have h1 := hsampled.disabled_add
      have h2 := hdispatched.disabled_add
      have h3 := hrechecked.disabled_add
      rw [hdrained, hnoted] at h2
      simp only [Cycle.count, Chain.cycle, ScanTally.zero] at h1 h2
      omega
    · intro w hcool hw
      exact rechecked_weight hcool _ _ hworked (dispatched_tried _ _ hlistened)
        (hholds _ (fun _ => stable_weight c.options.tolerance w) hw)

end Chain

end HashBoard
