import HashBoard.Proofs.Chain.Course

/-!
# Excluded chips

A disabled chip is left alone for good: it stays as it is, nothing is written to it and no nonce is
submitted for it. A chip that cools down gets no job and no credit either; it is asked for its
register when its cooldown is over, at most once in a scan.
-/

namespace HashBoard

open Bus Wire

/-! ### Submissions -/

def SinkEvent.submitter? : SinkEvent → Option UInt8
  | submitted _ chip _ _ => some chip
  | completed _ _ => none

def submissionsFor (id : UInt8) (events : List SinkEvent) : List SinkEvent :=
  events.filter fun event => event.submitter? == some id

theorem Sink.Returned.submissionsFor_eq {sink after : Sink} (h : sink.Returned after) (id : UInt8) :
    submissionsFor id after.events = submissionsFor id sink.events := by
  obtain ⟨back, hback, heq⟩ := h
  have hnone : submissionsFor id back = [] := by
    apply List.filter_eq_nil_iff.2
    intro event hevent
    have hcompleted := hback event hevent
    cases event with
    | completed work status => exact Bool.false_ne_true
    | submitted work chip nonce valid => cases hcompleted
  unfold submissionsFor at hnone ⊢
  rw [heq, List.filter_append, hnone, List.nil_append]

namespace Cycle

variable {τ : Type}

/-! ### Chips left alone -/

/-- From one moment to another nothing was written to a chip and no nonce was submitted for it. -/
structure Silent (id : UInt8) (p q : Moment τ) : Prop where
  frames : q.2.bus.framesTo id = p.2.bus.framesTo id
  submissions : submissionsFor id q.2.sink.events = submissionsFor id p.2.sink.events

theorem Silent.refl (id : UInt8) (p : Moment τ) : Silent id p p := ⟨rfl, rfl⟩

theorem Silent.trans {id : UInt8} {p q r : Moment τ} (h1 : Silent id p q) (h2 : Silent id q r) :
    Silent id p r :=
  ⟨h2.frames.trans h1.frames, h2.submissions.trans h1.submissions⟩

def Spared (chip : Chip) (p q : Moment τ) : Prop := chip ∈ q.1 ∧ Silent chip.id p q

/-- A chip that cools down is asked for its register once its cooldown is over. -/
structure Asked (options : DrivingOptions) (now since : Nat) (chip : Chip) (p q : Moment τ) :
    Prop where
  due : options.tolerance.cooldown ≤ now - since
  frames : q.2.bus.framesTo chip.id = readFrame chip.id :: p.2.bus.framesTo chip.id
  submissions : submissionsFor chip.id q.2.sink.events = submissionsFor chip.id p.2.sink.events
  kept : ∃ chip' ∈ q.1, chip'.id = chip.id ∧ chip'.stats = chip.stats ∧
    (chip'.slots = chip.slots ∨ chip'.slots = .empty)

/-- What may happen to the chips that are not active. -/
def Excludes (options : DrivingOptions) (now : Nat) (p q : Moment τ) : Prop :=
  ∀ chip ∈ p.1,
    (chip.condition.isDisabled = true → chip.slots = .empty ∧ Spared chip p q) ∧
    ∀ since fails, chip.condition = .cooling since fails →
      Spared chip p q ∨ Asked options now since chip p q

theorem Excludes.of_spared {options : DrivingOptions} {now : Nat} {p q : Moment τ} (hp : Sound p)
    (h : ∀ chip ∈ p.1, chip.condition.isActive = false → Spared chip p q) :
    Excludes options now p q := by
  intro chip hmem
  constructor
  · intro hdis
    exact ⟨hp.emptied chip hmem hdis, h chip hmem (Condition.isActive_of_isDisabled hdis)⟩
  · intro since fails hcooling
    exact .inl (h chip hmem (by rw [hcooling]; rfl))

/-- A chip that is disabled at some moment of a course is left alone to its end. -/
theorem Course.spared {options : DrivingOptions} {now : Nat} {p q : Moment τ}
    {later : List (Moment τ)} (h : Course (Excludes options now) p later q) {chip : Chip}
    (hmem : chip ∈ p.1) (hdis : chip.condition.isDisabled = true) : Spared chip p q := by
  induction h with
  | here p => exact ⟨hmem, .refl _ _⟩
  | next hfirst _ ih =>
    obtain ⟨_, hnext, hsilent⟩ := (hfirst chip hmem).1 hdis
    obtain ⟨hlast, hrest⟩ := ih hnext
    exact ⟨hlast, hsilent.trans hrest⟩

/-! ### Exchanges -/

theorem credit_submissionsFor (result : FoundNonce) (chip : Chip) (cy : Cycle τ) {id : UInt8}
    (hne : id ≠ chip.id) : submissionsFor id (credit result chip cy).2.sink.events =
      submissionsFor id cy.sink.events := by
  rcases credit_cases result chip cy with ⟨_, _, _, h⟩ | ⟨work, _, _, _, h⟩
  · rw [h]
    rfl
  · rw [h]
    have hother : (some chip.id == some id) = false := by
      rw [beq_eq_false_iff_ne]
      intro hsame
      exact hne (Option.some.inj hsame).symm
    exact List.filter_cons_of_neg (by simp only [SinkEvent.submitter?, hother, Bool.false_eq_true,
      not_false_eq_true])

variable [Channel τ] {options : DrivingOptions} {now : Nat} {round : Round}

theorem ChipStep.silent {before after : List Chip} {chip chip' : Chip} {cy cy' : Cycle τ}
    {id : UInt8} (h : ChipStep options now round chip cy chip' cy') (hne : id ≠ chip.id) :
    Silent id (before ++ chip :: after, cy) (before ++ chip' :: after, cy') :=
  ⟨h.writesTo.framesTo hne, h.returned.submissionsFor_eq id⟩

theorem ChipStep.asked {before after : List Chip} {chip chip' : Chip} {cy cy' : Cycle τ}
    {since fails : Nat} (h : ChipStep options now round chip cy chip' cy')
    (hcooling : chip.condition = .cooling since fails) :
    Asked options now since chip (before ++ chip :: after, cy) (before ++ chip' :: after, cy') := by
  have hmem : chip' ∈ before ++ chip' :: after := List.mem_append_cons_self
  have hsubmissions := h.returned.submissionsFor_eq chip.id
  have hstands := h.standing
  cases round with
  | work =>
    -- While a scan works it turns to active chips only.
    have hactive := h.isActive_of_work
    rw [hcooling] at hactive
    cases hactive
  | recovery =>
    have hframes := h.framesTo_of_recovery
    cases h with
    | recovered hdue _ =>
      rw [hcooling] at hdue
      exact ⟨of_decide_eq_true hdue, hframes, hsubmissions, _, hmem, rfl, rfl, .inl rfl⟩
    | missedAgain hdue _ =>
      rw [hcooling] at hdue
      obtain ⟨_, hstats, _⟩ := fail_of_standing { cy with bus := _ } options.tolerance now hstands
      exact ⟨of_decide_eq_true hdue, hframes, hsubmissions, _, hmem, fail_id .., hstats,
        fail_slots ..⟩

theorem Step.excludes {p q : Moment τ} (h : Step options now round p q) (hp : Sound p) :
    Excludes options now p q := by
  cases h with
  | chip hchip =>
    intro chip hmem
    rcases hp.numbered.eq_or_elsewhere hmem with rfl | ⟨hne, hstays⟩
    · refine ⟨fun hdis => ?_, fun since fails hcooling => .inr (hchip.asked hcooling)⟩
      rw [hchip.standing] at hdis
      cases hdis
    · have hspared : Spared chip _ _ := ⟨hstays _, hchip.silent hne⟩
      exact ⟨fun hdis => ⟨hp.emptied chip hmem hdis, hspared⟩, fun _ _ _ => .inl hspared⟩
  | listened hread _ _ | spoilt hread | dropped hread _ =>
    refine .of_spared hp fun chip hmem _ => ⟨hmem, ?_, rfl⟩
    exact (fetchResult_writesTo hread).framesTo (hp.numbered.id_ne_broadcast hmem)
  | @credited before after credited cy result bus hread hplace hslot hactive =>
    refine .of_spared hp fun chip hmem hinactive => ?_
    rcases hp.numbered.eq_or_elsewhere hmem with rfl | ⟨hne, hstays⟩
    · rw [hactive] at hinactive
      cases hinactive
    · refine ⟨hstays _, ?_, credit_submissionsFor _ _ _ hne⟩
      show (credit _ _ _).2.bus.framesTo _ = _
      rw [(credit_keeps ..).2.1]
      exact (fetchResult_writesTo hread).framesTo (hp.numbered.id_ne_broadcast hmem)

theorem Moved.excludes {p q : Moment τ} (h : Moved options now p q) (hp : Sound p) :
    Sound q ∧ Excludes options now p q := by
  obtain ⟨round, hmove⟩ := h
  cases hmove with
  | step hstep => exact ⟨hstep.sound hp, hstep.excludes hp⟩
  | noted chips cy f =>
    exact ⟨hp.of_same rfl rfl, .of_spared hp fun chip hmem _ => ⟨hmem, rfl, rfl⟩⟩

end Cycle

/-! ### Runs -/

namespace Service

open HashBoard.Cycle

variable {τ : Type} [Channel τ] {s : Service τ}

theorem scan_excludes (h : Sound s.moment) (overview : Thermal.Overview) (now : Nat) : ∃ later,
    Course (fun p q => Moved s.chain.options now p q ∧ Excludes s.chain.options now p q)
        (s.chain.chips, s.chain.counted.cycle s.sink) later
        (s.after (.scan overview now)).moment ∧
      ∀ id, coolingFrames id (s.chain.chips, s.chain.counted.cycle s.sink) later ≤ 1 := by
  obtain ⟨later, hcourse, hcount⟩ :=
    Chain.scan_course (c := s.chain) h.numbered s.sink overview now
  have hstart : Sound (s.chain.chips, s.chain.counted.cycle s.sink) := h.of_same rfl rfl
  refine ⟨later, hcourse.of_invariant (I := Sound) hstart ?_, hcount⟩
  intro p q hmoved hp
  obtain ⟨hq, hexcludes⟩ := hmoved.excludes hp
  exact ⟨hq, hmoved, hexcludes⟩

theorem spared_offer {chip : Chip} (hmem : chip ∈ s.chain.chips) (work : Work) :
    Spared chip s.moment (s.after (.offer work)).moment := by
  rcases s.after_offer work with ⟨_, heq⟩ | ⟨_, heq⟩
  · rw [heq]
    exact ⟨hmem, .refl _ _⟩
  · rw [heq]
    exact ⟨hmem, rfl, rfl⟩

theorem reclaim_silent (h : Sound s.moment) {chip : Chip} (hmem : chip ∈ s.chain.chips)
    (hinactive : chip.condition.isActive = false) :
    Silent chip.id s.moment (s.after .reclaim).moment ∧
      { chip with slots := .empty } ∈ (s.after .reclaim).chain.chips := by
  obtain ⟨bus, _, hafter⟩ := s.after_reclaim
  have hframes : (s.after .reclaim).chain.bus.framesTo chip.id = s.chain.bus.framesTo chip.id := by
    refine Chain.reclaimChips_framesTo _ _ _ _ (fun other => h.numbered.id_ne_broadcast) ?_
    intro other hother hactive hid
    obtain rfl := h.numbered.eq_of_id_eq hmem hother hid.symm
    rw [hactive] at hinactive
    cases hinactive
  have hback := (Sink.Returned.refl s.sink).completeAll (jobsHeld s.chain.chips ++ s.chain.queue)
    .discarded
  refine ⟨⟨hframes, ?_⟩, ?_⟩
  · rw [hafter]
    exact hback.submissionsFor_eq chip.id
  · rw [hafter]
    exact List.mem_map_of_mem hmem

theorem spared_after (h : Sound s.moment) {chip : Chip} (hmem : chip ∈ s.chain.chips)
    (hdis : chip.condition.isDisabled = true) (request : Request) :
    Spared chip s.moment (s.after request).moment := by
  cases request with
  | offer work => exact spared_offer hmem work
  | scan overview now =>
    obtain ⟨later, hcourse, _⟩ := scan_excludes h overview now
    obtain ⟨hlast, hsilent⟩ := (hcourse.mono fun _ _ hboth => hboth.2).spared hmem hdis
    exact ⟨hlast, hsilent.frames, hsilent.submissions⟩
  | reclaim =>
    obtain ⟨hsilent, hkept⟩ := reclaim_silent h hmem (Condition.isActive_of_isDisabled hdis)
    rw [← h.emptied chip hmem hdis] at hkept
    exact ⟨hkept, hsilent⟩

theorem spared_run (h : Reachable s) {chip : Chip} (hmem : chip ∈ s.chain.chips)
    (hdis : chip.condition.isDisabled = true) (requests : List Request) :
    Spared chip s.moment (s.run requests).moment := by
  induction requests generalizing s with
  | nil => exact ⟨hmem, .refl _ _⟩
  | cons request rest ih =>
    obtain ⟨hnext, hsilent⟩ := spared_after h.sound hmem hdis request
    obtain ⟨hlast, hrest⟩ := ih (h.after request) hnext
    exact ⟨hlast, hsilent.trans hrest⟩

/-- A disabled chip is empty and is left alone by every run. In a scan, from each exchange to the
next, a chip that is disabled is left alone and one that cools down is at most asked for its
register, once and when its cooldown is over; outside scans neither is written to. Detection asks
each chip for its register before it may disable it. -/
theorem Reachable.excluded_left_alone (h : Reachable s) :
    (∀ chip ∈ s.chain.chips, chip.condition.isDisabled = true →
      chip.slots = .empty ∧ ∀ requests, Spared chip s.moment (s.run requests).moment) ∧
    (∀ overview now, ∃ later,
      Course (fun p q => Moved s.chain.options now p q ∧ Excludes s.chain.options now p q)
          (s.chain.chips, s.chain.counted.cycle s.sink) later
          (s.after (.scan overview now)).moment ∧
        ∀ id, coolingFrames id (s.chain.chips, s.chain.counted.cycle s.sink) later ≤ 1) ∧
    (∀ chip ∈ s.chain.chips, chip.condition.isCooling = true →
      (∀ work, Spared chip s.moment (s.after (.offer work)).moment) ∧
        Silent chip.id s.moment (s.after .reclaim).moment ∧
          { chip with slots := .empty } ∈ (s.after .reclaim).chain.chips) ∧
    ∀ settings (bus bus' : Bus τ) found, Detection.detect settings bus = (.ok found, bus') →
      ∀ chip ∈ found.chips,
        bus'.framesTo chip.id = readFrame chip.id :: bus.framesTo chip.id := by
  refine ⟨?_, scan_excludes h.sound, ?_, ?_⟩
  · intro chip hmem hdis
    exact ⟨h.sound.emptied chip hmem hdis, spared_run h hmem hdis⟩
  · intro chip hmem hcooling
    exact ⟨spared_offer hmem,
      reclaim_silent h.sound hmem (Condition.isActive_of_isCooling hcooling)⟩
  · intro settings bus bus' found hfound chip hmem
    exact Detection.detect_framesTo hfound hmem

/-- A chip that never answers is asked until its fourth failure disables it. -/
theorem excluded_left_alone_when_silent : ∃ s : Service Script, Reachable s ∧
    ∃ chip ∈ s.chain.chips, chip.condition = .disabled 4 ∧ chip.slots = .empty ∧
      ∀ requests, Spared chip s.moment (s.run requests).moment := by
  let requests : List Request :=
    [.scan .empty 0, .scan .empty 30000, .scan .empty 60000, .scan .empty 90000]
  have hany : ((ofBus? (oneChip []) 600000).any fun s =>
      (s.run requests).chain.chips.any fun chip => decide (chip.condition = .disabled 4)) =
        true := by
    decide +kernel
  obtain ⟨s, hs, hcheck⟩ := (Option.any_eq_true _ _).1 hany
  obtain ⟨chip, hmem, hdis⟩ := List.any_eq_true.1 hcheck
  have hcondition : chip.condition = .disabled 4 := of_decide_eq_true hdis
  have hreach := (reachable_of_ofBus? hs).run requests
  obtain ⟨hslots, hspared⟩ := hreach.excluded_left_alone.1 chip hmem (by rw [hcondition]; rfl)
  exact ⟨_, hreach, chip, hmem, hcondition, hslots, hspared⟩

end Service

end HashBoard
