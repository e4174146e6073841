import HashBoard.Proofs.Thermal.FanRuns

/-!
# The duty that the controller believes in

The controller keeps the duty that the fans took last and does not ask for it again. After every
tick with a decision the duty kept is the duty of that decision and the latest one taken. It is also
what the fans were last asked for, unless they refused another duty after they took it: a refusal
leaves the kept duty as it was, and the next decision for that duty asks for nothing.
-/

namespace HashBoard.Thermal

/-- The duty of the latest write that the fans took, among writes with the latest first. -/
def latestTaken (writes : List (UInt8 × Bool)) : Option UInt8 :=
  (writes.find? fun write => write.2).map Prod.fst

theorem latestTaken_cons_taken (duty : UInt8) (writes : List (UInt8 × Bool)) :
    latestTaken ((duty, true) :: writes) = some duty := by
  simp [latestTaken]

theorem latestTaken_cons_refused (duty : UInt8) (writes : List (UInt8 × Bool)) :
    latestTaken ((duty, false) :: writes) = latestTaken writes := by
  simp [latestTaken]

namespace FanGovernor

variable {c : FanGovernor} {decision : Decision} {duty : UInt8} {now ns : Nat}

/-! ### What is kept -/

/-- The kept duty is the latest one taken. -/
def KeepsTaken (c : FanGovernor) : Prop :=
  ∀ duty, c.duty = some duty → latestTaken c.fan.writes = some duty

/-- The duty is the kept one, though the fans refused the latest write. -/
def Overlooks (c : FanGovernor) (duty : UInt8) : Prop :=
  c.duty = some duty ∧ ∃ refused, c.fan.writes.head? = some (refused, false)

theorem KeepsTaken.apply (h : c.KeepsTaken) (duty : UInt8) : (c.apply duty).2.KeepsTaken := by
  by_cases htakes : c.Takes duty
  · rw [apply_of_takes htakes]
    by_cases hsame : c.duty = some duty
    · rw [given, if_pos hsame]
      exact h
    · have hset : (c.fan.set duty).1 = .ok () := htakes.resolve_left hsame
      rw [given, if_neg hsame]
      intro kept hkept
      obtain rfl : duty = kept := Option.some.inj hkept
      show latestTaken (c.fan.set duty).2.writes = some duty
      rw [writes_of_set_ok hset, latestTaken_cons_taken]
  · obtain ⟨cause, heq⟩ := apply_of_not_takes htakes
    rw [heq]
    intro kept hkept
    show latestTaken (c.fan.set duty).2.writes = some kept
    rw [writes_of_not_takes htakes, latestTaken_cons_refused]
    exact h kept hkept

theorem KeepsTaken.head?_apply (h : c.KeepsTaken) (htakes : c.Takes duty) :
    (c.apply duty).2.duty = some duty ∧
      ((c.apply duty).2.fan.writes.head? = some (duty, true) ↔ ¬c.Overlooks duty) := by
  rw [apply_of_takes htakes]
  by_cases hsame : c.duty = some duty
  · rw [given, if_pos hsame]
    have htaken := h duty hsame
    refine ⟨hsame, ?_⟩
    -- The kept duty was taken, so there is a latest write, and it is that one or a refused one.
    cases hwrites : c.fan.writes with
    | nil =>
      rw [hwrites] at htaken
      cases htaken
    | cons write earlier =>
      obtain ⟨other, taken⟩ := write
      rw [hwrites] at htaken
      cases taken with
      | true =>
        rw [latestTaken_cons_taken] at htaken
        obtain rfl : other = duty := Option.some.inj htaken
        simp [Overlooks, hwrites]
      | false => simp [Overlooks, hwrites, hsame]
  · have hset : (c.fan.set duty).1 = .ok () := htakes.resolve_left hsame
    have hwrites := writes_of_set_ok hset
    rw [given, if_neg hsame]
    have hnot : ¬c.Overlooks duty := fun hover => hsame hover.1
    simp [hwrites, hnot]

/-! ### Decisions carried out -/

/-- The duty that a decision asks for; none when it asks for none, or the closed loop fails. -/
def dutyFor (c : FanGovernor) (decision : Decision) (now ns : Nat) : Option UInt8 :=
  match decision with
  | .nothing => none
  | .powerDown _ => some fullDuty
  | .useFixed duty => some duty
  | .useBand celsius => some ((c.band.next celsius c.settings.band).duty c.settings.band)
  | .usePid target input =>
    ((c.pid.withLimits (Single.ofNat (c.floor now).toNat) (Single.ofNat fullDuty.toNat)).duty?
      input target ns).map Prod.fst

theorem takes_of_apply (h : (c.apply duty).1 = .ok ()) : c.Takes duty := by
  unfold apply at h
  by_cases hsame : c.duty = some duty
  · exact .inl hsame
  · rw [if_neg hsame] at h
    cases hset : c.fan.set duty with
    | mk answer fan =>
      rw [hset] at h
      cases answer with
      | ok u => exact .inr (congrArg Prod.fst hset)
      | error cause => cases h

theorem takes_of_carryOut {answered : Decision}
    (h : (c.carryOut decision duty).1 = .ok (some answered)) :
    answered = decision ∧ c.Takes duty := by
  unfold carryOut at h
  cases happly : c.apply duty with
  | mk answer after =>
    rw [happly] at h
    cases answer with
    | ok u => exact ⟨(Option.some.inj (Except.ok.inj h)).symm, takes_of_apply (by rw [happly])⟩
    | error fault => cases h

theorem act_powerDown (c : FanGovernor) (reason : String) (now ns : Nat) :
    (c.act (.powerDown reason) now ns).1 = (c.carryOut (.powerDown reason) fullDuty).1 ∧
      (c.act (.powerDown reason) now ns).2.duty = (c.apply fullDuty).2.duty ∧
      (c.act (.powerDown reason) now ns).2.fan = (c.apply fullDuty).2.fan := by
  unfold act carryOut
  cases c.apply fullDuty with
  | mk answer after =>
    cases answer with
    | error fault => exact ⟨rfl, rfl, rfl⟩
    | ok u =>
      -- The alarm touches neither the fans nor the kept duty.
      refine ⟨rfl, ?_⟩
      show (after.trip reason).duty = after.duty ∧ (after.trip reason).fan = after.fan
      unfold trip
      split
      · exact ⟨rfl, rfl⟩
      · exact ⟨rfl, rfl⟩

/-- A decision with a duty asks the fans for it, and the tick answers with the decision only when
they take it. -/
theorem act_of_dutyFor (h : c.dutyFor decision now ns = some duty) : ∃ pid band,
    (∀ answered, (c.act decision now ns).1 = .ok (some answered) →
        answered = decision ∧ c.Takes duty) ∧
      (c.act decision now ns).2.duty = (apply { c with pid, band } duty).2.duty ∧
      (c.act decision now ns).2.fan = (apply { c with pid, band } duty).2.fan := by
  have hcarry (pid : Pid) (band : Band) (decision : Decision) :
      (∀ answered, (carryOut { c with pid, band } decision duty).1 = .ok (some answered) →
          answered = decision ∧ c.Takes duty) ∧
        (carryOut { c with pid, band } decision duty).2.duty =
          (apply { c with pid, band } duty).2.duty ∧
        (carryOut { c with pid, band } decision duty).2.fan =
          (apply { c with pid, band } duty).2.fan := by
    rw [carryOut_snd]
    refine ⟨?_, rfl, rfl⟩
    intro answered hok
    have htakes : answered = decision ∧ Takes { c with pid, band } duty := takes_of_carryOut hok
    exact htakes
  cases decision with
  | nothing => cases h
  | powerDown reason =>
    obtain rfl : fullDuty = duty := Option.some.inj h
    obtain ⟨hanswer, hkept, hfan⟩ := c.act_powerDown reason now ns
    refine ⟨c.pid, c.band, ?_, hkept, hfan⟩
    intro answered hok
    rw [hanswer] at hok
    exact takes_of_carryOut hok
  | useFixed fixed =>
    obtain rfl : fixed = duty := Option.some.inj h
    exact ⟨c.pid, c.band, hcarry c.pid c.band (.useFixed fixed)⟩
  | useBand celsius =>
    obtain rfl := Option.some.inj h
    exact ⟨c.pid, _, hcarry c.pid (c.band.next celsius c.settings.band) (.useBand celsius)⟩
  | usePid target input =>
    obtain ⟨⟨found, pid⟩, hfound, hduty⟩ := Option.map_eq_some_iff.1 h
    obtain rfl : found = duty := hduty
    refine ⟨pid, c.band, ?_⟩
    unfold act
    simp only [hfound]
    exact hcarry pid c.band (.usePid target input)

theorem act_of_dutyFor_eq_none (h : c.dutyFor decision now ns = none) :
    (∀ answered, (c.act decision now ns).1 = .ok (some answered) → answered = .nothing) ∧
      (c.act decision now ns).2.duty = c.duty ∧ (c.act decision now ns).2.fan = c.fan := by
  cases decision with
  | nothing => exact ⟨fun answered hok => (Option.some.inj (Except.ok.inj hok)).symm, rfl, rfl⟩
  | powerDown reason => cases h
  | useFixed fixed => cases h
  | useBand celsius => cases h
  | usePid target input =>
    unfold act
    simp only [Option.map_eq_none_iff.1 h]
    refine ⟨?_, ?_, ?_⟩
    · intro answered hok
      cases hok
    · trivial
    · trivial

theorem KeepsTaken.act (h : c.KeepsTaken) (decision : Decision) (now ns : Nat) :
    (c.act decision now ns).2.KeepsTaken := by
  cases hduty : c.dutyFor decision now ns with
  | none =>
    obtain ⟨_, hkept, hfan⟩ := act_of_dutyFor_eq_none hduty
    unfold KeepsTaken
    rw [hkept, hfan]
    exact h
  | some duty =>
    obtain ⟨pid, band, _, hkept, hfan⟩ := act_of_dutyFor hduty
    have hc : KeepsTaken { c with pid, band } := h
    unfold KeepsTaken
    rw [hkept, hfan]
    exact hc.apply duty

theorem KeepsTaken.tick (h : c.KeepsTaken) (overview : Overview) (now : Nat) :
    (c.tick overview now).2.1.KeepsTaken := by
  rcases c.tick_cases overview now with ⟨_, _, heq⟩ | ⟨_, heq⟩
  · rw [heq]
    exact h
  · have hdeciding : (c.deciding overview.takeNews.1 now).KeepsTaken := h
    rw [heq]
    exact hdeciding.act _ now _

end FanGovernor

/-! ### Runs -/

namespace FanSystem

theorem keepsTaken_run {s : FanSystem} (h : s.governor.KeepsTaken) (events : List FanEvent) :
    (s.run events).governor.KeepsTaken := by
  refine run_induction (fun s => s.governor.KeepsTaken) ?_ events h
  intro s event hs
  cases event with
  | register chain => exact hs
  | publish chain stats => exact hs
  | disable chain => exact hs
  | tick now => exact hs.tick s.overview now

/-- After every tick that answers with a decision, other than to do nothing, the kept duty is the
one of the decision and the latest one taken. The latest write is a taken one of that duty, unless
the duty was kept already and the fans had refused another one since. -/
theorem duty_of_decision (settings : Settings) (fan : FanOutput) (overview : Overview)
    (events : List FanEvent) (now : Nat) :
    let s := FanSystem.run ⟨.start settings fan, overview⟩ events
    let ticked := s.governor.tick s.overview now
    ∀ decision, ticked.1 = .ok (some decision) → decision ≠ .nothing →
      ∃ duty, (s.governor.deciding s.overview.takeNews.1 now).dutyFor decision now
            (s.governor.sinceLast now) = some duty ∧
          ticked.2.1.duty = some duty ∧
          latestTaken ticked.2.1.fan.writes = some duty ∧
          (ticked.2.1.fan.writes.head? = some (duty, true) ↔ ¬s.governor.Overlooks duty) := by
  intro s ticked decision hanswer hsome
  have hstart : (FanGovernor.start settings fan).KeepsTaken := nofun
  have hs : s.governor.KeepsTaken := keepsTaken_run hstart events
  have hticked : ticked.2.1.KeepsTaken := hs.tick s.overview now
  rcases s.governor.tick_cases s.overview now with ⟨_, _, heq⟩ | ⟨_, heq⟩
  · have hquiet : ticked.1 = .ok none := congrArg Prod.fst heq
    rw [hquiet] at hanswer
    cases hanswer
  · let deciding := s.governor.deciding s.overview.takeNews.1 now
    have hdeciding : deciding.KeepsTaken := hs
    let chosen := Decision.decide s.governor.settings
      (s.overview.takeNews.1.getD s.governor.view)
    have hact : (deciding.act chosen now (s.governor.sinceLast now)).1 = .ok (some decision) :=
      (congrArg Prod.fst heq).symm.trans hanswer
    have hafter : ticked.2.1 = (deciding.act chosen now (s.governor.sinceLast now)).2 :=
      congrArg (fun ticked => ticked.2.1) heq
    cases hduty : deciding.dutyFor chosen now (s.governor.sinceLast now) with
    | none => exact absurd ((FanGovernor.act_of_dutyFor_eq_none hduty).1 decision hact) hsome
    | some duty =>
      obtain ⟨pid, band, hanswers, hkept, hfan⟩ := FanGovernor.act_of_dutyFor hduty
      obtain ⟨rfl, htakes⟩ := hanswers decision hact
      have hcarried : FanGovernor.KeepsTaken { deciding with pid, band } := hdeciding
      obtain ⟨hnew, hhead⟩ := hcarried.head?_apply htakes
      rw [← hafter] at hkept hfan
      have hend : ticked.2.1.duty = some duty := hkept.trans hnew
      refine ⟨duty, hduty, hend, hticked duty hend, ?_⟩
      rw [hfan]
      exact hhead

/-- A chain that was cold and is dangerous now, with fans that refuse one duty. -/
def coldThenDangerous (refused : UInt8) : FanSystem :=
  let fan : FanOutput :=
    ⟨fun _ duty => if duty = refused then .error (.invalidParameter "fan stuck") else .ok (), []⟩
  FanSystem.run ⟨.start { Settings.standard with fanMode := .hysteresis } fan, .empty⟩
    [.tick 0, .publish 3 ⟨30, 30, 30, 30, 1⟩, .tick 1000, .publish 3 ⟨112, 112, 112, 90, 1⟩]

def tickOfDanger (refused : UInt8) : Except FanFault (Option Decision) × FanGovernor × Overview :=
  (coldThenDangerous refused).governor.tick (coldThenDangerous refused).overview 2000

/-- Fans that refused the low duty are not asked for full speed when the chain is dangerous, since
they had it before; fans that took the low duty are. -/
theorem duty_of_decision_when_dangerous :
    ((∃ reason, (tickOfDanger 60).1 = .ok (some (.powerDown reason))) ∧
        (tickOfDanger 60).2.1.duty = some fullDuty ∧
        latestTaken (tickOfDanger 60).2.1.fan.writes = some fullDuty ∧
        (tickOfDanger 60).2.1.fan.writes.head? = some (60, false)) ∧
      (∃ reason, (tickOfDanger 0).1 = .ok (some (.powerDown reason))) ∧
        (tickOfDanger 0).2.1.duty = some fullDuty ∧
        (tickOfDanger 0).2.1.fan.writes.head? = some (fullDuty, true) := by
  constructor
  · have hok : (tickOfDanger 60).1 = .ok (some (.powerDown "temperature dangerous")) := rfl
    obtain ⟨duty, hduty, hkept, htaken, _⟩ := duty_of_decision _ _ _ _ 2000 _ hok nofun
    obtain rfl : fullDuty = duty := Option.some.inj hduty
    exact ⟨⟨_, hok⟩, hkept, htaken, rfl⟩
  · have hok : (tickOfDanger 0).1 = .ok (some (.powerDown "temperature dangerous")) := rfl
    obtain ⟨duty, hduty, hkept, _, hlatest⟩ := duty_of_decision _ _ _ _ 2000 _ hok nofun
    obtain rfl : fullDuty = duty := Option.some.inj hduty
    refine ⟨⟨_, hok⟩, hkept, hlatest.2 ?_⟩
    rintro ⟨hsame, _⟩
    have hlow : (coldThenDangerous 0).governor.duty = some 60 := rfl
    have hfull : some fullDuty = some (60 : UInt8) := hsame.symm.trans hlow
    cases hfull

end FanSystem

end HashBoard.Thermal
