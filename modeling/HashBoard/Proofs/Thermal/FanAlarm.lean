import HashBoard.Proofs.Thermal.FanRuns

/-!
# The alarm of the fan controller

The alarm is raised at most once in a run. The first tick that takes a dangerous view raises it when
the fans run at full speed or take it; when they refuse, the tick fails before the alarm.
-/

namespace HashBoard.Thermal

namespace FanGovernor

variable {c after : FanGovernor} {decision : Decision} {duty : UInt8}

/-! ### Ticks without alarm -/

/-- From one controller to another nothing changed that an alarm depends on. -/
structure SameAlarms (c after : FanGovernor) : Prop where
  settings : after.settings = c.settings
  view : after.view = c.view
  tripped : after.tripped = c.tripped
  alarms : after.alarms = c.alarms

theorem given_sameAlarms (c : FanGovernor) (duty : UInt8) : SameAlarms c (c.given duty) := by
  unfold given
  by_cases hsame : c.duty = some duty
  · rw [if_pos hsame]
    exact ⟨rfl, rfl, rfl, rfl⟩
  · rw [if_neg hsame]
    exact ⟨rfl, rfl, rfl, rfl⟩

theorem apply_sameAlarms (c : FanGovernor) (duty : UInt8) : SameAlarms c (c.apply duty).2 := by
  by_cases htakes : c.Takes duty
  · rw [apply_of_takes htakes]
    exact given_sameAlarms c duty
  · obtain ⟨cause, heq⟩ := apply_of_not_takes htakes
    rw [heq]
    exact ⟨rfl, rfl, rfl, rfl⟩

theorem act_sameAlarms (c : FanGovernor) (now ns : Nat)
    (h : ∀ reason, decision ≠ .powerDown reason) : SameAlarms c (c.act decision now ns).2 := by
  -- The memory of the drives does not bear on alarms.
  have hcarry (pid : Pid) (band : Band) (decision : Decision) (duty : UInt8) :
      SameAlarms c (carryOut { c with pid, band } decision duty).2 := by
    rw [carryOut_snd]
    obtain ⟨hsettings, hview, htripped, halarms⟩ := apply_sameAlarms { c with pid, band } duty
    exact ⟨hsettings, hview, htripped, halarms⟩
  cases decision with
  | nothing => exact ⟨rfl, rfl, rfl, rfl⟩
  | powerDown reason => exact absurd rfl (h reason)
  | useFixed duty => exact hcarry c.pid c.band (.useFixed duty) duty
  | useBand celsius => exact hcarry c.pid (c.band.next celsius c.settings.band) (.useBand celsius) _
  | usePid target input =>
    unfold act
    simp only
    cases (c.pid.withLimits (Single.ofNat (c.floor now).toNat)
        (Single.ofNat fullDuty.toNat)).duty? input target ns with
    | none => exact ⟨rfl, rfl, rfl, rfl⟩
    | some result => exact hcarry result.2 c.band (.usePid target input) result.1

/-! ### Ticks with an alarm -/

theorem decide_of_calm {settings : Settings} {view : View}
    (h : Decision.isDangerous settings view = false) (reason : String) :
    Decision.decide settings view ≠ .powerDown reason := by
  intro hdown
  have hwarranted := Decision.decide_warranted settings view
  rw [hdown] at hwarranted
  cases hwarranted with
  | danger hdanger => exact Bool.false_ne_true (h.symm.trans hdanger)

theorem decide_of_danger {settings : Settings} {view : View}
    (h : Decision.isDangerous settings view = true) :
    Decision.decide settings view = .powerDown "temperature dangerous" := by
  rw [Decision.decide, if_pos h]

theorem act_powerDown_of_takes (reason : String) (now ns : Nat) (h : c.Takes fullDuty) :
    c.act (.powerDown reason) now ns =
      (.ok (some (.powerDown reason)), (c.given fullDuty).trip reason) := by
  unfold act
  rw [apply_of_takes h]

theorem act_powerDown_of_not_takes (reason : String) (now ns : Nat) (h : ¬c.Takes fullDuty) :
    ∃ cause, c.act (.powerDown reason) now ns =
      (.error (.output cause), { c with fan := (c.fan.set fullDuty).2 }) := by
  obtain ⟨cause, heq⟩ := apply_of_not_takes h
  refine ⟨cause, ?_⟩
  unfold act
  rw [heq]

theorem trip_of_tripped (reason : String) (h : c.tripped = true) : c.trip reason = c := by
  rw [trip, if_pos h]

theorem trip_of_not_tripped (reason : String) (h : c.tripped = false) :
    ∃ alarm : Alarm, c.trip reason = { c with tripped := true, alarms := alarm :: c.alarms } ∧
      ∀ control max hottest, c.view = .known control max hottest →
        alarm = ⟨some hottest, max, reason⟩ := by
  unfold trip
  rw [if_neg (by rw [h]; exact Bool.false_ne_true)]
  refine ⟨_, rfl, ?_⟩
  intro control max hottest hview
  rw [hview]

/-! ### Alarms so far -/

def AlarmsOnce (c : FanGovernor) : Prop :=
  (c.tripped = false ∧ c.alarms = []) ∨ (c.tripped = true ∧ c.alarms.length = 1)

theorem SameAlarms.once (h : SameAlarms c after) (hc : c.AlarmsOnce) : after.AlarmsOnce := by
  rw [AlarmsOnce, h.tripped, h.alarms]
  exact hc

theorem AlarmsOnce.trip (h : c.AlarmsOnce) (reason : String) : (c.trip reason).AlarmsOnce := by
  rcases h with ⟨htripped, halarms⟩ | ⟨htripped, halarms⟩
  · obtain ⟨alarm, heq, _⟩ := trip_of_not_tripped reason htripped
    rw [heq]
    exact .inr ⟨rfl, by rw [halarms]; rfl⟩
  · rw [trip_of_tripped reason htripped]
    exact .inr ⟨htripped, halarms⟩

theorem AlarmsOnce.act (h : c.AlarmsOnce) (decision : Decision) (now ns : Nat) :
    (c.act decision now ns).2.AlarmsOnce := by
  by_cases hdown : ∃ reason, decision = .powerDown reason
  · obtain ⟨reason, rfl⟩ := hdown
    by_cases htakes : c.Takes fullDuty
    · rw [act_powerDown_of_takes reason now ns htakes]
      exact ((given_sameAlarms c fullDuty).once h).trip reason
    · obtain ⟨cause, heq⟩ := act_powerDown_of_not_takes reason now ns htakes
      rw [heq]
      exact h
  · exact (act_sameAlarms c now ns fun reason heq => hdown ⟨reason, heq⟩).once h

theorem AlarmsOnce.tick (h : c.AlarmsOnce) (overview : Overview) (now : Nat) :
    (c.tick overview now).2.1.AlarmsOnce := by
  rcases c.tick_cases overview now with ⟨_, _, heq⟩ | ⟨_, heq⟩
  · rw [heq]
    exact h
  · rw [heq]
    have hdeciding : (c.deciding overview.takeNews.1 now).AlarmsOnce := h
    exact hdeciding.act _ now _

end FanGovernor

/-! ### Runs -/

namespace FanSystem

/-- The event is a tick that takes a dangerous view from the overview. -/
def TakesDanger (s : FanSystem) : FanEvent → Prop
  | .tick _ => ∃ control max hottest, s.overview.takeNews.1 = some (.known control max hottest) ∧
      s.governor.settings.isDangerous max = true
  | _ => False

def Calm : FanSystem → List FanEvent → Prop
  | _, [] => True
  | s, event :: rest => ¬s.TakesDanger event ∧ Calm (s.after event) rest

/-- What holds of a controller that saw no dangerous view. -/
structure Unalarmed (settings : Settings) (c : FanGovernor) : Prop where
  settings_eq : c.settings = settings
  view : Decision.isDangerous settings c.view = false
  tripped : c.tripped = false
  alarms : c.alarms = []

theorem Unalarmed.after {s : FanSystem} {settings : Settings} {event : FanEvent}
    (h : Unalarmed settings s.governor) (hevent : ¬s.TakesDanger event) :
    Unalarmed settings (s.after event).governor := by
  cases event with
  | register chain => exact h
  | publish chain stats => exact h
  | disable chain => exact h
  | tick now =>
    show Unalarmed settings (s.governor.tick s.overview now).2.1
    rcases s.governor.tick_cases s.overview now with ⟨_, _, heq⟩ | ⟨_, heq⟩
    · rw [heq]
      exact h
    · have hview : Decision.isDangerous settings
          (s.overview.takeNews.1.getD s.governor.view) = false := by
        cases hnews : s.overview.takeNews.1 with
        | none => exact h.view
        | some view =>
          cases view with
          | unknown => rfl
          | known control max hottest =>
            rw [← Bool.not_eq_true]
            intro hmax
            rw [← h.settings_eq] at hmax
            exact hevent ⟨control, max, hottest, hnews, hmax⟩
      have hsame := (s.governor.deciding s.overview.takeNews.1 now).act_sameAlarms now
        (s.governor.sinceLast now) (FanGovernor.decide_of_calm hview)
      rw [heq, h.settings_eq]
      exact ⟨hsame.settings.trans h.settings_eq, by rw [hsame.view]; exact hview,
        hsame.tripped.trans h.tripped, hsame.alarms.trans h.alarms⟩

theorem Unalarmed.run {settings : Settings} {events : List FanEvent} {s : FanSystem}
    (h : Unalarmed settings s.governor) (hcalm : Calm s events) :
    Unalarmed settings (s.run events).governor := by
  induction events generalizing s with
  | nil => exact h
  | cons event rest ih => exact ih (h.after hcalm.1) hcalm.2

theorem alarmsOnce_run {s : FanSystem} (h : s.governor.AlarmsOnce) (events : List FanEvent) :
    (s.run events).governor.AlarmsOnce := by
  refine run_induction (fun s => s.governor.AlarmsOnce) ?_ events h
  intro s event hs
  cases event with
  | register chain => exact hs
  | publish chain stats => exact hs
  | disable chain => exact hs
  | tick now => exact hs.tick s.overview now

theorem Unalarmed.tick_of_danger {s : FanSystem} {settings : Settings} {control max : Float32}
    {hottest : UInt8} (h : Unalarmed settings s.governor) (now : Nat)
    (hnews : s.overview.takeNews.1 = some (.known control max hottest))
    (hmax : settings.isDangerous max = true) :
    let deciding := s.governor.deciding (some (.known control max hottest)) now
    ∃ ns, s.governor.tick s.overview now =
      ((deciding.act (.powerDown "temperature dangerous") now ns).1,
        (deciding.act (.powerDown "temperature dangerous") now ns).2, s.overview.takeNews.2) := by
  have hdanger : Decision.decide settings (.known control max hottest) =
      .powerDown "temperature dangerous" := FanGovernor.decide_of_danger hmax
  rcases s.governor.tick_cases s.overview now with ⟨hnone, _, _⟩ | ⟨_, heq⟩
  · rw [hnews] at hnone
    cases hnone
  · rw [hnews, Option.getD_some, h.settings_eq, hdanger] at heq
    exact ⟨_, heq⟩

/-- Over every run the alarm is raised at most once. The first tick that takes a dangerous view
raises it, with the maximum and the hottest chain of that view, when the fans have full speed or
take it; when they refuse, the tick fails and there is no alarm. -/
theorem alarm_of_first_danger (settings : Settings) (fan : FanOutput) (overview : Overview)
    (events : List FanEvent) :
    let s := FanSystem.run ⟨.start settings fan, overview⟩ events
    s.governor.alarms.length ≤ 1 ∧
      ∀ now control max hottest, Calm ⟨.start settings fan, overview⟩ events →
        s.overview.takeNews.1 = some (.known control max hottest) →
          settings.isDangerous max = true →
            (s.governor.Takes fullDuty → (s.after (.tick now)).governor.alarms =
              [⟨some hottest, max, "temperature dangerous"⟩]) ∧
            (¬s.governor.Takes fullDuty → (s.after (.tick now)).governor.alarms = [] ∧
              ∃ cause, (s.governor.tick s.overview now).1 = .error (.output cause)) := by
  intro s
  constructor
  · have honce : s.governor.AlarmsOnce := alarmsOnce_run (.inl ⟨rfl, rfl⟩) events
    rcases honce with ⟨_, halarms⟩ | ⟨_, halarms⟩
    · rw [halarms]
      exact Nat.zero_le 1
    · exact Nat.le_of_eq halarms
  · intro now control max hottest hcalm hnews hmax
    have hstart : Unalarmed settings (FanGovernor.start settings fan) := ⟨rfl, rfl, rfl, rfl⟩
    have hs : Unalarmed settings s.governor := hstart.run hcalm
    let deciding := s.governor.deciding (some (.known control max hottest)) now
    obtain ⟨ns, htick⟩ := hs.tick_of_danger now hnews hmax
    have hafter : (s.after (.tick now)).governor = (s.governor.tick s.overview now).2.1 := rfl
    rw [hafter, htick]
    constructor
    · intro htakes
      have hdeciding : deciding.Takes fullDuty := htakes
      have hgiven := deciding.given_sameAlarms fullDuty
      obtain ⟨alarm, heq, halarm⟩ := FanGovernor.trip_of_not_tripped "temperature dangerous"
        (hgiven.tripped.trans hs.tripped)
      rw [FanGovernor.act_powerDown_of_takes _ now ns hdeciding]
      show ((deciding.given fullDuty).trip "temperature dangerous").alarms = _
      rw [heq, halarm control max hottest hgiven.view]
      show _ :: (deciding.given fullDuty).alarms = _
      rw [hgiven.alarms.trans hs.alarms]
    · intro hrefused
      have hdeciding : ¬deciding.Takes fullDuty := hrefused
      obtain ⟨cause, heq⟩ :=
        FanGovernor.act_powerDown_of_not_takes "temperature dangerous" now ns hdeciding
      rw [heq]
      exact ⟨hs.alarms, cause, rfl⟩

theorem alarm_of_first_danger_at_112 : ∃ alarm : Alarm, alarm.chain = some 3 ∧
    ∀ fan : FanOutput,
      let s := FanSystem.run ⟨.start .standard fan, .empty⟩ [.publish 3 ⟨112, 112, 112, 90, 1⟩]
      ((fan.set fullDuty).1 = .ok () → (s.after (.tick 0)).governor.alarms = [alarm]) ∧
        ((fan.set fullDuty).1 ≠ .ok () → (s.after (.tick 0)).governor.alarms = []) := by
  refine ⟨⟨some 3, Single.max Single.lowest 112, "temperature dangerous"⟩, rfl, ?_⟩
  intro fan s
  have hcalm : Calm ⟨.start .standard fan, .empty⟩ [.publish 3 ⟨112, 112, 112, 90, 1⟩] :=
    ⟨id, trivial⟩
  have hnews : s.overview.takeNews.1 = some (.known 90 (Single.max Single.lowest 112) 3) := rfl
  have hmax : Settings.standard.isDangerous (Single.max Single.lowest 112) = true := by
    decide +kernel
  obtain ⟨htaken, hrefused⟩ :=
    (alarm_of_first_danger .standard fan .empty _).2 0 _ _ _ hcalm hnews hmax
  constructor
  · intro hset
    exact htaken (.inr hset)
  · intro hset
    refine (hrefused ?_).1
    rintro (hduty | hok)
    · cases hduty
    · exact hset hok

end FanSystem

end HashBoard.Thermal
