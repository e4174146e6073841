import HashBoard.Proofs.Thermal.FanView

/-!
# Refused duties

What becomes of a duty that the fans refused. The tick that asked for it has used the news up and
leaves the kept duty as it was. The next tick decides again when there is news since, or when the
fans have not taken any duty so far; then it brings fans that work to the duty decided. Without news
and with a duty kept it does nothing, and the fans stay at the duty before the refused one.
-/

namespace HashBoard.Thermal

namespace FanGovernor

variable {c : FanGovernor} {decision : Decision} {duty : UInt8} {now ns : Nat}

/-! ### Decisions taken and refused -/

theorem act_of_takes (h : c.dutyFor decision now ns = some duty) (htakes : c.Takes duty) :
    (c.act decision now ns).1 = .ok (some decision) := by
  have hcarry (pid : Pid) (band : Band) (decision : Decision) :
      (carryOut { c with pid, band } decision duty).1 = .ok (some decision) := by
    have hdriven : Takes { c with pid, band } duty := htakes
    rw [carryOut, apply_of_takes hdriven]
  cases decision with
  | nothing => cases h
  | powerDown reason =>
    obtain rfl : fullDuty = duty := Option.some.inj h
    rw [act_powerDown_of_takes reason now ns htakes]
  | useFixed fixed =>
    obtain rfl : fixed = duty := Option.some.inj h
    exact hcarry c.pid c.band (.useFixed fixed)
  | useBand celsius =>
    obtain rfl := Option.some.inj h
    exact hcarry c.pid (c.band.next celsius c.settings.band) (.useBand celsius)
  | usePid target input =>
    obtain ⟨⟨found, pid⟩, hfound, hduty⟩ := Option.map_eq_some_iff.1 h
    obtain rfl : found = duty := hduty
    unfold act
    simp only [hfound]
    exact hcarry pid c.band (.usePid target input)

/-- A decision fails at the fans only with a duty that they refuse, and the kept duty stays. -/
theorem act_of_refused {cause : Device.DeviceError}
    (h : (c.act decision now ns).1 = .error (.output cause)) :
    ∃ duty, c.dutyFor decision now ns = some duty ∧ c.duty ≠ some duty ∧
      (c.act decision now ns).2.duty = c.duty ∧
      (c.act decision now ns).2.fan.writes = (duty, false) :: c.fan.writes := by
  cases hduty : c.dutyFor decision now ns with
  | none =>
    cases decision with
    | nothing => cases h
    | powerDown reason => cases hduty
    | useFixed fixed => cases hduty
    | useBand celsius => cases hduty
    | usePid target input =>
      unfold act at h
      simp only [Option.map_eq_none_iff.1 hduty] at h
      cases h
  | some duty =>
    have hrefuses : ¬c.Takes duty := by
      intro htakes
      rw [act_of_takes hduty htakes] at h
      cases h
    obtain ⟨pid, band, _, hkept, hfan⟩ := act_of_dutyFor hduty
    have hdriven : ¬Takes { c with pid, band } duty := hrefuses
    obtain ⟨_, happly⟩ := apply_of_not_takes hdriven
    rw [happly] at hkept hfan
    refine ⟨duty, rfl, fun hsame => hrefuses (.inl hsame), hkept, ?_⟩
    rw [hfan]
    exact writes_of_not_takes hrefuses

end FanGovernor

/-! ### The next tick -/

/-- Whether an event can be news to the controller. -/
def FanEvent.reports : FanEvent → Bool
  | publish _ _ => true
  | disable _ => true
  | _ => false

namespace FanSystem

variable {s : FanSystem} {duty : UInt8} {now : Nat}

/-- The view that a tick acts on: the news, or else that of the latest news taken. -/
def seen (s : FanSystem) : View := s.overview.takeNews.1.getD s.governor.view

/-- Whether a tick decides: on news, and as long as the fans have not taken any duty. -/
def Decides (s : FanSystem) : Prop := s.overview.fresh = true ∨ s.governor.duty = none

/-- The duty that a tick which decides asks for. -/
def wanted? (s : FanSystem) (now : Nat) : Option UInt8 :=
  (s.governor.deciding s.overview.takeNews.1 now).dutyFor
    (.decide s.governor.settings s.seen) now (s.governor.sinceLast now)

theorem tick_of_not_decides (h : ¬s.Decides) (now : Nat) :
    s.governor.tick s.overview now = (.ok none, s.governor, s.overview) := by
  obtain ⟨hfresh, hduty⟩ := not_or.1 h
  have hnews : s.overview.takeNews = (none, s.overview) := by
    rw [Overview.takeNews, if_neg hfresh]
  rcases s.governor.tick_cases s.overview now with ⟨_, _, heq⟩ | ⟨hsome | hnone, _⟩
  · rw [heq, hnews]
  · rw [hnews] at hsome
    exact absurd rfl hsome
  · exact absurd hnone hduty

theorem tick_of_decides (h : s.Decides) (now : Nat) :
    s.governor.tick s.overview now =
      (((s.governor.deciding s.overview.takeNews.1 now).act
          (.decide s.governor.settings s.seen) now (s.governor.sinceLast now)).1,
        ((s.governor.deciding s.overview.takeNews.1 now).act
          (.decide s.governor.settings s.seen) now (s.governor.sinceLast now)).2,
        s.overview.takeNews.2) := by
  rcases s.governor.tick_cases s.overview now with ⟨hnone, hduty, _⟩ | ⟨_, heq⟩
  · have hfresh := h.resolve_right hduty
    rw [Overview.takeNews, if_pos hfresh] at hnone
    cases hnone
  · exact heq

theorem fresh_after_tick (s : FanSystem) (now : Nat) :
    (s.after (.tick now)).overview.fresh = false := by
  have hnews : s.overview.takeNews.2.fresh = false := by
    unfold Overview.takeNews
    cases hfresh : s.overview.fresh with
    | true => rfl
    | false => exact hfresh
  have hafter : (s.after (.tick now)).overview = (s.governor.tick s.overview now).2.2 := rfl
  rcases s.governor.tick_cases s.overview now with ⟨_, _, heq⟩ | ⟨_, heq⟩
  · rw [hafter, heq]
    exact hnews
  · rw [hafter, heq]
    exact hnews

/-- A refusal uses the news up and leaves the kept duty, another one, as it was. -/
theorem after_refusal {cause : Device.DeviceError}
    (h : (s.governor.tick s.overview now).1 = .error (.output cause)) :
    ∃ duty, s.wanted? now = some duty ∧ s.governor.duty ≠ some duty ∧
      (s.after (.tick now)).governor.duty = s.governor.duty ∧
      (s.after (.tick now)).governor.fan.writes = (duty, false) :: s.governor.fan.writes := by
  have hdecides : s.Decides := by
    by_contra hquiet
    rw [tick_of_not_decides hquiet] at h
    cases h
  have heq := tick_of_decides hdecides now
  have hafter : (s.after (.tick now)).governor = (s.governor.tick s.overview now).2.1 := rfl
  rw [heq] at h hafter
  rw [hafter]
  exact FanGovernor.act_of_refused h

/-- A tick that decides brings fans that take the duty wanted to that duty. -/
theorem tick_of_wanted (hkeeps : s.governor.KeepsTaken) (hdecides : s.Decides)
    (hwanted : s.wanted? now = some duty) (hset : (s.governor.fan.set duty).1 = .ok ()) :
    let ticked := s.governor.tick s.overview now
    ticked.1 = .ok (some (.decide s.governor.settings s.seen)) ∧
      ticked.2.1.duty = some duty ∧ latestTaken ticked.2.1.fan.writes = some duty ∧
      (ticked.2.1.fan.writes.head? = some (duty, true) ↔ ¬s.governor.Overlooks duty) := by
  intro ticked
  have hticked : ticked.2.1.KeepsTaken := hkeeps.tick s.overview now
  let deciding := s.governor.deciding s.overview.takeNews.1 now
  have htakes : deciding.Takes duty := .inr hset
  have heq := tick_of_decides hdecides now
  obtain ⟨pid, band, _, hkept, hfan⟩ := FanGovernor.act_of_dutyFor hwanted
  have hdriven : FanGovernor.KeepsTaken { deciding with pid, band } := hkeeps
  obtain ⟨hnew, hhead⟩ := hdriven.head?_apply htakes
  have hafter : ticked.2.1 = (deciding.act (.decide s.governor.settings s.seen) now
      (s.governor.sinceLast now)).2 := congrArg (fun ticked => ticked.2.1) heq
  rw [← hafter] at hkept hfan
  have hend : ticked.2.1.duty = some duty := hkept.trans hnew
  refine ⟨?_, hend, hticked duty hend, ?_⟩
  · exact (congrArg Prod.fst heq).trans (FanGovernor.act_of_takes hwanted htakes)
  · rw [hfan]
    exact hhead

/-! ### Runs after a refusal -/

theorem settings_run (s : FanSystem) (events : List FanEvent) :
    (s.run events).governor.settings = s.governor.settings := by
  refine run_induction (fun t => t.governor.settings = s.governor.settings) ?_ events rfl
  intro t event h
  cases event with
  | register chain => exact h
  | publish chain stats => exact h
  | disable chain => exact h
  | tick now =>
    show (t.governor.tick t.overview now).2.1.settings = _
    rcases t.governor.tick_cases t.overview now with ⟨_, _, heq⟩ | ⟨_, heq⟩
    · rw [heq]
      exact h
    · rw [heq]
      exact ((t.governor.deciding t.overview.takeNews.1 now).act_keeps _ now _).1.trans h

/-- Without reports nothing more comes of ticks once the news is used up. -/
theorem run_of_quiet {events : List FanEvent} (h : ¬s.Decides)
    (hevents : ∀ event ∈ events, event.reports = false) :
    ¬(s.run events).Decides ∧ (s.run events).governor = s.governor := by
  refine run_induction_of (fun t => ¬t.Decides ∧ t.governor = s.governor) ?_ hevents ⟨h, rfl⟩
  intro t event hquiet ⟨hstill, hgovernor⟩
  cases event with
  | register chain => exact ⟨hstill, hgovernor⟩
  | publish chain stats => cases hquiet
  | disable chain => cases hquiet
  | tick now =>
    have hafter : t.after (.tick now) = t := by
      have heq : t.after (.tick now) =
          ⟨(t.governor.tick t.overview now).2.1, (t.governor.tick t.overview now).2.2⟩ := rfl
      rw [heq, tick_of_not_decides hstill]
    rw [hafter]
    exact ⟨hstill, hgovernor⟩

/-- What becomes of a duty that the fans refused, in every order of reports and ticks. The refused
tick leaves the duty kept before it. Every later tick that has news, or has no duty kept, decides on
the latest view and brings fans that work to the duty decided; every other one answers that there
was nothing to do. So when a duty was kept and no chain reports, the refused duty is never asked
for again. -/
theorem after_refused_duty (settings : Settings) (fan : FanOutput) (before events : List FanEvent)
    (now : Nat) {cause : Device.DeviceError} :
    let s := FanSystem.run ⟨.start settings fan, .empty⟩ (before ++ events)
    let refused := s.after (.tick now)
    (s.governor.tick s.overview now).1 = .error (.output cause) →
      (∃ duty, s.wanted? now = some duty ∧ s.governor.duty ≠ some duty ∧
          refused.governor.duty = s.governor.duty ∧
          refused.governor.fan.writes = (duty, false) :: s.governor.fan.writes) ∧
        ∀ between later,
          let next := refused.run between
          let ticked := next.governor.tick next.overview later
          (next.Decides → ∀ duty, next.wanted? later = some duty →
              (next.governor.fan.set duty).1 = .ok () →
                ticked.1 = .ok (some (.decide settings next.seen)) ∧
                  ticked.2.1.duty = some duty ∧ latestTaken ticked.2.1.fan.writes = some duty ∧
                  (ticked.2.1.fan.writes.head? = some (duty, true) ↔
                    ¬next.governor.Overlooks duty)) ∧
            (¬next.Decides → ticked = (.ok none, next.governor, next.overview)) ∧
            (s.governor.duty ≠ none → (∀ event ∈ between, event.reports = false) →
              ¬next.Decides ∧ next.governor = refused.governor) ∧
            ((∀ event ∈ before, event.isTick = false) →
              (∀ event ∈ events ++ between, event.isRegister = false) →
                next.seen = next.overview.current) := by
  intro s refused hrefused
  have hrefusal := after_refusal hrefused
  refine ⟨hrefusal, ?_⟩
  intro between later next ticked
  have hnext : next = FanSystem.run ⟨.start settings fan, .empty⟩
      (before ++ events ++ .tick now :: between) := by
    rw [run_append]
    rfl
  have hstart : (FanGovernor.start settings fan).KeepsTaken := nofun
  have hkeeps : next.governor.KeepsTaken := by
    rw [hnext]
    exact keepsTaken_run hstart _
  have hsettings : next.governor.settings = settings := by
    rw [hnext]
    exact settings_run _ _
  refine ⟨?_, fun h => tick_of_not_decides h later, ?_, ?_⟩
  · intro hdecides duty hwanted hset
    have hticked := tick_of_wanted hkeeps hdecides hwanted hset
    rw [hsettings] at hticked
    exact hticked
  · intro hduty hquiet
    obtain ⟨_, _, _, hkept, _⟩ := hrefusal
    have hstill : ¬refused.Decides := by
      rintro (hfresh | hnone)
      · exact Bool.false_ne_true ((fresh_after_tick s now).symm.trans hfresh)
      · exact hduty (hkept.symm.trans hnone)
    exact run_of_quiet hstill hquiet
  · intro hbefore hafter
    have hrest : ∀ event ∈ events ++ .tick now :: between, event.isRegister = false := by
      simp only [List.mem_append, List.mem_cons] at hafter ⊢
      rintro event (hold | rfl | hlater)
      · exact hafter event (.inl hold)
      · rfl
      · exact hafter event (.inr hlater)
    have hupToDate : next.UpToDate := by
      rw [hnext, List.append_assoc, run_append]
      exact run_induction_of UpToDate (fun _ _ hevent h => h.after hevent) hrest
        (upToDate_start hbefore)
    exact hupToDate.news

/-- Fans that refuse the second duty, which is the low one for a cold chain. -/
def beforeRefusal : FanSystem :=
  let fan : FanOutput := ⟨fun writes _ =>
    if writes.length = 1 then .error (.invalidParameter "fan stuck") else .ok (), []⟩
  FanSystem.run ⟨.start { Settings.standard with fanMode := .hysteresis } fan, .empty⟩
    ([.register 3] ++ [.tick 0, .publish 3 ⟨30, 30, 30, 30, 1⟩])

/-- With the fans working again, the tick after the refusal leaves them at full speed. Only when the
chain has reported once more they get the low duty. -/
theorem after_refused_duty_of_cold_chain :
    let refused := beforeRefusal.after (.tick 1000)
    let reported := refused.after (.publish 3 ⟨30, 30, 30, 30, 1⟩)
    refused.governor.fan.writes = [(60, false), (100, true)] ∧
      refused.governor.tick refused.overview 2000 =
        (.ok none, refused.governor, refused.overview) ∧
      refused.seen = refused.overview.current ∧
      (reported.governor.tick reported.overview 2000).2.1.duty = some 60 ∧
      (reported.governor.tick reported.overview 2000).2.1.fan.writes.head? = some (60, true) := by
  have hrefused : (beforeRefusal.governor.tick beforeRefusal.overview 1000).1 =
      .error (.output (.invalidParameter "fan stuck")) := rfl
  have hkept : beforeRefusal.governor.duty = some 100 := rfl
  have hsome : beforeRefusal.governor.duty ≠ none := by
    rw [hkept]
    nofun
  obtain ⟨⟨duty, hwanted, _, _, hwrites⟩, hlater⟩ := after_refused_duty _ _ [.register 3]
    [.tick 0, .publish 3 ⟨30, 30, 30, 30, 1⟩] 1000 hrefused
  obtain ⟨_, hlost, hquiet, hseen⟩ := hlater [] 2000
  obtain ⟨hmade, _⟩ := hlater [.publish 3 ⟨30, 30, 30, 30, 1⟩] 2000
  obtain rfl : 60 = duty := Option.some.inj hwanted
  have hidle := hquiet hsome nofun
  obtain ⟨_, hduty, _, hlatest⟩ := hmade (.inl rfl) 60 rfl rfl
  refine ⟨hwrites, hlost hidle.1, hseen ?_ ?_, hduty, hlatest.2 ?_⟩
  · simp [FanEvent.isTick]
  · simp [FanEvent.isRegister]
  · rintro ⟨hsame, _⟩
    cases hkept.symm.trans hsame

end FanSystem

end HashBoard.Thermal
