import HashBoard.Proofs.Thermal.FanAlarm
import HashBoard.Proofs.Thermal.FanDuty
import Mathlib.Data.List.Chain

/-!
# The view behind the duty

The controller sees the chains only when it takes news, and it skips a tick without any. Still the
view it acts on is the one across the chains after every tick, and fans that take every duty run at
the duty which that view asks for.
-/

namespace HashBoard.Thermal

/-! ### News -/

namespace Overview

def Unpublished (o : Overview) : Prop := ∀ e ∈ o.entries, e.2.stats = none

theorem viewFrom_of_unpublished {max : Float32} {entries : List (UInt8 × OverviewEntry)}
    (h : ∀ e ∈ entries, e.2.stats = none) : viewFrom max none entries = .unknown := by
  induction entries with
  | nil => rfl
  | cons e rest ih =>
    obtain ⟨chain, entry⟩ := e
    have hfirst : entry.stats = none := h _ List.mem_cons_self
    have hrest := ih fun other hother => h other (List.mem_cons_of_mem _ hother)
    cases hon : entry.enabled with
    | true => simp only [viewFrom, hon, hfirst, if_true]
    | false => simpa only [viewFrom, hon, Bool.false_eq_true, if_false] using hrest

theorem mem_putEntry {chain : UInt8} {entry : OverviewEntry}
    {entries : List (UInt8 × OverviewEntry)} {e : UInt8 × OverviewEntry}
    (h : e ∈ putEntry chain entry entries) : e = (chain, entry) ∨ e ∈ entries := by
  induction entries with
  | nil => exact .inl (List.mem_singleton.1 h)
  | cons first rest ih =>
    obtain ⟨c, other⟩ := first
    unfold putEntry at h
    split at h
    · exact List.mem_cons.1 h
    · split at h
      · rcases List.mem_cons.1 h with rfl | hrest
        · exact .inl rfl
        · exact .inr (List.mem_cons_of_mem _ hrest)
      · rcases List.mem_cons.1 h with rfl | hrest
        · exact .inr List.mem_cons_self
        · exact (ih hrest).imp id (List.mem_cons_of_mem _)

theorem Unpublished.register {o : Overview} (h : o.Unpublished) (chain : UInt8) :
    (o.register chain).Unpublished := by
  intro e he
  rcases mem_putEntry he with rfl | hold
  · rfl
  · exact h e hold

theorem disable_cases (o : Overview) (chain : UInt8) :
    o.disable chain = o ∨ (o.disable chain).fresh = true := by
  unfold disable
  cases o.entry? chain with
  | none => exact .inl rfl
  | some entry => exact .inr rfl

theorem current_takeNews (o : Overview) : o.takeNews.2.current = o.current := by
  unfold takeNews
  split <;> rfl

end Overview

/-! ### Fans that take every duty -/

def lastWritten (writes : List (UInt8 × Bool)) : Option UInt8 := writes.head?.map Prod.fst

/-- The duty that a view asks for outright; none where a drive computes one. -/
def demanded (settings : Settings) (view : View) : Option UInt8 :=
  match Decision.decide settings view with
  | .powerDown _ => some fullDuty
  | .useFixed duty => some duty
  | _ => none

def FanOutput.Obeys (fan : FanOutput) : Prop := ∀ writes duty, fan.respond writes duty = .ok ()

namespace FanGovernor

variable {c : FanGovernor} {decision : Decision} {duty : UInt8}

/-- The fans obey, the kept duty is the last one written and no duty was written twice in a row. -/
structure Steady (c : FanGovernor) : Prop where
  obeys : c.fan.Obeys
  duty : c.duty = lastWritten c.fan.writes
  varied : c.fan.writes.IsChain fun later earlier => later.1 ≠ earlier.1

theorem Steady.apply (h : c.Steady) (duty : UInt8) :
    (c.apply duty).2.Steady ∧ (c.apply duty).2.duty = some duty := by
  have hset : (c.fan.set duty).1 = .ok () := h.obeys ..
  have htakes : c.Takes duty := .inr hset
  rw [apply_of_takes htakes]
  by_cases hsame : c.duty = some duty
  · rw [given, if_pos hsame]
    exact ⟨h, hsame⟩
  · have hwrites := writes_of_set_ok hset
    rw [given, if_neg hsame]
    refine ⟨⟨h.obeys, ?_, ?_⟩, rfl⟩
    · show some duty = lastWritten (c.fan.set duty).2.writes
      rw [hwrites]
      rfl
    · show List.IsChain _ (c.fan.set duty).2.writes
      rw [hwrites, List.isChain_cons]
      refine ⟨?_, h.varied⟩
      -- The duty before this one was kept, so it is another one.
      intro earlier hearlier hequal
      have hlast : lastWritten c.fan.writes = some earlier.1 := by
        rw [lastWritten, Option.mem_def.1 hearlier]
        rfl
      exact hsame (h.duty.trans (hlast.trans (congrArg some hequal.symm)))

theorem Steady.act (h : c.Steady) (decision : Decision) (now ns : Nat) :
    (c.act decision now ns).2.Steady ∧
      ∀ duty, c.dutyFor decision now ns = some duty →
        (c.act decision now ns).2.duty = some duty := by
  cases hduty : c.dutyFor decision now ns with
  | none =>
    obtain ⟨_, hkept, hfan⟩ := act_of_dutyFor_eq_none hduty
    refine ⟨⟨?_, ?_, ?_⟩, nofun⟩
    · rw [hfan]
      exact h.obeys
    · rw [hkept, hfan]
      exact h.duty
    · rw [hfan]
      exact h.varied
  | some duty =>
    obtain ⟨pid, band, _, hkept, hfan⟩ := act_of_dutyFor hduty
    have hdriven : Steady { c with pid, band } := ⟨h.obeys, h.duty, h.varied⟩
    obtain ⟨hsteady, hnew⟩ := hdriven.apply duty
    refine ⟨⟨?_, ?_, ?_⟩, ?_⟩
    · rw [hfan]
      exact hsteady.obeys
    · rw [hkept, hfan]
      exact hsteady.duty
    · rw [hfan]
      exact hsteady.varied
    · intro other hother
      obtain rfl := Option.some.inj hother
      exact hkept.trans hnew

theorem act_keeps (c : FanGovernor) (decision : Decision) (now ns : Nat) :
    (c.act decision now ns).2.settings = c.settings ∧
      (c.act decision now ns).2.view = c.view := by
  by_cases hdown : ∃ reason, decision = .powerDown reason
  · obtain ⟨reason, rfl⟩ := hdown
    have hsame := apply_sameAlarms c fullDuty
    unfold act
    generalize c.apply fullDuty = applied at hsame ⊢
    obtain ⟨answer, after⟩ := applied
    cases answer with
    | error fault => exact ⟨hsame.settings, hsame.view⟩
    | ok u =>
      show (after.trip reason).settings = _ ∧ (after.trip reason).view = _
      unfold trip
      split
      · exact ⟨hsame.settings, hsame.view⟩
      · exact ⟨hsame.settings, hsame.view⟩
  · have hsame := c.act_sameAlarms now ns fun reason heq => hdown ⟨reason, heq⟩
    exact ⟨hsame.settings, hsame.view⟩

theorem dutyFor_decide (c : FanGovernor) {settings : Settings} {view : View} {now ns : Nat}
    (h : demanded settings view = some duty) :
    c.dutyFor (.decide settings view) now ns = some duty := by
  unfold demanded at h
  split at h
  · rename_i heq
    rw [heq]
    exact h
  · rename_i heq
    rw [heq]
    exact h
  · cases h

end FanGovernor

theorem demanded_of_danger {settings : Settings} {view : View}
    (h : Decision.isDangerous settings view = true) : demanded settings view = some fullDuty := by
  rw [demanded, FanGovernor.decide_of_danger h]

theorem demanded_of_useFixed {settings : Settings} {view : View} {duty : UInt8}
    (hcalm : Decision.isDangerous settings view = false) (hfans : settings.pwmChips ≠ [])
    (hmode : Decision.byMode settings view = .useFixed duty) :
    demanded settings view = some duty := by
  have hchips : settings.pwmChips.isEmpty = false := by
    rw [← Bool.not_eq_true, List.isEmpty_iff]
    exact hfans
  rw [demanded, Decision.decide, hcalm, hchips, hmode]
  rfl

/-- Where a view asks for full speed: at danger, in the mode for emergencies, and under a drive
while nothing is known or the hot threshold is reached. -/
theorem demanded_fullDuty {settings : Settings} {view : View} (hfans : settings.pwmChips ≠ [])
    (h : Decision.isDangerous settings view = true ∨ settings.fanMode = .emergency ∨
      (settings.fanMode = .auto ∨ settings.fanMode = .hysteresis) ∧
        ∀ control max hottest, view = .known control max hottest → control ≥ settings.hot) :
    demanded settings view = some fullDuty := by
  cases hdanger : Decision.isDangerous settings view with
  | true => exact demanded_of_danger hdanger
  | false =>
    refine demanded_of_useFixed hdanger hfans ?_
    unfold Decision.byMode
    rcases h with hyes | hmode | ⟨hmode, hhot⟩
    · rw [hdanger] at hyes
      cases hyes
    · rw [hmode]
    · cases view with
      | unknown => rcases hmode with hmode | hmode <;> rw [hmode]
      | known control max hottest =>
        have hat := hhot control max hottest rfl
        rcases hmode with hmode | hmode <;> simp only [hmode, if_pos hat]

theorem demanded_manual {settings : Settings} {view : View} (hfans : settings.pwmChips ≠ [])
    (hmode : settings.fanMode = .manual) (hcalm : Decision.isDangerous settings view = false) :
    demanded settings view = some settings.manualSpeed := by
  refine demanded_of_useFixed hcalm hfans ?_
  unfold Decision.byMode
  rw [hmode]

/-! ### Runs -/

def FanEvent.isTick : FanEvent → Bool
  | tick _ => true
  | _ => false

def FanEvent.isRegister : FanEvent → Bool
  | register _ => true
  | _ => false

namespace FanSystem

variable {settings : Settings} {s : FanSystem}

/-- Without news the view of the controller is the one across the chains. -/
def UpToDate (s : FanSystem) : Prop :=
  s.overview.fresh = false → s.governor.view = s.overview.current

theorem upToDate_of_fresh (h : s.overview.fresh = true) : s.UpToDate := by
  intro hnone
  rw [h] at hnone
  cases hnone

theorem UpToDate.news (h : s.UpToDate) :
    s.overview.takeNews.1.getD s.governor.view = s.overview.current := by
  unfold Overview.takeNews
  cases hfresh : s.overview.fresh with
  | true => rfl
  | false => exact h hfresh

/-- A tick brings the view up to date, by news or because nothing has changed. -/
theorem UpToDate.tick (h : s.UpToDate) (now : Nat) :
    (s.after (.tick now)).governor.view = (s.after (.tick now)).overview.current := by
  have hnews := h.news
  have hafter : s.after (.tick now) =
      ⟨(s.governor.tick s.overview now).2.1, (s.governor.tick s.overview now).2.2⟩ := rfl
  rcases s.governor.tick_cases s.overview now with ⟨hquiet, _, heq⟩ | ⟨_, heq⟩
  · rw [hquiet] at hnews
    rw [hafter, heq]
    exact hnews.trans s.overview.current_takeNews.symm
  · obtain ⟨_, hview⟩ := (s.governor.deciding s.overview.takeNews.1 now).act_keeps
      (.decide s.governor.settings (s.overview.takeNews.1.getD s.governor.view)) now
      (s.governor.sinceLast now)
    rw [hafter, heq]
    exact hview.trans (hnews.trans s.overview.current_takeNews.symm)

theorem UpToDate.after (h : s.UpToDate) {event : FanEvent} (hevent : event.isRegister = false) :
    (s.after event).UpToDate := by
  cases event with
  | register chain => cases hevent
  | publish chain stats => exact upToDate_of_fresh rfl
  | disable chain =>
    rcases s.overview.disable_cases chain with hsame | hfresh
    · show UpToDate { s with overview := s.overview.disable chain }
      rw [hsame]
      exact h
    · exact upToDate_of_fresh hfresh
  | tick now => exact fun _ => h.tick now

/-- What holds of controller and overview between any two events: without news the view is up to
date, and a duty was taken only as the view asked for it. -/
structure InStep (settings : Settings) (s : FanSystem) : Prop where
  settings_eq : s.governor.settings = settings
  steady : s.governor.Steady
  upToDate : s.overview.fresh = false → s.governor.view = s.overview.current
  obeyed : s.governor.duty ≠ none → ∀ duty, demanded settings s.governor.view = some duty →
    s.governor.duty = some duty

theorem InStep.tick (h : InStep settings s) (now : Nat) :
    InStep settings (s.after (.tick now)) ∧
      (s.after (.tick now)).governor.view = (s.after (.tick now)).overview.current ∧
      ∀ duty, demanded settings (s.after (.tick now)).governor.view = some duty →
        (s.after (.tick now)).governor.duty = some duty := by
  have hcurrent := UpToDate.tick h.upToDate now
  refine and_left_comm.1 ⟨hcurrent, ?_⟩
  have hafter : s.after (.tick now) =
      ⟨(s.governor.tick s.overview now).2.1, (s.governor.tick s.overview now).2.2⟩ := rfl
  rw [hafter] at hcurrent ⊢
  rcases s.governor.tick_cases s.overview now with ⟨_, hkept, heq⟩ | ⟨_, heq⟩
  · rw [heq] at hcurrent ⊢
    exact ⟨⟨h.settings_eq, h.steady, fun _ => hcurrent, h.obeyed⟩, h.obeyed hkept⟩
  · let deciding := s.governor.deciding s.overview.takeNews.1 now
    let decision := Decision.decide settings deciding.view
    have hsteady : deciding.Steady := ⟨h.steady.obeys, h.steady.duty, h.steady.varied⟩
    obtain ⟨hacted, hduty⟩ := hsteady.act decision now (s.governor.sinceLast now)
    obtain ⟨hsettings, hview⟩ := deciding.act_keeps decision now (s.governor.sinceLast now)
    rw [h.settings_eq] at heq
    have hobeyed : ∀ duty,
        demanded settings (deciding.act decision now (s.governor.sinceLast now)).2.view =
          some duty →
        (deciding.act decision now (s.governor.sinceLast now)).2.duty = some duty := by
      intro duty hdemanded
      rw [hview] at hdemanded
      exact hduty duty (deciding.dutyFor_decide hdemanded)
    rw [heq] at hcurrent ⊢
    exact ⟨⟨hsettings.trans h.settings_eq, hacted, fun _ => hcurrent, fun _ => hobeyed⟩, hobeyed⟩

theorem InStep.after (h : InStep settings s) {event : FanEvent}
    (hevent : event.isRegister = false) : InStep settings (s.after event) := by
  have hupToDate := UpToDate.after h.upToDate hevent
  cases event with
  | register chain => cases hevent
  | publish chain stats => exact ⟨h.settings_eq, h.steady, hupToDate, h.obeyed⟩
  | disable chain => exact ⟨h.settings_eq, h.steady, hupToDate, h.obeyed⟩
  | tick now => exact (h.tick now).1

theorem InStep.run (h : InStep settings s) {events : List FanEvent}
    (hevents : ∀ event ∈ events, event.isRegister = false) : InStep settings (s.run events) :=
  run_induction_of (InStep settings) (fun _ _ hevent h => h.after hevent) hevents h

/-- Before the first tick nothing is known, and what the chains report is news. -/
theorem overview_before_ticks {events : List FanEvent}
    (hevents : ∀ event ∈ events, event.isTick = false) :
    (s.run events).governor = s.governor ∧
      (s.overview.Unpublished ∨ s.overview.fresh = true →
        (s.run events).overview.Unpublished ∨ (s.run events).overview.fresh = true) := by
  induction events generalizing s with
  | nil => exact ⟨rfl, id⟩
  | cons event rest ih =>
    have hrest := fun other hother => hevents other (List.mem_cons_of_mem _ hother)
    obtain ⟨hgovernor, hoverview⟩ := @ih (s.after event) hrest
    show ((s.after event).run rest).governor = _ ∧ (_ → ((s.after event).run rest).overview.Unpublished
      ∨ ((s.after event).run rest).overview.fresh = true)
    rw [hgovernor]
    cases event with
    | tick now => cases hevents _ List.mem_cons_self
    | register chain => exact ⟨rfl, fun h => hoverview (h.imp (·.register chain) id)⟩
    | publish chain stats => exact ⟨rfl, fun _ => hoverview (.inr rfl)⟩
    | disable chain =>
      refine ⟨rfl, fun h => hoverview ?_⟩
      show (s.overview.disable chain).Unpublished ∨ (s.overview.disable chain).fresh = true
      rcases s.overview.disable_cases chain with hsame | hfresh
      · rw [hsame]
        exact h
      · exact .inr hfresh

theorem upToDate_start {fan : FanOutput} {events : List FanEvent}
    (hevents : ∀ event ∈ events, event.isTick = false) :
    (run ⟨.start settings fan, .empty⟩ events).UpToDate := by
  have hempty : Overview.empty.Unpublished := nofun
  obtain ⟨hgovernor, hoverview⟩ :=
    overview_before_ticks (s := ⟨.start settings fan, .empty⟩) hevents
  rcases hoverview (.inl hempty) with hunpublished | hfresh
  · intro _
    rw [hgovernor]
    exact (Overview.viewFrom_of_unpublished hunpublished).symm
  · exact upToDate_of_fresh hfresh

theorem inStep_start {fan : FanOutput} {events : List FanEvent} (hfan : fan.Obeys)
    (hwrites : fan.writes = []) (hevents : ∀ event ∈ events, event.isTick = false) :
    InStep settings (run ⟨.start settings fan, .empty⟩ events) := by
  have hupToDate : (run ⟨.start settings fan, .empty⟩ events).UpToDate := upToDate_start hevents
  obtain ⟨hgovernor, _⟩ := overview_before_ticks (s := ⟨.start settings fan, .empty⟩) hevents
  refine ⟨?_, ?_, hupToDate, ?_⟩
  · rw [hgovernor]
    rfl
  · rw [hgovernor]
    refine ⟨hfan, ?_, ?_⟩
    · show none = lastWritten fan.writes
      rw [hwrites]
      rfl
    · show List.IsChain _ fan.writes
      rw [hwrites]
      exact .nil
  · rw [hgovernor]
    exact fun hduty => absurd rfl hduty

/-- In every order of reports and ticks, when the chains are registered before the first tick and
the fans take every duty: after each tick the view acted on is the one across the chains, the fans
were last told the duty that this view asks for, the kept duty is that one, and no duty was written
twice in a row. -/
theorem duty_follows_view {settings : Settings} (hfans : settings.pwmChips ≠ []) {fan : FanOutput}
    (hfan : ∀ writes duty, fan.respond writes duty = .ok ()) (hwrites : fan.writes = [])
    {before events : List FanEvent} (hbefore : ∀ event ∈ before, event.isTick = false)
    (hevents : ∀ event ∈ events, event.isRegister = false) (now : Nat) :
    let s := (FanSystem.run ⟨.start settings fan, .empty⟩ (before ++ events)).after (.tick now)
    let written := lastWritten s.governor.fan.writes
    s.governor.view = s.overview.current ∧
      (∀ control max hottest, s.governor.view = .known control max hottest →
        settings.isDangerous max = true → written = some fullDuty) ∧
      (settings.fanMode = .emergency → written = some fullDuty) ∧
      (settings.fanMode = .auto ∨ settings.fanMode = .hysteresis →
        s.governor.view = .unknown ∨
            (∃ control max hottest, s.governor.view = .known control max hottest ∧
              control ≥ settings.hot) →
          written = some fullDuty) ∧
      (settings.fanMode = .manual →
        (∀ control max hottest, s.governor.view = .known control max hottest →
          settings.isDangerous max = false) → written = some settings.manualSpeed) ∧
      s.governor.duty = written ∧
      s.governor.fan.writes.IsChain fun later earlier => later.1 ≠ earlier.1 := by
  intro s written
  have hstart : InStep settings (run ⟨.start settings fan, .empty⟩ before) :=
    inStep_start hfan hwrites hbefore
  have hrun : InStep settings (run ⟨.start settings fan, .empty⟩ (before ++ events)) := by
    unfold run
    rw [List.foldl_append]
    exact hstart.run hevents
  obtain ⟨hstep, hview, hobeyed⟩ := hrun.tick now
  have hwritten {duty : UInt8} (h : demanded settings s.governor.view = some duty) :
      written = some duty := hstep.steady.duty.symm.trans (hobeyed duty h)
  refine ⟨hview, ?_, ?_, ?_, ?_, hstep.steady.duty, hstep.steady.varied⟩
  · intro control max hottest hknown hdanger
    apply hwritten
    rw [hknown]
    exact demanded_of_danger hdanger
  · intro hmode
    exact hwritten (demanded_fullDuty hfans (.inr (.inl hmode)))
  · intro hmode hhot
    refine hwritten (demanded_fullDuty hfans (.inr (.inr ⟨hmode, ?_⟩)))
    intro control max hottest hknown
    rcases hhot with hunknown | ⟨control', max', hottest', hknown', hat⟩
    · rw [hunknown] at hknown
      cases hknown
    · rw [hknown'] at hknown
      cases hknown
      exact hat
  · intro hmode hcalm
    refine hwritten (demanded_manual hfans hmode ?_)
    cases hknown : s.governor.view with
    | unknown => rfl
    | known control max hottest => exact hcalm control max hottest hknown

/-- Two chains are registered and one is cold. The other one does not report and is given up; then
the first one gets hot. -/
def coldThenHot : FanSystem :=
  FanSystem.run ⟨.start { Settings.standard with fanMode := .hysteresis } ⟨fun _ _ => .ok (), []⟩,
    .empty⟩ ([.register 0, .register 1] ++ [.tick 0, .publish 0 ⟨30, 30, 30, 30, 1⟩, .tick 1000,
      .disable 1, .tick 2000, .publish 0 ⟨99, 99, 99, 99, 1⟩])

def reachesHot (settings : Settings) : View → Bool
  | .known control _ _ => control ≥ settings.hot
  | .unknown => false

/-- The fans went from full speed to the low duty and are back. -/
theorem duty_follows_view_when_hot :
    let s := coldThenHot.after (.tick 3000)
    s.governor.view = s.overview.current ∧ reachesHot .standard s.governor.view = true ∧
      s.governor.duty = some 100 ∧ s.governor.fan.writes.map Prod.fst = [100, 60, 100] := by
  intro s
  have hfans : ({ Settings.standard with fanMode := .hysteresis } : Settings).pwmChips ≠ [] := by
    decide
  have hhot : reachesHot .standard s.governor.view = true := by decide +kernel
  have hwrites : s.governor.fan.writes.map Prod.fst = [100, 60, 100] := by decide +kernel
  have hbefore : ∀ event ∈ [FanEvent.register 0, .register 1], event.isTick = false := by
    simp [FanEvent.isTick]
  have hevents : ∀ event ∈ [FanEvent.tick 0, .publish 0 ⟨30, 30, 30, 30, 1⟩, .tick 1000, .disable 1,
      .tick 2000, .publish 0 ⟨99, 99, 99, 99, 1⟩], event.isRegister = false := by
    simp [FanEvent.isRegister]
  obtain ⟨hview, _, _, hfull, _, hduty, _⟩ := @duty_follows_view
    { Settings.standard with fanMode := .hysteresis } hfans ⟨fun _ _ => .ok (), []⟩ (fun _ _ => rfl)
    rfl _ _ hbefore hevents 3000
  refine ⟨hview, hhot, hduty.trans (hfull (.inr rfl) (.inr ?_)), hwrites⟩
  show ∃ control max hottest, s.governor.view = .known control max hottest ∧ _
  cases hknown : s.governor.view with
  | unknown =>
    rw [hknown] at hhot
    cases hhot
  | known control max hottest =>
    rw [hknown] at hhot
    exact ⟨control, max, hottest, rfl, of_decide_eq_true hhot⟩

end FanSystem

end HashBoard.Thermal
