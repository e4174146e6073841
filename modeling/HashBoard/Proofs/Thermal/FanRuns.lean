import HashBoard.Thermal.Fan

/-!
# Runs of the fan controller

The chains report to an overview and the controller ticks, in any order. What a tick does is split
into the cases that its properties need: whether there is news to act on, which decision the view
warrants, and whether the fans take the duty.
-/

namespace HashBoard.Thermal

/-! ### Runs -/

inductive FanEvent where
  | register (chain : UInt8)
  | publish (chain : UInt8) (stats : Statistics)
  | disable (chain : UInt8)
  | tick (now : Nat)

structure FanSystem where
  governor : FanGovernor
  overview : Overview

namespace FanSystem

def after (s : FanSystem) : FanEvent → FanSystem
  | .register chain => { s with overview := s.overview.register chain }
  | .publish chain stats => { s with overview := s.overview.publish chain stats }
  | .disable chain => { s with overview := s.overview.disable chain }
  | .tick now =>
    let ticked := s.governor.tick s.overview now
    { governor := ticked.2.1, overview := ticked.2.2 }

def run (s : FanSystem) (events : List FanEvent) : FanSystem := events.foldl after s

theorem run_induction_of (P : FanSystem → Prop) {allowed : FanEvent → Prop}
    (hafter : ∀ s event, allowed event → P s → P (s.after event)) {events : List FanEvent}
    (hevents : ∀ event ∈ events, allowed event) {s : FanSystem} (h : P s) : P (s.run events) := by
  induction events generalizing s with
  | nil => exact h
  | cons event rest ih =>
    obtain ⟨hevent, hrest⟩ := List.forall_mem_cons.1 hevents
    exact ih hrest (hafter s event hevent h)

theorem run_induction (P : FanSystem → Prop) (hafter : ∀ s event, P s → P (s.after event))
    (events : List FanEvent) {s : FanSystem} (h : P s) : P (s.run events) :=
  run_induction_of P (fun s event _ => hafter s event) (fun _ _ => trivial) h

theorem run_append (s : FanSystem) (first second : List FanEvent) :
    s.run (first ++ second) = (s.run first).run second := List.foldl_append

end FanSystem

/-! ### Decisions -/

/-- Every decision, with what it takes: danger, or the mode where another duty than full speed is
given. -/
inductive Decision.Warranted (settings : Settings) (view : View) : Decision → Prop
  | danger (hdanger : isDangerous settings view = true) :
    Warranted settings view (.powerDown "temperature dangerous")
  | noFans : Warranted settings view .nothing
  | full : Warranted settings view (.useFixed fullDuty)
  | manual (hmode : settings.fanMode = .manual) :
    Warranted settings view (.useFixed settings.manualSpeed)
  | band (hmode : settings.fanMode = .hysteresis) (celsius : Float32) :
    Warranted settings view (.useBand celsius)
  | auto (hmode : settings.fanMode = .auto) (celsius : Float32) :
    Warranted settings view (.usePid settings.target celsius)

theorem Decision.decide_warranted (settings : Settings) (view : View) :
    Warranted settings view (decide settings view) := by
  unfold decide
  by_cases hdanger : isDangerous settings view = true
  · rw [if_pos hdanger]
    exact .danger hdanger
  by_cases hnone : settings.pwmChips.isEmpty = true
  · rw [if_neg hdanger, if_pos hnone]
    exact .noFans
  rw [if_neg hdanger, if_neg hnone]
  unfold byMode
  split
  · exact .full
  · exact .manual ‹_›
  · exact .full
  · rename_i control max hottest hemergency hmanual
    by_cases hhot : control ≥ settings.hot
    · rw [if_pos hhot]
      exact .full
    by_cases hband : settings.fanMode = .hysteresis
    · rw [if_neg hhot, if_pos hband]
      exact .band hband control
    · rw [if_neg hhot, if_neg hband]
      have hauto : settings.fanMode = .auto := by
        cases hmode : settings.fanMode with
        | auto => rfl
        | hysteresis => exact absurd hmode hband
        | manual => exact absurd hmode hmanual
        | emergency => exact absurd hmode hemergency
      exact .auto hauto control

/-! ### Ticks -/

namespace FanGovernor

/-- Whether the fans have a duty or take it. -/
def Takes (c : FanGovernor) (duty : UInt8) : Prop :=
  c.duty = some duty ∨ (c.fan.set duty).1 = .ok ()

def given (c : FanGovernor) (duty : UInt8) : FanGovernor :=
  if c.duty = some duty then c else { c with fan := (c.fan.set duty).2, duty := some duty }

theorem apply_of_takes {c : FanGovernor} {duty : UInt8} (h : c.Takes duty) :
    c.apply duty = (.ok (), c.given duty) := by
  unfold apply given
  by_cases hsame : c.duty = some duty
  · rw [if_pos hsame, if_pos hsame]
  · rw [if_neg hsame, if_neg hsame]
    have hset := h.resolve_left hsame
    cases hf : c.fan.set duty with
    | mk answer fan =>
      rw [hf] at hset
      obtain rfl : answer = .ok () := hset
      rfl

theorem apply_of_not_takes {c : FanGovernor} {duty : UInt8} (h : ¬c.Takes duty) :
    ∃ cause, c.apply duty = (.error (.output cause), { c with fan := (c.fan.set duty).2 }) := by
  unfold apply
  have hsame : c.duty ≠ some duty := fun hd => h (.inl hd)
  rw [if_neg hsame]
  cases hf : c.fan.set duty with
  | mk answer fan =>
    cases answer with
    | ok u => exact absurd (.inr (congrArg Prod.fst hf)) h
    | error cause => exact ⟨cause, rfl⟩

theorem writes_of_set_ok {fan : FanOutput} {duty : UInt8} (h : (fan.set duty).1 = .ok ()) :
    (fan.set duty).2.writes = (duty, true) :: fan.writes := by
  show (duty, (fan.set duty).1.isOk) :: fan.writes = _
  rw [h]
  rfl

theorem writes_of_not_takes {c : FanGovernor} {duty : UInt8} (h : ¬c.Takes duty) :
    (c.fan.set duty).2.writes = (duty, false) :: c.fan.writes := by
  have hanswer : (c.fan.set duty).1.isOk = false := by
    cases hset : (c.fan.set duty).1 with
    | ok u => exact absurd (.inr hset) h
    | error cause => rfl
  show (duty, (c.fan.set duty).1.isOk) :: c.fan.writes = _
  rw [hanswer]

def carryOut (c : FanGovernor) (decision : Decision) (duty : UInt8) :
    Except FanFault (Option Decision) × FanGovernor :=
  match c.apply duty with
  | (.ok (), c) => (.ok (some decision), c)
  | (.error fault, c) => (.error fault, c)

theorem carryOut_snd (c : FanGovernor) (decision : Decision) (duty : UInt8) :
    (c.carryOut decision duty).2 = (c.apply duty).2 := by
  unfold carryOut
  cases c.apply duty with
  | mk answer after =>
    cases answer with
    | ok u => rfl
    | error fault => rfl

/-- The controller as it decides: with the view of the news and the time of the tick. -/
def deciding (c : FanGovernor) (news : Option View) (now : Nat) : FanGovernor :=
  { c with view := news.getD c.view, lastTick := some now }

theorem tick_cases (c : FanGovernor) (overview : Overview) (now : Nat) :
    (overview.takeNews.1 = none ∧ c.duty ≠ none ∧
        c.tick overview now = (.ok none, c, overview.takeNews.2)) ∨
      ((overview.takeNews.1 ≠ none ∨ c.duty = none) ∧ c.tick overview now =
        (((c.deciding overview.takeNews.1 now).act
            (.decide c.settings (overview.takeNews.1.getD c.view)) now (c.sinceLast now)).1,
          ((c.deciding overview.takeNews.1 now).act
            (.decide c.settings (overview.takeNews.1.getD c.view)) now (c.sinceLast now)).2,
          overview.takeNews.2)) := by
  unfold tick
  obtain ⟨settings, fan, pid, band, view, lastTick, duty, tripped, alarms⟩ := c
  cases overview.takeNews with
  | mk news overview' =>
    cases news with
    | some view => exact .inr ⟨.inl nofun, rfl⟩
    | none =>
      cases duty with
      | none => exact .inr ⟨.inr rfl, rfl⟩
      | some duty => exact .inl ⟨rfl, nofun, rfl⟩

end FanGovernor

end HashBoard.Thermal
