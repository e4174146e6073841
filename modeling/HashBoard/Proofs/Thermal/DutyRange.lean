import HashBoard.Proofs.Configuration.Accepted
import HashBoard.Proofs.Single.Ranges
import HashBoard.Proofs.Thermal.FanRefusals

/-!
# Duties within their limits

A controller whose integral limit is a number answers every call, and with a duty between its
limits: of a NaN the maximum keeps the lower limit, and when the limits are crossed the upper one
wins. So under an accepted configuration no fan is asked for more than full speed, and in the
automatic mode for less than the floor in force.
-/

namespace HashBoard.Thermal

/-! ### The arithmetic -/

/-- A call of the controller; the limits are percentages. -/
inductive PidCall where
  | limits (lo hi : Fin 101)
  | duty (input target : Float32) (ns : Nat)
  | reset

namespace Pid

variable {p p' : Pid} {lo hi : Fin 101}

/-- The duties that the calls are answered with; none when one of them fails. -/
def serve? (p : Pid) : List PidCall → Option (List UInt8 × Pid)
  | [] => some ([], p)
  | .limits lo hi :: rest => (p.withLimits (Single.ofNat lo) (Single.ofNat hi)).serve? rest
  | .duty input target ns :: rest => do
    let (duty, p) ← p.duty? input target ns
    let (duties, p) ← p.serve? rest
    return (duty :: duties, p)
  | .reset :: rest => p.reset.serve? rest

/-- The limits in force at each call for a duty. -/
def limitsAt (limits : Fin 101 × Fin 101) : List PidCall → List (Fin 101 × Fin 101)
  | [] => []
  | .limits lo hi :: rest => limitsAt (lo, hi) rest
  | .duty _ _ _ :: rest => limits :: limitsAt limits rest
  | .reset :: rest => limitsAt limits rest

/-- Between the lower limit, or the upper one where that is less, and the upper one. -/
def Within (limits : Fin 101 × Fin 101) (duty : UInt8) : Prop :=
  Min.min (limits.1 : Nat) limits.2 ≤ duty.toNat ∧ duty.toNat ≤ limits.2

/-- A controller that cannot fail, with these limits. -/
structure Limited (p : Pid) (lo hi : Fin 101) : Prop where
  integral : p.gains.integralLimit.isNaN = false
  lower : p.outputMin = Single.ofNat lo
  upper : p.outputMax = Single.ofNat hi

theorem limited_withLimits (h : p.gains.integralLimit.isNaN = false) (lo hi : Fin 101) :
    (p.withLimits (Single.ofNat lo) (Single.ofNat hi)).Limited lo hi :=
  ⟨h, rfl, rfl⟩

theorem integrate?_of_number (h : p.gains.integralLimit.isNaN = false) (error seconds : Float32) :
    ∃ integral, p.integrate? error seconds = some integral :=
  Single.clamp?_of_le _ (Single.neg_abs_le_abs h)

/-- An update changes the integral and the last error only. -/
theorem update?_eq_some {error output : Float32} {ns : Nat} {freeze : Bool}
    (h : p.update? error ns freeze = some (output, p')) :
    ∃ integral lastError, p' = { p with integral, lastError } := by
  obtain ⟨integral, _, hafter⟩ := Option.map_eq_some_iff.1 h
  exact ⟨integral, some error, (congrArg Prod.snd hafter).symm⟩

theorem update?_of_number (h : p.gains.integralLimit.isNaN = false) (error : Float32) (ns : Nat)
    (freeze : Bool) : ∃ output p', p.update? error ns freeze = some (output, p') := by
  unfold update?
  cases freeze with
  | true => exact ⟨_, _, rfl⟩
  | false =>
    obtain ⟨integral, hintegral⟩ := integrate?_of_number h error (Single.seconds ns)
    simp only [Bool.false_eq_true, if_false, hintegral]
    exact ⟨_, _, rfl⟩

theorem within_limit (hlower : p.outputMin = Single.ofNat lo)
    (hupper : p.outputMax = Single.ofNat hi) (output : Float32) :
    Within (lo, hi) (p.limit output) := by
  unfold limit
  rw [hlower, hupper]
  exact Single.roundToByte_limited output (by omega) (by omega)

theorem within_of_duty? {input target : Float32} {ns : Nat} {duty : UInt8}
    (hlower : p.outputMin = Single.ofNat lo) (hupper : p.outputMax = Single.ofNat hi)
    (h : p.duty? input target ns = some (duty, p')) : Within (lo, hi) duty := by
  obtain ⟨⟨output, after⟩, hupdate, hafter⟩ := Option.map_eq_some_iff.1 h
  obtain ⟨integral, lastError, rfl⟩ := update?_eq_some hupdate
  obtain rfl := congrArg Prod.fst hafter
  exact within_limit hlower hupper output

/-- A duty changes the integral and the last error only. -/
theorem duty?_of_number (h : p.gains.integralLimit.isNaN = false) (input target : Float32)
    (ns : Nat) : ∃ duty integral lastError,
      p.duty? input target ns = some (duty, { p with integral, lastError }) := by
  obtain ⟨output, p', hupdate⟩ := update?_of_number h (input - target) ns
    (p.saturated (input - target))
  obtain ⟨integral, lastError, rfl⟩ := update?_eq_some hupdate
  refine ⟨limit { p with integral, lastError } output, integral, lastError, ?_⟩
  unfold duty?
  dsimp only
  rw [hupdate]
  rfl

theorem Limited.duty? (h : p.Limited lo hi) (input target : Float32) (ns : Nat) :
    ∃ duty p', p.duty? input target ns = some (duty, p') ∧ p'.Limited lo hi ∧
      Within (lo, hi) duty := by
  obtain ⟨duty, integral, lastError, hduty⟩ := duty?_of_number h.integral input target ns
  exact ⟨duty, _, hduty, ⟨h.integral, h.lower, h.upper⟩, within_of_duty? h.lower h.upper hduty⟩

theorem Limited.serve? (h : p.Limited lo hi) (calls : List PidCall) :
    ∃ duties p', p.serve? calls = some (duties, p') ∧
      List.Forall₂ Within (limitsAt (lo, hi) calls) duties := by
  -- A call may set other limits, so those in force vary along the history.
  induction calls generalizing p lo hi with
  | nil => exact ⟨[], p, rfl, .nil⟩
  | cons call rest ih =>
    cases call with
    | limits lo' hi' => exact ih (limited_withLimits h.integral lo' hi')
    | reset =>
      have hreset : p.reset.Limited lo hi := ⟨h.integral, h.lower, h.upper⟩
      exact ih hreset
    | duty input target ns =>
      obtain ⟨duty, after, hduty, hafter, hwithin⟩ := h.duty? input target ns
      obtain ⟨duties, p', hrest, hall⟩ := ih hafter
      refine ⟨duty :: duties, p', ?_, .cons hwithin hall⟩
      rw [Pid.serve?, hduty]
      show (after.serve? rest).bind _ = _
      rw [hrest]
      rfl

end Pid

/-! ### Ticks -/

namespace FanGovernor

variable {c : FanGovernor} {decision : Decision} {duty : UInt8} {now ns : Nat}

/-- A decision is written to the fans at most once, and with its duty. -/
theorem writes_act (c : FanGovernor) (decision : Decision) (now ns : Nat) :
    ∃ written, (c.act decision now ns).2.fan.writes = written ++ c.fan.writes ∧
      ∀ write ∈ written, c.dutyFor decision now ns = some write.1 := by
  cases hduty : c.dutyFor decision now ns with
  | none =>
    rw [(act_of_dutyFor_eq_none hduty).2.2]
    exact ⟨[], rfl, nofun⟩
  | some duty =>
    obtain ⟨pid, band, _, _, hfan⟩ := act_of_dutyFor hduty
    rw [hfan]
    by_cases htakes : Takes { c with pid, band } duty
    · rw [apply_of_takes htakes, given]
      split
      · exact ⟨[], rfl, nofun⟩
      · rename_i hother
        refine ⟨[(duty, true)], writes_of_set_ok (htakes.resolve_left hother), ?_⟩
        intro write hwrite
        rw [List.mem_singleton.1 hwrite]
    · obtain ⟨_, happly⟩ := apply_of_not_takes htakes
      rw [happly]
      refine ⟨[(duty, false)], writes_of_not_takes htakes, ?_⟩
      intro write hwrite
      rw [List.mem_singleton.1 hwrite]

theorem floor_le (h : ∀ duty ∈ Configuration.duties c.settings, duty ≤ 100) (now : Nat) :
    c.floor now ≤ 100 := by
  unfold floor
  split
  · exact h _ (by simp [Configuration.duties])
  · exact h _ (by simp [Configuration.duties])

/-- Settings with duties up to full speed ask for such duties only, and in the automatic mode for
none below the floor. -/
theorem dutyFor_within (h : ∀ duty ∈ Configuration.duties c.settings, duty ≤ 100) {view : View}
    (hduty : c.dutyFor (.decide c.settings view) now ns = some duty) :
    duty ≤ 100 ∧ (c.settings.fanMode = .auto → c.floor now ≤ duty) := by
  have hfloor := floor_le h now
  have hwarranted := Decision.decide_warranted c.settings view
  generalize Decision.decide c.settings view = decision at hduty hwarranted
  cases hwarranted with
  | danger _ =>
    obtain rfl := Option.some.inj hduty
    exact ⟨UInt8.le_refl _, fun _ => hfloor⟩
  | noFans => cases hduty
  | full =>
    obtain rfl := Option.some.inj hduty
    exact ⟨UInt8.le_refl _, fun _ => hfloor⟩
  | manual hmode =>
    obtain rfl := Option.some.inj hduty
    refine ⟨h _ (by simp [Configuration.duties]), ?_⟩
    rw [hmode]
    nofun
  | band hmode celsius =>
    obtain rfl := Option.some.inj hduty
    refine ⟨?_, ?_⟩
    · unfold Band.duty
      split
      · exact h _ (by simp [Configuration.duties])
      · exact h _ (by simp [Configuration.duties])
    · rw [hmode]
      nofun
  | auto hmode celsius =>
    -- The closed loop is limited from the floor to full speed, and the floor is not above that.
    obtain ⟨⟨found, pid⟩, hfound, rfl⟩ := Option.map_eq_some_iff.1 hduty
    have hpercent : (c.floor now).toNat < 101 := Nat.lt_succ_of_le hfloor
    have hwithin : Pid.Within (⟨_, hpercent⟩, 100) found := Pid.within_of_duty? rfl rfl hfound
    have hleast : Min.min (c.floor now).toNat 100 = (c.floor now).toNat := Nat.min_eq_left hfloor
    exact ⟨hwithin.2, fun _ => Nat.le_trans (Nat.le_of_eq hleast.symm) hwithin.1⟩

/-- A decision leaves the gains as they are, and fails only at the fans. -/
theorem carryOut_spec (c : FanGovernor) (decision : Decision) (duty : UInt8) :
    (c.carryOut decision duty).1 ≠ .error .integralLimit ∧
      (c.carryOut decision duty).2.pid = c.pid := by
  unfold carryOut
  by_cases htakes : c.Takes duty
  · rw [apply_of_takes htakes]
    refine ⟨nofun, ?_⟩
    show (c.given duty).pid = c.pid
    unfold given
    split <;> rfl
  · obtain ⟨_, happly⟩ := apply_of_not_takes htakes
    rw [happly]
    exact ⟨nofun, rfl⟩

theorem act_of_number (h : c.pid.gains.integralLimit.isNaN = false) (decision : Decision)
    (now ns : Nat) : (c.act decision now ns).1 ≠ .error .integralLimit ∧
      (c.act decision now ns).2.pid.gains = c.pid.gains := by
  cases decision with
  | nothing => exact ⟨nofun, rfl⟩
  | powerDown reason =>
    have htrip (after : FanGovernor) : (after.trip reason).pid = after.pid := by
      unfold trip
      split <;> rfl
    obtain ⟨hanswer, hpid⟩ := c.carryOut_spec (.powerDown reason) fullDuty
    unfold carryOut at hanswer hpid
    unfold act
    cases happly : c.apply fullDuty with
    | mk answer after =>
      rw [happly] at hanswer hpid
      cases answer with
      | ok u => exact ⟨nofun, congrArg Pid.gains ((htrip after).trans hpid)⟩
      | error fault => exact ⟨hanswer, congrArg Pid.gains hpid⟩
  | useFixed duty =>
    obtain ⟨hanswer, hpid⟩ := c.carryOut_spec (.useFixed duty) duty
    exact ⟨hanswer, congrArg Pid.gains hpid⟩
  | useBand celsius =>
    obtain ⟨hanswer, hpid⟩ := carryOut_spec
      { c with band := c.band.next celsius c.settings.band } (.useBand celsius) _
    exact ⟨hanswer, congrArg Pid.gains hpid⟩
  | usePid target input =>
    let limited := c.pid.withLimits (Single.ofNat (c.floor now).toNat)
      (Single.ofNat fullDuty.toNat)
    obtain ⟨duty, integral, lastError, hduty⟩ := limited.duty?_of_number h input target ns
    obtain ⟨hanswer, hpid⟩ := carryOut_spec { c with pid := { limited with integral, lastError } }
      (.usePid target input) duty
    have hact : c.act (.usePid target input) now ns =
        carryOut { c with pid := { limited with integral, lastError } } (.usePid target input)
          duty := by
      unfold act
      simp only [limited] at hduty
      simp only [hduty]
      rfl
    rw [hact, hpid]
    exact ⟨hanswer, rfl⟩

end FanGovernor

/-! ### Runs -/

namespace FanSystem

theorem writes_after (s : FanSystem) (event : FanEvent) :
    ∃ written, (s.after event).governor.fan.writes = written ++ s.governor.fan.writes ∧
      ∀ write ∈ written, ∃ now, event = .tick now ∧ s.wanted? now = some write.1 := by
  cases event with
  | register chain => exact ⟨[], rfl, nofun⟩
  | publish chain stats => exact ⟨[], rfl, nofun⟩
  | disable chain => exact ⟨[], rfl, nofun⟩
  | tick now =>
    have hafter : (s.after (.tick now)).governor = (s.governor.tick s.overview now).2.1 := rfl
    rw [hafter]
    by_cases hdecides : s.Decides
    · rw [tick_of_decides hdecides]
      obtain ⟨written, hwrites, hwanted⟩ := FanGovernor.writes_act
        (s.governor.deciding s.overview.takeNews.1 now)
        (.decide s.governor.settings s.seen) now (s.governor.sinceLast now)
      exact ⟨written, hwrites, fun write hwrite => ⟨now, rfl, hwanted write hwrite⟩⟩
    · rw [tick_of_not_decides hdecides]
      exact ⟨[], rfl, nofun⟩

theorem within_of_wanted? {s : FanSystem}
    (h : ∀ duty ∈ Configuration.duties s.governor.settings, duty ≤ 100) {now : Nat} {duty : UInt8}
    (hwanted : s.wanted? now = some duty) :
    duty ≤ fullDuty ∧ (s.governor.settings.fanMode = .auto → s.governor.floor now ≤ duty) :=
  (s.governor.deciding s.overview.takeNews.1 now).dutyFor_within h hwanted

theorem tick_of_number {s : FanSystem} (h : s.governor.pid.gains.integralLimit.isNaN = false)
    (now : Nat) : (s.governor.tick s.overview now).1 ≠ .error .integralLimit ∧
      (s.governor.tick s.overview now).2.1.pid.gains = s.governor.pid.gains := by
  by_cases hdecides : s.Decides
  · rw [tick_of_decides hdecides]
    have hdeciding : (s.governor.deciding s.overview.takeNews.1 now).pid.gains.integralLimit.isNaN =
        false := h
    exact FanGovernor.act_of_number hdeciding _ now _
  · rw [tick_of_not_decides hdecides]
    exact ⟨nofun, rfl⟩

theorem gains_run {s : FanSystem} (h : s.governor.pid.gains.integralLimit.isNaN = false)
    (events : List FanEvent) : (s.run events).governor.pid.gains = s.governor.pid.gains := by
  refine run_induction (fun t => t.governor.pid.gains = s.governor.pid.gains) ?_ events rfl
  intro t event ht
  cases event with
  | register chain => exact ht
  | publish chain stats => exact ht
  | disable chain => exact ht
  | tick now => exact (tick_of_number (ht ▸ h) now).2.trans ht

end FanSystem

/-- A controller of any gains, in any state, answers every history of calls, and each with a duty
within the limits in force, as long as its integral limit is a number. In every run under an
accepted configuration what a tick writes to the fans is at most full speed and, in the automatic
mode, at least the floor in force; with an integral limit that is a number no tick fails on it. -/
theorem duties_within_limits :
    (∀ (p : Pid) (lo hi : Fin 101) (calls : List PidCall),
      p.gains.integralLimit.isNaN = false →
        ∃ duties after, (p.withLimits (Single.ofNat lo) (Single.ofNat hi)).serve? calls =
            some (duties, after) ∧
          List.Forall₂ Pid.Within (Pid.limitsAt (lo, hi) calls) duties) ∧
    ∀ (c : Configuration) (fan : FanOutput) (overview : Overview) (events : List FanEvent),
      c.check = .ok () →
        let s := FanSystem.run ⟨.start c.thermal fan, overview⟩ events
        (∀ event, ∃ written,
          (s.after event).governor.fan.writes = written ++ s.governor.fan.writes ∧
            ∀ write ∈ written, write.1 ≤ fullDuty ∧ ∃ now, event = .tick now ∧
              (c.thermal.fanMode = .auto → s.governor.floor now ≤ write.1)) ∧
          (c.thermal.pid.integralLimit.isNaN = false →
            ∀ now, (s.governor.tick s.overview now).1 ≠ .error .integralLimit) := by
  refine ⟨fun p lo hi calls h => (Pid.limited_withLimits h lo hi).serve? calls, ?_⟩
  intro c fan overview events hcheck s
  have hsettings : s.governor.settings = c.thermal := FanSystem.settings_run _ events
  have hduties := (Configuration.bounded_of_check hcheck).duties
  constructor
  · intro event
    obtain ⟨written, hwrites, hwanted⟩ := s.writes_after event
    refine ⟨written, hwrites, ?_⟩
    intro write hwrite
    obtain ⟨now, rfl, hduty⟩ := hwanted write hwrite
    rw [← hsettings] at hduties ⊢
    obtain ⟨hfull, hfloor⟩ := FanSystem.within_of_wanted? hduties hduty
    exact ⟨hfull, now, rfl, hfloor⟩
  · intro hnumber now
    let start : FanSystem := ⟨.start c.thermal fan, overview⟩
    have hstart : start.governor.pid.gains.integralLimit.isNaN = false := hnumber
    have hgains := FanSystem.gains_run hstart events
    rw [← hgains] at hstart
    exact (FanSystem.tick_of_number hstart now).1

/-- Fans that take every duty, and a cold chain that has reported. -/
def coldAtStart : FanSystem :=
  FanSystem.run ⟨.start Configuration.standard.thermal ⟨fun _ _ => .ok (), []⟩, .empty⟩
    [.register 3, .publish 3 ⟨20, 20, 20, 20, 1⟩]

/-- A reading that is no number gives the upper limit of two that are crossed. A chain that is cold
in the warm-up gets the higher floor, which is 60. -/
theorem duties_within_limits_of_cold_chain :
    (∃ duty after, ((Pid.ofGains .standard).withLimits (Single.ofNat 80) (Single.ofNat 60)).serve?
        [.duty (Float32.ofBits 0x7fc00000) 75 1000000000] = some ([duty], after) ∧
      duty.toNat = 60) ∧
    (coldAtStart.after (.tick 0)).governor.fan.writes = [(60, true)] ∧
      coldAtStart.governor.floor 0 ≤ 60 := by
  obtain ⟨hserve, hwrite⟩ := duties_within_limits
  constructor
  · obtain ⟨duties, after, hduties, hall⟩ := hserve (.ofGains .standard) 80 60
      [.duty (Float32.ofBits 0x7fc00000) 75 1000000000] (by decide +kernel)
    obtain ⟨duty, rest, hwithin, hrest, rfl⟩ := List.forall₂_cons_left_iff.1 hall
    obtain rfl := List.forall₂_nil_left_iff.1 hrest
    exact ⟨duty, after, hduties, Nat.le_antisymm hwithin.2 hwithin.1⟩
  · have hduty : (coldAtStart.after (.tick 0)).governor.fan.writes = [(60, true)] := by
      decide +kernel
    refine ⟨hduty, ?_⟩
    have hcheck : Configuration.standard.check = .ok () :=
      (Configuration.check_eq_ok_iff _).2
        ⟨⟨Option.isSome_iff_exists.1 (by decide +kernel), nofun, by decide +kernel, nofun⟩,
          by decide +kernel, by decide +kernel⟩
    obtain ⟨hwritten, _⟩ := hwrite Configuration.standard ⟨fun _ _ => .ok (), []⟩ .empty
      [.register 3, .publish 3 ⟨20, 20, 20, 20, 1⟩] hcheck
    obtain ⟨written, hwrites, hwithin⟩ := hwritten (.tick 0)
    have hmem : (60, true) ∈ written := by
      have hnone : coldAtStart.governor.fan.writes = [] := rfl
      change (coldAtStart.after (.tick 0)).governor.fan.writes =
        written ++ coldAtStart.governor.fan.writes at hwrites
      rw [hduty, hnone, List.append_nil] at hwrites
      rw [← hwrites]
      exact List.mem_singleton_self _
    obtain ⟨_, now, hnow, hfloor⟩ := hwithin _ hmem
    obtain rfl : 0 = now := FanEvent.tick.inj hnow
    exact hfloor rfl

end HashBoard.Thermal
