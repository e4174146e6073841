import HashBoard.Device.Error
import HashBoard.Thermal.Band
import HashBoard.Thermal.Alarm
import HashBoard.Thermal.Overview
import HashBoard.Thermal.Pid

/-!
# Fan control

From the view across the chains a decision, from the decision a duty, and the duty to the fans when
it changed. A dangerous temperature runs the fans at full speed and raises an alarm, once.
Times are in milliseconds.
-/

namespace HashBoard.Thermal

def fullDuty : UInt8 := 100

/-! ### Decisions -/

inductive Decision where
  | powerDown (reason : String)
  | usePid (target input : Float32)
  | useFixed (duty : UInt8)
  | useBand (celsius : Float32)
  | nothing

namespace Decision

/-- What is done while fans may be controlled: by mode, with full speed while nothing is known or
the hot threshold is reached. -/
def byMode (settings : Settings) (view : View) : Decision :=
  match settings.fanMode, view with
  | .emergency, _ => useFixed fullDuty
  | .manual, _ => useFixed settings.manualSpeed
  | _, .unknown => useFixed fullDuty
  | mode, .known control _ _ =>
    if control ≥ settings.hot then useFixed fullDuty
    else if mode = .hysteresis then useBand control
    else usePid settings.target control

def isDangerous (settings : Settings) : View → Bool
  | .known _ max _ => settings.isDangerous max
  | .unknown => false

/-- The decision for a view. Danger comes before everything else. -/
def decide (settings : Settings) (view : View) : Decision :=
  if isDangerous settings view then powerDown "temperature dangerous"
  else if settings.pwmChips.isEmpty then nothing
  else byMode settings view

end Decision

/-! ### Outputs -/

structure FanOutput where
  /-- The answer to a duty, given what was asked before. -/
  respond : List (UInt8 × Bool) → UInt8 → Except Device.DeviceError Unit
  writes : List (UInt8 × Bool)

def FanOutput.set (f : FanOutput) (duty : UInt8) : Except Device.DeviceError Unit × FanOutput :=
  let answer := f.respond f.writes duty
  (answer, { f with writes := (duty, answer.isOk) :: f.writes })

/-! ### The controller -/

inductive FanFault where
  | output (cause : Device.DeviceError)
  | integralLimit

structure FanGovernor where
  settings : Settings
  fan : FanOutput
  pid : Pid
  band : Band
  view : View
  lastTick : Option Nat
  /-- The duty last taken by the fans. -/
  duty : Option UInt8
  tripped : Bool
  alarms : List Alarm

namespace FanGovernor

def start (settings : Settings) (fan : FanOutput) : FanGovernor where
  settings := settings
  fan := fan
  pid := .ofGains settings.pid
  band := .high
  view := .unknown
  lastTick := none
  duty := none
  tripped := false
  alarms := []

def apply (c : FanGovernor) (duty : UInt8) : Except FanFault Unit × FanGovernor :=
  if c.duty = some duty then (.ok (), c)
  else
    match c.fan.set duty with
    | (.ok (), fan) => (.ok (), { c with fan := fan, duty := some duty })
    | (.error cause, fan) => (.error (.output cause), { c with fan := fan })

def trip (c : FanGovernor) (reason : String) : FanGovernor :=
  if c.tripped then c
  else
    let event : Alarm := match c.view with
      | .known _ max hottest => { chain := some hottest, max := max, reason := reason }
      | .unknown => { chain := none, max := Float32.ofBits 0x7fc00000, reason := reason }
    { c with tripped := true, alarms := event :: c.alarms }

/-- The lowest duty in force: the higher floor holds for the warm-up. -/
def floor (c : FanGovernor) (now : Nat) : UInt8 :=
  if now < c.settings.warmUpSecs * 1000 then c.settings.warmUpMinDuty else c.settings.minDuty

/-- The nanoseconds since the last step; before the second step the configured interval. -/
def sinceLast (c : FanGovernor) (now : Nat) : Nat :=
  match c.lastTick with
  | some last => (now - last) * 1000000
  | none => c.settings.fanTickMs * 1000000

def act (c : FanGovernor) (decision : Decision) (now ns : Nat) :
    Except FanFault (Option Decision) × FanGovernor :=
  match decision with
  | .nothing => (.ok (some decision), c)
  | .powerDown reason =>
    match c.apply fullDuty with
    | (.ok (), c) => (.ok (some decision), c.trip reason)
    | (.error fault, c) => (.error fault, c)
  | .useFixed duty =>
    match c.apply duty with
    | (.ok (), c) => (.ok (some decision), c)
    | (.error fault, c) => (.error fault, c)
  | .useBand celsius =>
    let band := c.band.next celsius c.settings.band
    match { c with band := band }.apply (band.duty c.settings.band) with
    | (.ok (), c) => (.ok (some decision), c)
    | (.error fault, c) => (.error fault, c)
  | .usePid target input =>
    let pid := c.pid.withLimits (Single.ofNat (c.floor now).toNat) (Single.ofNat fullDuty.toNat)
    match pid.duty? input target ns with
    | none => (.error .integralLimit, { c with pid := pid })
    | some (duty, pid) =>
      match { c with pid := pid }.apply duty with
      | (.ok (), c) => (.ok (some decision), c)
      | (.error fault, c) => (.error fault, c)

/-- One control step. It decides when there is news, and as long as no duty was taken; else it
answers none. -/
def tick (c : FanGovernor) (overview : Overview) (now : Nat) :
    Except FanFault (Option Decision) × FanGovernor × Overview :=
  let (update, overview) := overview.takeNews
  match update, c.duty with
  | none, some _ => (.ok none, c, overview)
  | _, _ =>
    let c := { c with view := update.getD c.view }
    let ns := c.sinceLast now
    let c := { c with lastTick := some now }
    let (answer, c) := c.act (Decision.decide c.settings c.view) now ns
    (answer, c, overview)

def run (stop : FanGovernor → Bool) (now : Nat) :
    Nat → FanGovernor → Overview → FanGovernor × Overview
  | 0, c, overview => (c, overview)
  | steps + 1, c, overview =>
    if stop c then (c, overview)
    else
      let (_, c, overview) := c.tick overview now
      run stop now steps c overview

end FanGovernor

end HashBoard.Thermal
