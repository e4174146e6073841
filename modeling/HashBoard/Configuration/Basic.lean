import HashBoard.Chain.Basic
import HashBoard.Configuration.ChainSet
import HashBoard.Decimal.Shortest
import HashBoard.Device.ControlLines
import HashBoard.Device.Regulator
import HashBoard.Device.Spi
import HashBoard.Text.Quoted
import HashBoard.Thermal.Settings

/-!
# Configuration

What the daemon is told: which chains to drive and how, and what follows from it for one chain. A
chain falls back to the stock wiring and to the common settings for what is not set for it alone.
-/

namespace HashBoard

/-! ### Errors -/

inductive ConfigurationError where
  | cannotRead (path source : String)
  | parse (reason : String)
  | variable (name value reason : String)
  | unknownGeneration (name known : String)
  | chipLimit (limit : Nat)
  | fanSpeed (duty : UInt8)
  | vidLevel (level : UInt8)
  | thresholds (target hot danger : Float32)

def ConfigurationError.message : ConfigurationError → String
  | .cannotRead path source => s!"failed to read {path}: {source}"
  | .parse reason => s!"failed to parse configuration: {reason}"
  | .variable name value reason => s!"invalid {name}={Text.quoted value}: {reason}"
  | .unknownGeneration name known =>
    s!"unknown chip generation {Text.quoted name}, expected one of {known}"
  | .chipLimit limit =>
    s!"chip limit {limit} exceeds the {Wire.longestChain} chips a chain can address"
  | .fanSpeed duty => s!"fan speed {duty.toNat}% is above 100%"
  | .vidLevel level =>
    s!"VID level {level.toNat} is above {Device.Regulator.maxLevel.toNat}"
  | .thresholds target hot danger =>
    let t := Decimal.plain target
    let h := Decimal.plain hot
    let d := Decimal.plain danger
    s!"temperature thresholds must rise: target {t}°C, hot {h}°C, danger {d}°C"

/-! ### Parts -/

structure SettleTimes where
  afterResetMs : Nat
  afterBistMs : Nat
  afterPllMs : Nat
  deriving DecidableEq

def SettleTimes.standard : SettleTimes := ⟨1000, 1000, 1000⟩

structure OwnSettings where
  spi : Option Device.SpiSettings
  pins : Option Device.ControlLines
  targetMhz : Option UInt32
  deriving DecidableEq

def OwnSettings.none : OwnSettings := ⟨.none, .none, .none⟩

structure ChainSettings where
  id : UInt8
  spi : Device.SpiSettings
  pins : Device.ControlLines
  targetMhz : UInt32
  deriving DecidableEq

/-! ### The configuration -/

structure Configuration where
  generation : String
  chainSet : ChainSet
  /-- The clock for chains that have none of their own. -/
  targetMhz : UInt32
  vidLevel : Option UInt8
  spiSpeedHz : Option UInt32
  chipLimit : Option Nat
  chains : List (UInt8 × OwnSettings)
  pollTimeoutMs : Nat
  pollMaxBytes : Option Nat
  detect : SettleTimes
  resetQueuesOnReclaim : Bool
  idleSleepMs : Nat
  summaryIntervalSecs : Nat
  cooldownSecs : Nat
  disableThreshold : Nat
  thermal : Thermal.Settings

namespace Configuration

def standard : Configuration where
  generation := "a6"
  chainSet := .standard
  targetMhz := 1000
  vidLevel := none
  spiSpeedHz := none
  chipLimit := none
  chains := []
  pollTimeoutMs := 100
  pollMaxBytes := none
  detect := .standard
  resetQueuesOnReclaim := true
  idleSleepMs := 10
  summaryIntervalSecs := 60
  cooldownSecs := 30
  disableThreshold := 4
  thermal := .standard

/-! ### What follows for a chain -/

def ownSettings (c : Configuration) (id : UInt8) : OwnSettings :=
  ((c.chains.find? fun entry => entry.1 == id).map Prod.snd).getD .none

def chain (c : Configuration) (id : UInt8) : ChainSettings :=
  let own := c.ownSettings id
  let spi := own.spi.getD { Device.SpiSettings.standard with bus := id }
  { id := id
    spi := { spi with speedHz := c.spiSpeedHz.getD spi.speedHz }
    pins := own.pins.getD (.stock id)
    targetMhz := own.targetMhz.getD c.targetMhz }

def chosenChains (c : Configuration) : List ChainSettings := c.chainSet.chains.map c.chain

def knownGeneration (c : Configuration) : Except ConfigurationError Generation :=
  match Generation.find? c.generation with
  | some g => .ok g
  | none => .error (.unknownGeneration c.generation (", ".intercalate Generation.names))

def pollLimits (c : Configuration) (g : Generation) : Bus.PollLimits where
  maxBytes := c.pollMaxBytes.getD g.pollBytes
  timeout := c.pollTimeoutMs

def detectionSettings (c : Configuration) (chain : ChainSettings) : DetectionSettings where
  targetMhz := chain.targetMhz
  chipLimit := c.chipLimit

def drivingOptions (c : Configuration) : DrivingOptions :=
  { DrivingOptions.standard with
    tolerance := { cooldown := c.cooldownSecs * 1000, disableThreshold := c.disableThreshold }
    resetQueuesOnReclaim := c.resetQueuesOnReclaim }

def schedule (c : Configuration) : Thermal.Schedule :=
  .start (c.thermal.fullSampleSecs * 1000) (c.thermal.quickSampleSecs * 1000) c.thermal.trim

/-! ### Validation -/

/-- The duties that have to be at most 100 percent, in the order in which they are checked. -/
def duties (t : Thermal.Settings) : List UInt8 :=
  [t.manualSpeed, t.minDuty, t.warmUpMinDuty, t.band.highDuty, t.band.lowDuty]

/-- Check the configuration: generation, chip limit, duties, voltage level, thresholds. -/
def check (c : Configuration) : Except ConfigurationError Unit := do
  discard c.knownGeneration
  match c.chipLimit with
  | some limit => if Wire.longestChain < limit then throw (.chipLimit limit)
  | none => pure ()
  match (duties c.thermal).find? fun duty => 100 < duty with
  | some duty => throw (.fanSpeed duty)
  | none => pure ()
  match c.vidLevel with
  | some level => if Device.Regulator.maxLevel < level then throw (.vidLevel level)
  | none => pure ()
  let t := c.thermal
  if t.target ≥ t.hot || t.hot ≥ t.danger then throw (.thresholds t.target t.hot t.danger)

end Configuration

end HashBoard
