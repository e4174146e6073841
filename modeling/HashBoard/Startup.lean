import HashBoard.Configuration.Environment
import HashBoard.Failure

/-!
# Starting up

What the daemon does before it drives any chain: load the configuration, set the core voltage, look
for the chains. A start ends in a failure, or with the configuration and the chains that were found.
-/

namespace HashBoard.Startup

/-- What starting up needs from the machine. -/
structure Machine where
  environment : Environment
  /-- The text of the file with a name; no name stands for one that is no text. -/
  configText : Option String → Except ConfigurationError String
  /-- Why the voltage regulator cannot be used, if so. -/
  regulatorRefusal : Option String
  comesUp : ChainSettings → Bool

def configCauses (e : ConfigurationError) : List String :=
  match e with
  | .cannotRead _ source => [e.message, source]
  | .parse reason => [e.message, reason]
  | _ => [e.message]

def hardwareCauses (e : Device.DeviceError) : List String :=
  match e with
  | .access _ source => [e.message, source]
  | .request _ source => [e.message, source]
  | .invalidParameter _ => [e.message]

def setVoltage (m : Machine) (c : Configuration) : Except Failure Unit :=
  match c.vidLevel with
  | none => .ok ()
  | some level =>
    (Device.Regulator.apply level m.regulatorRefusal).mapError fun cause =>
      ⟨"failed to set core voltage", hardwareCauses cause⟩

def run (m : Machine) : Except Failure (Configuration × List ChainSettings) := do
  let c ← (Configuration.load m.environment m.configText).mapError fun cause =>
    ⟨"failed to load configuration", configCauses cause⟩
  setVoltage m c
  let found := c.chosenChains.filter m.comesUp
  if found.isEmpty then throw ⟨"no chains detected", []⟩
  return (c, found)

end HashBoard.Startup
