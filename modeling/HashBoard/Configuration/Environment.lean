import HashBoard.Configuration.Decode

/-!
# The environment

Variables that override the configuration, and the way from variables and file to a configuration
that is known to be valid.
-/

namespace HashBoard

structure Environment where
  settings : List (String × Option String)

namespace Environment

/-- An environment in a JSON value: the value of each variable is a text, or an object with its
bytes in hexadecimal, which may be no text. -/
def decode? : Json → Option Environment
  | .obj members => do
    let named ← Json.decodeMembers? members
    return ⟨← named.mapM fun (name, value) => do
      match value.text? with
      | some text => return (name, some text)
      | none => return (name, String.fromUTF8? ⟨(← value.required? Json.bytes? "hex").toArray⟩)⟩
  | _ => none

def isSet (e : Environment) (name : String) : Bool := e.settings.any fun v => v.1 == name

def text? (e : Environment) (name : String) : Option String :=
  (e.settings.find? fun v => v.1 == name).bind Prod.snd

def value? {α : Type} (e : Environment) (name : String) (read : String → Except String α) :
    Except ConfigurationError (Option α) :=
  match e.text? name with
  | none => .ok none
  | some text =>
    match read (Text.trim text) with
    | .ok value => .ok (some value)
    | .error reason => .error (.variable name text reason)

/-! ### Readers of values -/

def readNat (bound : Nat) (text : String) : Except String Nat :=
  (Decimal.readWhole 10 bound text.toList).mapError Decimal.WholeError.message

def readChains (text : String) : Except String ChainSet :=
  (ChainSet.ofText text).mapError Decimal.WholeError.message

def readMode (text : String) : Except String Thermal.FanMode :=
  match Thermal.FanMode.ofText? text with
  | some mode => .ok mode
  | none => .error "Matching variant not found"

def readSingle (text : String) : Except String Float32 :=
  match Decimal.Literal.read text.toList with
  | .ok literal => .ok literal.toSingle
  | .error cause => .error cause.message

end Environment

namespace Configuration

def override? {α : Type} (c : Configuration) (value : Option α)
    (f : Configuration → α → Configuration) : Configuration :=
  match value with
  | some x => f c x
  | none => c

/-- Set the clock of every chain, whatever is set for it alone. -/
def setClock (c : Configuration) (mhz : UInt32) : Configuration :=
  { c with
    targetMhz := mhz
    chains := c.chains.map fun (id, own) => (id, { own with targetMhz := none }) }

/-- Override the configuration by the variables. A fan speed without a fan mode that is a text
means manual mode. -/
def applyEnvironment (c : Configuration) (e : Environment) :
    Except ConfigurationError Configuration := do
  let mask ← e.value? "MUJINA_CHAIN_MASK" Environment.readChains
  let c := c.override? mask fun c m => { c with chainSet := m }
  let c := c.override? (e.text? "MUJINA_CHIP_GENERATION") fun c g => { c with generation := g }
  let mhz ← e.value? "MUJINA_PLL_MHZ" (Environment.readNat 0xffffffff)
  let c := c.override? mhz fun c n => c.setClock (UInt32.ofNat n)
  let level ← e.value? "MUJINA_VID_LEVEL" (Environment.readNat 255)
  let c := c.override? level fun c n => { c with vidLevel := some (UInt8.ofNat n) }
  let hz ← e.value? "MUJINA_SPI_SPEED_HZ" (Environment.readNat 0xffffffff)
  let c := c.override? hz fun c n => { c with spiSpeedHz := some (UInt32.ofNat n) }
  let limit ← e.value? "MUJINA_CHIP_LIMIT" (Environment.readNat 0xffffffffffffffff)
  let c := c.override? limit fun c n => { c with chipLimit := some n }
  let mode ← e.value? "MUJINA_FAN_MODE" Environment.readMode
  let c := c.override? mode fun c m => { c with thermal := { c.thermal with fanMode := m } }
  let speed ← e.value? "MUJINA_FAN_SPEED" (Environment.readNat 255)
  let c := c.override? speed fun c n =>
    let mode := if (e.text? "MUJINA_FAN_MODE").isSome then c.thermal.fanMode else .manual
    { c with thermal := { c.thermal with manualSpeed := UInt8.ofNat n, fanMode := mode } }
  let target ← e.value? "MUJINA_TARGET_TEMP" Environment.readSingle
  return c.override? target fun c t => { c with thermal := { c.thermal with target := t } }

def pathVariable : String := "MUJINA_CHAIN_CONFIG"

def variableNames : List String :=
  [pathVariable, "MUJINA_CHAIN_MASK", "MUJINA_CHIP_GENERATION", "MUJINA_PLL_MHZ",
   "MUJINA_VID_LEVEL", "MUJINA_SPI_SPEED_HZ", "MUJINA_CHIP_LIMIT", "MUJINA_FAN_MODE",
   "MUJINA_FAN_SPEED", "MUJINA_TARGET_TEMP"]

def load (e : Environment) (readFile : Option String → Except ConfigurationError String) :
    Except ConfigurationError Configuration := do
  let c ←
    if e.isSet pathVariable then do
      let text ← readFile (e.text? pathVariable)
      ofJsonText text
    else pure standard
  let c ← c.applyEnvironment e
  c.check
  return c

end Configuration

end HashBoard
