import HashBoard.Device.Error
import HashBoard.Device.Files
import HashBoard.Text.Blank
import HashBoard.Text.Quoted

/-!
# Pins

The lines by which a controller reaches its boards. Anything that can claim, set up, drive and read
numbered pins will do. Here are two of them: the tree of attribute files by which the kernel offers
pins, and a panel that answers as it is told and keeps a record.
-/

namespace HashBoard.Device

/-! ### Pins in general -/

inductive PinLevel where
  | low | high
  deriving DecidableEq

def PinLevel.ofBool : Bool → PinLevel
  | true => high
  | false => low

def PinLevel.name : PinLevel → String
  | low => "Low"
  | high => "High"

inductive PinDirection where
  | input | output
  deriving DecidableEq

def PinDirection.name : PinDirection → String
  | input => "Input"
  | output => "Output"

abbrev PinTask (γ α : Type) := ExceptT DeviceError (StateM γ) α

def PinTask.runOn {γ α : Type} (task : PinTask γ α) (pins : γ) : Except DeviceError α × γ :=
  StateT.run (ExceptT.run task) pins

class PinAccess (γ : Type) where
  claim : UInt32 → PinTask γ Unit
  setDirection : UInt32 → PinDirection → PinTask γ Unit
  drive : UInt32 → PinLevel → PinTask γ Unit
  sense : UInt32 → PinTask γ PinLevel

/-! ### Pins behind attribute files -/

structure PinFiles where
  files : Files

namespace PinFiles

def directory (pin : UInt32) : String := s!"gpio{pin.toNat}"

def writeAttribute (path : NodePath) (text : String) : PinTask PinFiles Unit := do
  let pins ← get
  match pins.files.write path text with
  | .ok files => set (⟨files⟩ : PinFiles)
  | .error cause => throw (.access path.text cause.message)

def claim (pin : UInt32) : PinTask PinFiles Unit := do
  let pins ← get
  if pins.files.isThere [directory pin] then return ()
  else writeAttribute ["export"] (toString pin.toNat)

def setDirection (pin : UInt32) (mode : PinDirection) : PinTask PinFiles Unit :=
  writeAttribute [directory pin, "direction"] (match mode with
    | .input => "in"
    | .output => "out")

def drive (pin : UInt32) (level : PinLevel) : PinTask PinFiles Unit :=
  writeAttribute [directory pin, "value"] (match level with
    | .high => "1"
    | .low => "0")

def levelOf (pin : UInt32) (text : String) : Except DeviceError PinLevel :=
  let value := Text.trim text
  if value = "0" then .ok .low
  else if value = "1" then .ok .high
  else .error (.invalidParameter s!"{directory pin} value {Text.quoted value}")

def sense (pin : UInt32) : PinTask PinFiles PinLevel := do
  let pins ← get
  let path := [directory pin, "value"]
  match pins.files.read path with
  | .error cause => throw (.access (NodePath.text path) cause.message)
  | .ok text =>
    match levelOf pin text with
    | .ok level => return level
    | .error cause => throw cause

instance : PinAccess PinFiles where
  claim := claim
  setDirection := setDirection
  drive := drive
  sense := sense

end PinFiles

/-! ### A panel of pins -/

inductive PinAction where
  | claim (pin : UInt32)
  | setDirection (pin : UInt32) (mode : PinDirection)
  | drive (pin : UInt32) (level : PinLevel)
  | sense (pin : UInt32)
  deriving DecidableEq

def PinAction.text : PinAction → String
  | claim pin => s!"{pin.toNat} open"
  | setDirection pin mode => s!"{pin.toNat} mode {mode.name}"
  | drive pin level => s!"{pin.toNat} write {level.name}"
  | sense pin => s!"{pin.toNat} read"

structure PinPanel where
  /-- Why an action fails, if it does. -/
  refusal : PinAction → Option DeviceError
  shows : UInt32 → PinLevel
  actions : List PinAction

namespace PinPanel

/-- A panel on which the actions of some texts fail and some pins are high. -/
def withFaults (faults : List String) (high : List UInt32) : PinPanel where
  refusal action :=
    if action.text ∈ faults then some (.invalidParameter s!"injected {action.text}") else none
  shows pin := .ofBool (decide (pin ∈ high))
  actions := []

def note (action : PinAction) : PinTask PinPanel Unit := do
  let panel ← get
  set { panel with actions := action :: panel.actions }
  match panel.refusal action with
  | some cause => throw cause
  | none => return ()

instance : PinAccess PinPanel where
  claim pin := note (.claim pin)
  setDirection pin mode := note (.setDirection pin mode)
  drive pin level := note (.drive pin level)
  sense pin := do
    note (.sense pin)
    let panel ← get
    return panel.shows pin

end PinPanel

end HashBoard.Device
