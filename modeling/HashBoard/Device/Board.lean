import HashBoard.Device.PinAccess
import HashBoard.Device.ControlLines

/-!
# Boards

What the controller does with the pins of one board: claim them, power the board up with a pulse on
its reset line, see whether it is seated, cut its power and show whether it is mining.
-/

namespace HashBoard.Device.Board

variable {γ : Type} [PinAccess γ]

def claimOutput (pin : UInt32) : PinTask γ Unit := do
  PinAccess.claim pin
  PinAccess.setDirection pin .output
  PinAccess.drive pin .low

def claim (pins : ControlLines) : PinTask γ Unit := do
  claimOutput pins.powerEnable
  claimOutput pins.startEnable
  claimOutput pins.reset
  match pins.led with
  | some pin => claimOutput pin
  | none => pure ()
  match pins.plug with
  | some pin => do
    PinAccess.claim pin
    PinAccess.setDirection pin .input
  | none => pure ()

def isPresent (pins : ControlLines) : PinTask γ Bool :=
  match pins.plug with
  | some pin => do
    let level ← PinAccess.sense pin
    return level == .low
  | none => return true

/-- Power a board up and pulse its reset line. The answer is whether a board is seated. -/
def switchOn (pins : ControlLines) : PinTask γ Bool := do
  PinAccess.drive pins.powerEnable .high
  PinAccess.drive pins.startEnable .high
  PinAccess.drive pins.reset .high
  PinAccess.drive pins.reset .low
  PinAccess.drive pins.reset .high
  isPresent pins

def switchOff (pins : ControlLines) : PinTask γ Unit := PinAccess.drive pins.powerEnable .low

/-- Show by the light whether a board is mining; the light is on while its line is low. -/
def showMining (pins : ControlLines) (mining : Bool) : PinTask γ Unit :=
  match pins.led with
  | some pin => PinAccess.drive pin (.ofBool (!mining))
  | none => return ()

end HashBoard.Device.Board
