import HashBoard.Device.Error

/-!
# The core voltage regulator

The regulator takes a level of seven bits; the eighth bit marks the value as valid.
-/

namespace HashBoard.Device.Regulator

def path : String := "/dev/vidgen0.0"

def maxLevel : UInt8 := 0x7f

def argument (level : UInt8) : Except DeviceError UInt8 :=
  if maxLevel < level then
    .error (.invalidParameter s!"VID level {level.toNat} above {maxLevel.toNat}")
  else .ok (0x80 ||| level)

def apply (level : UInt8) (refusal : Option String) : Except DeviceError Unit :=
  match argument level, refusal with
  | .error cause, _ => .error cause
  | .ok _, some source => .error (.access path source)
  | .ok _, none => .ok ()

end HashBoard.Device.Regulator
