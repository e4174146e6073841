import HashBoard.Json.Decode

/-!
# Control lines

The numbers of the pins by which the controller reaches the board of one chain.
-/

namespace HashBoard.Device

structure ControlLines where
  powerEnable : UInt32
  startEnable : UInt32
  reset : UInt32
  /-- Reads low while a board is seated. -/
  plug : Option UInt32
  led : Option UInt32
  deriving DecidableEq

namespace ControlLines

def stock (chain : UInt8) : ControlLines where
  powerEnable := 872 + chain.toUInt32
  startEnable := 854 + 2 * chain.toUInt32
  reset := 855 + 2 * chain.toUInt32
  plug := none
  led := none

def decode? (j : Json) : Option ControlLines := do
  let [some powerEnable, some startEnable, some reset, plug, led] ←
    j.record? ["power_en", "start_en", "reset", "plug", "led"] | none
  return {
    powerEnable := ← powerEnable.word32?
    startEnable := ← startEnable.word32?
    reset := ← reset.word32?
    plug := ← Json.orElse? (Json.optional? Json.word32?) none plug
    led := ← Json.orElse? (Json.optional? Json.word32?) none led }

end ControlLines

end HashBoard.Device
