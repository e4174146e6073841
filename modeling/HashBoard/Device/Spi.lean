import HashBoard.Json.Decode
import HashBoard.Wire.Error

/-!
# Serial bus devices

Where a chain's serial bus device is and how it is set up.
-/

namespace HashBoard.Device

structure SpiSettings where
  bus : UInt8
  chipSelect : UInt8
  mode : UInt8
  bitsPerWord : UInt8
  speedHz : UInt32
  deriving DecidableEq

namespace SpiSettings

def standard : SpiSettings where
  bus := 0
  chipSelect := 0
  mode := 1
  bitsPerWord := 8
  speedHz := 2000000

def deviceNode (s : SpiSettings) : String :=
  s!"/dev/spidev{s.bus.toNat}.{s.chipSelect.toNat}"

def decode? (j : Json) : Option SpiSettings := do
  let [bus, chipSelect, mode, bits, speed] ←
    j.record? ["bus", "chip_select", "mode", "bits_per_word", "speed_hz"] | none
  return {
    bus := ← Json.orElse? Json.byte? standard.bus bus
    chipSelect := ← Json.orElse? Json.byte? standard.chipSelect chipSelect
    mode := ← Json.orElse? Json.byte? standard.mode mode
    bitsPerWord := ← Json.orElse? Json.byte? standard.bitsPerWord bits
    speedHz := ← Json.orElse? Json.word32? standard.speedHz speed }

def openDevice (s : SpiSettings) (refusal : String → Option String) :
    Except Wire.ChannelError Unit :=
  match refusal s.deviceNode with
  | some source => .error (.cannotOpen s.deviceNode source)
  | none => .ok ()

end SpiSettings

end HashBoard.Device
