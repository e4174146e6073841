import HashBoard.Thermal.SensorCurve
import HashBoard.Wire.Frame
import HashBoard.Wire.Register

/-!
# Chip generations

The generations share one command set. They differ in how a response echoes its opcode, where the
temperature code stands in the register, whether jobs carry a checksum and are acknowledged, and
how the sensor code maps to degrees.
-/

namespace HashBoard

inductive EchoRule where
  | exact
  /-- The low four bits are the opcode; the high four carry a slot. -/
  | lowNibble
  deriving DecidableEq

def EchoRule.accepts : EchoRule → UInt8 → UInt8 → Bool
  | exact, byte, opcode => byte == opcode
  | lowNibble, byte, opcode => byte &&& 0x0f == opcode

inductive JobReceipt where
  | none
  /-- A register read that has to report a full queue. -/
  | waitBusy
  deriving DecidableEq

/-- What the program has to know about a generation of chips. -/
structure Generation where
  name : String
  regLen : Nat
  echoRule : EchoRule
  busyMask : UInt8
  jobReceipt : JobReceipt
  jobCrc : Bool
  /-- Zero bytes clocked after each job frame. -/
  jobTrailer : Nat
  /-- Where the temperature code stands in the register block; none when that is outside. -/
  sensorPlace : Option (Fin 11)
  sensorCurve : Thermal.SensorCurve
  /-- The chain length from which the bound of a poll is derived. -/
  pollChips : Nat
  weakCores : UInt8
  brokenCores : UInt8

namespace Generation

def a4 : Generation where
  name := "a4"
  regLen := Wire.registerLength
  echoRule := .exact
  busyMask := 0x01
  jobReceipt := .waitBusy
  jobCrc := false
  jobTrailer := 0
  sensorPlace := some 7
  sensorCurve := .tableA4
  pollChips := 10
  weakCores := 30
  brokenCores := 26

def a6 : Generation where
  name := "a6"
  regLen := Wire.registerLength
  echoRule := .lowNibble
  busyMask := 0x01
  jobReceipt := .none
  jobCrc := true
  jobTrailer := 10
  sensorPlace := some 7
  sensorCurve := .linearA6
  pollChips := 64
  weakCores := 30
  brokenCores := 26

def all : List Generation := [a6, a4]

def names : List String := all.map name

def find? (name : String) : Option Generation := all.find? fun g => g.name == name.map Char.toLower

def celsius (g : Generation) (register : Wire.Register) : Float32 :=
  g.sensorCurve.celsius (g.sensorPlace.elim 0 register.sensorCode)

def pollBytes (g : Generation) : Nat := g.pollChips * 4

end Generation

end HashBoard
