import HashBoard.Thermal.Statistics

/-!
# Thermal settings

The thresholds, intervals, gains and duties by which chains are sampled and fans are driven.
-/

namespace HashBoard.Thermal

inductive FanMode where
  | auto | hysteresis | manual | emergency
  deriving DecidableEq

namespace FanMode

def all : List FanMode := [auto, hysteresis, manual, emergency]

def name : FanMode → String
  | auto => "auto"
  | hysteresis => "hysteresis"
  | manual => "manual"
  | emergency => "emergency"

def ofName? (name : String) : Option FanMode := all.find? fun m => m.name == name

def ofText? (text : String) : Option FanMode := ofName? (text.map Char.toLower)

end FanMode

structure Gains where
  kp : Float32
  ki : Float32
  kd : Float32
  /-- The duty in percent while the temperature is on target. -/
  offset : Float32
  integralLimit : Float32

def Gains.standard : Gains where
  kp := 5
  ki := 0.03
  kd := 0.015
  offset := 70
  integralLimit := 1000

structure BandSettings where
  high : Float32
  low : Float32
  highDuty : UInt8
  lowDuty : UInt8

def BandSettings.standard : BandSettings where
  high := 65
  low := 35
  highDuty := 100
  lowDuty := 60

structure Settings where
  target : Float32
  /-- Fans run at full speed from here on. -/
  hot : Float32
  /-- Chains are powered off from here on. -/
  danger : Float32
  fullSampleSecs : Nat
  quickSampleSecs : Nat
  trim : Float32
  fanMode : FanMode
  manualSpeed : UInt8
  pid : Gains
  band : BandSettings
  /-- How long the higher floor holds after the start. -/
  warmUpSecs : Nat
  warmUpMinDuty : UInt8
  minDuty : UInt8
  pwmChips : List UInt32
  pwmPeriodNs : UInt32
  fanTickMs : Nat

namespace Settings

def standard : Settings where
  target := 75
  hot := 95
  danger := 110
  fullSampleSecs := 60
  quickSampleSecs := 5
  trim := Statistics.standardTrim
  fanMode := .auto
  manualSpeed := 100
  pid := .standard
  band := .standard
  warmUpSecs := 300
  warmUpMinDuty := 60
  minDuty := 1
  pwmChips := [0, 1, 2]
  pwmPeriodNs := 100000
  fanTickMs := 1000

def isDangerous (s : Settings) (celsius : Float32) : Bool := celsius ≥ s.danger

end Settings

end HashBoard.Thermal
