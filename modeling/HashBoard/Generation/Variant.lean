import HashBoard.Generation
import HashBoard.Json.Decode

/-!
# Variants of a generation

A generation in a JSON value: its name, or an object that says how it differs from a known one. The
variant keeps what the object does not mention, and has a name that is not looked up.
-/

namespace HashBoard

open Json

def Thermal.SensorCurve.decode? (j : Json) : Option Thermal.SensorCurve :=
  match j.member? "linear", j.member? "table" with
  | some line, _ => do
    return .linear (← line.required? realSingle? "offset") (← line.required? realSingle? "scale")
  | none, some steps => do
    return .table (← steps.required? realSingle? "start") (← steps.required? realSingle? "step")
      (← steps.required? (list? word16?) "codes")
  | none, none => none

def EchoRule.decode? (j : Json) : Option EchoRule :=
  j.text?.bind fun name => [("exact", exact), ("low_nibble", lowNibble)].lookup name

def JobReceipt.decode? (j : Json) : Option JobReceipt :=
  j.text?.bind fun name => [("none", none), ("wait_busy", waitBusy)].lookup name

namespace Generation

/-- A place in the register block, or a number beyond it. -/
def sensorPlace? (j : Json) : Option (Option (Fin 11)) := j.word64?.map Wire.Register.sensorPlace?

def variantName : String := "custom"

/-- A generation that differs from a known one. -/
def decodeVariant? (j : Json) : Option Generation := do
  let base ← find? (← j.memberOr? text? a6.name "base")
  return {
    name := variantName
    regLen := ← j.memberOr? word64? base.regLen "reg_len"
    echoRule := ← j.memberOr? EchoRule.decode? base.echoRule "response_match"
    busyMask := ← j.memberOr? byte? base.busyMask "busy_mask"
    jobReceipt := ← j.memberOr? JobReceipt.decode? base.jobReceipt "job_ack"
    jobCrc := ← j.memberOr? bool? base.jobCrc "job_crc"
    jobTrailer := ← j.memberOr? word64? base.jobTrailer "job_trailer"
    sensorPlace := ← j.memberOr? sensorPlace? base.sensorPlace "temp_index"
    sensorCurve := ← j.memberOr? Thermal.SensorCurve.decode? base.sensorCurve "temp"
    pollChips := ← j.memberOr? word64? base.pollChips "poll_chips"
    weakCores := ← j.memberOr? byte? base.weakCores "weak_core_threshold"
    brokenCores := ← j.memberOr? byte? base.brokenCores "broken_core_threshold" }

def decode? (j : Json) : Option Generation :=
  match j.text? with
  | some name => find? name
  | none => decodeVariant? j

end Generation

end HashBoard
