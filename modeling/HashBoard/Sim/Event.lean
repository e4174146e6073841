import HashBoard.Json.Decode
import HashBoard.Sim.Chain

/-!
# Events of a simulated chain

What can happen to simulated chips between two exchanges: faults, finished jobs, other
temperatures, results to report. An event of one chip needs that chip to be there.
-/

namespace HashBoard

open Json

inductive SimulatedEvent where
  | failWrites (count : Nat)
  | failReads (chip : UInt8) (count : Nat)
  | setBusy (chip : UInt8) (busy : Bool)
  | setTemperature (chip : UInt8) (code : UInt16)
  | completeJobs
  /-- Jobs are lost from now on, or not any more. -/
  | dropJobs (on : Bool)
  | ignoreQueueResets (on : Bool)
  | queueResult (result : Wire.FoundNonce)
  | queueCorruptResult (result : Wire.FoundNonce)
  | clearWrites

/-- A chain after an event; none when the chip of the event is not there. -/
def SimulatedChain.after? (s : SimulatedChain) : SimulatedEvent → Option SimulatedChain
  | .failWrites count => some { s with failingWrites := count }
  | .failReads chip count => s.modifyChip? chip fun c => { c with failingReads := count }
  | .setBusy chip busy => s.modifyChip? chip fun c => { c with busy := busy }
  | .setTemperature chip code => s.modifyChip? chip fun c => { c with sensorCode := code }
  | .completeJobs => some s.completeJobs
  | .dropJobs on => some { s with dropJobs := on }
  | .ignoreQueueResets on => some { s with ignoreQueueResets := on }
  | .queueResult result => some (s.queueResult result)
  | .queueCorruptResult result => some (s.queueCorruptResult result)
  | .clearWrites => some { s with writes := [] }

def Wire.FoundNonce.decodeFields? (j : Json) : Option Wire.FoundNonce := do
  return ⟨← j.required? byte? "slot", ← j.required? byte? "chip", ← j.required? word32? "nonce"⟩

def SimulatedEvent.decode? (name : String) (j : Json) : Option SimulatedEvent := do
  let chip := j.required? byte? "chip"
  let count := j.required? word64? "count"
  let isSet := j.memberOr? bool? false
  match name with
  | "fail_writes" => return failWrites (← count)
  | "fail_reads" => return failReads (← chip) (← count)
  | "set_busy" => return setBusy (← chip) (← isSet "busy")
  | "set_temp" => return setTemperature (← chip) (← j.required? word16? "code")
  | "finish_jobs" => return completeJobs
  | "drop_jobs" => return dropJobs (← isSet "on")
  | "ignore_queue_resets" => return ignoreQueueResets (← isSet "on")
  | "push_result" => return queueResult (← Wire.FoundNonce.decodeFields? j)
  | "push_corrupt_result" => return queueCorruptResult (← Wire.FoundNonce.decodeFields? j)
  | "clear_writes" => return clearWrites
  | _ => none

end HashBoard
