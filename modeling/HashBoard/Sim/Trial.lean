import HashBoard.Chain.Basic
import HashBoard.Sim.Rig

/-!
# Trials

A trial is a chain to be detected on a rig and then driven. It is described in JSON by its rig, the
events before detection, and the settings of the chain, of which every one has a standard value.
-/

namespace HashBoard

open Json

structure Trial where
  bus : Bus Rig
  setup : List SimulatedEvent
  detection : DetectionSettings
  id : UInt8
  options : DrivingOptions
  schedule : Thermal.Schedule
  power : Option Bool
  publishes : Bool

namespace Trial

def event? (j : Json) : Option SimulatedEvent := do
  SimulatedEvent.decode? (← j.required? text? "do") j

def options? (j : Json) : Option DrivingOptions := do
  let s := DrivingOptions.standard
  return {
    tolerance := {
      cooldown := ← j.memberOr? word64? s.tolerance.cooldown "cooldown_ms"
      disableThreshold := ← j.memberOr? word64? s.tolerance.disableThreshold "disable_threshold" }
    difficultyPosition := ← j.memberOr? byte? s.difficultyPosition "default_index"
    drainLimit := ← j.memberOr? word64? s.drainLimit "drain_limit"
    resetQueuesOnReclaim := ← j.memberOr? bool? s.resetQueuesOnReclaim "reset_queues_on_flush" }

def schedule? (j : Json) : Option Thermal.Schedule := do
  return .start (← j.memberOr? word64? 60000 "full_ms") (← j.memberOr? word64? 5000 "quick_ms")
    (← j.memberOr? realSingle? 0 "trim")

def decode? (j : Json) : Option Trial := do
  return {
    bus := ← Rig.decode? j
    setup := ← j.memberOr? (list? event?) [] "setup"
    detection := {
      targetMhz := ← j.memberOr? word32? 1000 "target_mhz"
      chipLimit := ← j.memberOr? (optional? word64?) none "chip_limit" }
    id := ← j.memberOr? byte? 0 "id"
    options := ← options? j
    schedule := ← schedule? j
    power := (← j.memberOr? (optional? text?) none "power").map fun how => how != "fail"
    publishes := ← j.memberOr? bool? false "aggregate" }

/-- What detection finds, and the bus after it; none when an event concerns a chip that is not
there, or a chip is to report a temperature code for which its register has no place. -/
def detect? (t : Trial) : Option (Except DetectionError DetectedChain × Bus Rig) := do
  let found := Detection.detect t.detection (← t.setup.foldlM Rig.after? t.bus)
  if Rig.lostSensor found.2 then none else some found

def powerLine (works : Bool) : PowerLine where
  respond _ _ := if works then .ok () else .error (.invalidParameter "stuck")
  calls := []

def chain? (t : Trial) (overview : Thermal.Overview) :
    Option (Except DetectionError (Chain Rig × Thermal.Overview)) := do
  let (answer, bus) ← t.detect?
  return answer.map fun detected =>
    let chain := Chain.ofDetection t.id bus detected t.options t.schedule
    let chain := t.power.elim chain fun works => chain.poweredBy (powerLine works)
    if t.publishes then chain.publishingTo overview else (chain, overview)

end Trial

end HashBoard
