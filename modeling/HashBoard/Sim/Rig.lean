import HashBoard.Bus.Basic
import HashBoard.Generation.Variant
import HashBoard.Sim.Event
import HashBoard.Sim.Script

/-!
# Rigs

A rig is a chain without hardware, simulated or scripted, behind a bus. It is described in JSON by
the generation of its chips, the bounds of a poll, and either the core counts of simulated chips or
the replies and failures of a script.
-/

namespace HashBoard

open Json

abbrev Rig := SimulatedChain ⊕ Script

namespace Rig

def standardTimeoutMs : Nat := 60000

def script? (j : Json) : Option Script := do
  return Script.start (← j.required? (list? bytes?) "script")
    (← j.memberOr? (list? word64?) [] "fail_writes") (← j.memberOr? (list? word64?) [] "fail_reads")

def decode? (j : Json) : Option (Bus Rig) := do
  let g ← j.memberOr? Generation.decode? Generation.a6 "generation"
  let simulated? := (j.required? (list? byte?) "cores").map (SimulatedChain.ofCores g)
  let rig ← if (j.member? "script").isSome then (script? j).map Sum.inr else simulated?.map Sum.inl
  return Bus.start rig g ⟨← j.memberOr? word64? g.pollBytes "max_bytes",
    ← j.memberOr? word64? standardTimeoutMs "timeout_ms"⟩

def lostSensor (bus : Bus Rig) : Bool :=
  match bus.channel with
  | .inl s => s.lostSensor
  | .inr _ => false

def after? (bus : Bus Rig) (event : SimulatedEvent) : Option (Bus Rig) :=
  match bus.channel with
  | .inl s => (s.after? event).map fun s => { bus with channel := .inl s }
  | .inr _ => none

end Rig

end HashBoard
