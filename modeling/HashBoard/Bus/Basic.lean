import HashBoard.Bus.Channel
import HashBoard.Generation

/-!
# The bus of a chain

A channel together with the generation of the chips behind it, the bounds of a poll and the
record of every call, latest first. An exchange works on a bus and either answers or fails; the bus
it leaves behind is known in both cases.
-/

namespace HashBoard

namespace Bus

structure PollLimits where
  maxBytes : Nat
  /-- Milliseconds before giving up, checked before every read. -/
  timeout : Nat
  deriving DecidableEq

end Bus

structure Bus (τ : Type) where
  channel : τ
  generation : Generation
  limits : Bus.PollLimits
  /-- Every call made and its answer, latest first. -/
  calls : List Bus.Call

namespace Bus

def start {τ : Type} (channel : τ) (generation : Generation) (limits : PollLimits) : Bus τ where
  channel := channel
  generation := generation
  limits := limits
  calls := []

abbrev Exchange (τ α : Type) := ExceptT Wire.ExchangeError (StateM (Bus τ)) α

def Exchange.runOn {τ α : Type} (x : Exchange τ α) (bus : Bus τ) :
    Except Wire.ExchangeError α × Bus τ :=
  StateT.run (ExceptT.run x) bus

variable {τ : Type} [Channel τ]

/-! ### Single calls -/

def send (frame : Bytes) : Exchange τ Unit := do
  let bus ← get
  let (answer, channel) := Channel.write frame bus.channel
  set { bus with channel, calls := .wrote frame answer :: bus.calls }
  match answer with
  | .ok () => return ()
  | .error cause => throw (.channel cause)

def receive (n : Nat) : Exchange τ (Vector UInt8 n) := do
  let bus ← get
  let (answer, channel) := Channel.read n bus.channel
  set { bus with channel, calls := .read n (answer.map Vector.toList) :: bus.calls }
  match answer with
  | .ok bytes => return bytes
  | .error cause => throw (.channel cause)

def clock : Exchange τ Nat := do
  let bus ← get
  let (time, channel) := Channel.now bus.channel
  set { bus with channel }
  return time

/-- Take `n` bytes two at a time; an odd last byte comes alone. -/
def receiveRest : Nat → Exchange τ Bytes
  | 0 => return []
  | 1 => do
    let byte ← receive 1
    return byte.toList
  | n + 2 => do
    let pair ← receive 2
    let rest ← receiveRest n
    return pair.toList ++ rest

/-! ### Polling -/

/-- Read pairs of bytes until one is accepted, at most `rounds` of them and none once the deadline
has passed; then read the rest of a response of `length` bytes. -/
def pollPairs (opcode : UInt8) (accepts : UInt8 → UInt8 → Bool) (length deadline : Nat) :
    Nat → Exchange τ (Option Bytes)
  | 0 => return none
  | rounds + 1 => do
    let time ← clock
    if deadline ≤ time then throw (.timeout opcode)
    let pair ← receive 2
    if accepts pair[0] pair[1] then
      let rest ← receiveRest (length - 2)
      return some (pair.toList ++ rest)
    else
      pollPairs opcode accepts length deadline rounds

/-- Poll for a response of `length` bytes whose first pair is accepted. None means that the byte
bound was used up first. -/
def poll (opcode : UInt8) (accepts : UInt8 → UInt8 → Bool) (length : Nat) :
    Exchange τ (Option Bytes) := do
  let begun ← clock
  let bus ← get
  pollPairs opcode accepts length (begun + bus.limits.timeout) ((bus.limits.maxBytes + 1) / 2)

def expect (opcode : Wire.Opcode) (length : Nat) : Exchange τ Bytes := do
  let bus ← get
  let rule := bus.generation.echoRule
  match ← poll opcode.code (fun first _ => rule.accepts first opcode.code) length with
  | some response => return response
  | none => throw (.noResponse opcode.code bus.limits.maxBytes)

end Bus

end HashBoard
