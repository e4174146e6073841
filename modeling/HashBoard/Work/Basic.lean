import HashBoard.Wire.Job

/-!
# Work

A unit of work is a block header to search for a nonce. A source hands work out; the chain holds
it while a chip searches; every item goes back to the sink once, with the reason. The sink also
judges the nonces that chips report. What a sink was told is kept, latest first, and its judgement
may depend on all of it.
-/

namespace HashBoard

/-! ### Items -/

structure Work where
  id : UInt64
  /-- The first 76 bytes of the block header. -/
  header : Vector UInt8 76
  nonceStart : UInt32
  nonceEnd : UInt32
  shareDifficulty : Float

namespace Work

def fullStart : UInt32 := 0

def fullEnd : UInt32 := 0x0fffffff

def spec (w : Work) (position : UInt8) : Wire.JobSpec where
  header := w.header
  nonceStart := w.nonceStart
  nonceEnd := w.nonceEnd
  difficulty := Wire.Difficulty.ofShare w.shareDifficulty position

end Work

inductive WorkOutcome where
  /-- A chip searched it and its slot was used again. -/
  | consumed
  /-- It was dropped before or during its search. -/
  | discarded
  /-- The chip could not be given the job. -/
  | failed
  deriving DecidableEq

def WorkOutcome.name : WorkOutcome → String
  | consumed => "consumed"
  | discarded => "discarded"
  | failed => "failed"

/-! ### Sinks -/

inductive SinkEvent where
  | completed (work : Work) (status : WorkOutcome)
  | submitted (work : Work) (chip : UInt8) (nonce : UInt32) (accepted : Bool)

structure Sink where
  /-- Whether a nonce is a valid share, given all that was told before. -/
  judge : List SinkEvent → Work → UInt8 → UInt32 → Bool
  /-- All that was told, latest first. -/
  events : List SinkEvent

namespace Sink

def judging (accept : Bool) : Sink := ⟨fun _ _ _ _ => accept, []⟩

def complete (s : Sink) (work : Work) (status : WorkOutcome) : Sink :=
  { s with events := .completed work status :: s.events }

def completeAll (s : Sink) (works : List Work) (status : WorkOutcome) : Sink :=
  works.foldl (fun s w => s.complete w status) s

def submit (s : Sink) (work : Work) (chip : UInt8) (nonce : UInt32) : Bool × Sink :=
  let accepted := s.judge s.events work chip nonce
  (accepted, { s with events := .submitted work chip nonce accepted :: s.events })

@[simp] theorem complete_judge (s : Sink) (work : Work) (status : WorkOutcome) :
    (s.complete work status).judge = s.judge := rfl

@[simp] theorem complete_events (s : Sink) (work : Work) (status : WorkOutcome) :
    (s.complete work status).events = .completed work status :: s.events := rfl

theorem completeAll_events (s : Sink) (works : List Work) (status : WorkOutcome) :
    (s.completeAll works status).events =
      (works.map fun w => SinkEvent.completed w status).reverse ++ s.events := by
  induction works generalizing s with
  | nil => rfl
  | cons w rest ih =>
    simp only [completeAll, List.foldl_cons, List.map_cons, List.reverse_cons, List.append_assoc,
      List.singleton_append] at ih ⊢
    rw [ih]
    rfl

end Sink

/-! ### Sources -/

/-- Where work comes from: the answer to each request, and the number of requests made. -/
structure WorkSupply where
  supply : Nat → Option Work
  requests : Nat

namespace WorkSupply

def next (s : WorkSupply) : Option Work × WorkSupply :=
  (s.supply s.requests, { s with requests := s.requests + 1 })

def ofList (items : List Work) : WorkSupply where
  supply n := items[n]?
  requests := 0

end WorkSupply

end HashBoard
