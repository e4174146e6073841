import HashBoard.Proofs.Chain.Reclaimed
import HashBoard.Proofs.Chain.Detected
import HashBoard.Proofs.Chain.ScanSteps
import HashBoard.Sim.Script

/-!
# Chains in service

A detected chain is offered work, scanned and made to give its work back, in any order and over any
channel. The states that this reaches are those about which the properties of a chain are stated;
beside the chain and its sink they keep which offers were taken.
-/

namespace HashBoard

open Bus Wire

inductive Request where
  | offer (work : Work)
  | scan (overview : Thermal.Overview) (now : Nat)
  | reclaim

def Request.isScan : Request → Bool
  | .scan _ _ => true
  | _ => false

structure Service (τ : Type) where
  chain : Chain τ
  sink : Sink
  /-- The items whose offer was taken, latest first. -/
  accepted : List Work
  /-- The items whose offer was refused, latest first. -/
  refused : List Work

namespace Service

variable {τ : Type}

def start (chain : Chain τ) (judge : List SinkEvent → Work → UInt8 → UInt32 → Bool) : Service τ where
  chain := chain
  sink := ⟨judge, []⟩
  accepted := []
  refused := []

variable [Channel τ]

def after (s : Service τ) : Request → Service τ
  | .offer work =>
    match s.chain.offer work with
    | (true, chain) => { s with chain, accepted := work :: s.accepted }
    | (false, chain) => { s with chain, refused := work :: s.refused }
  | .scan overview now =>
    let scanned := s.chain.scan s.sink overview now
    { s with chain := scanned.chain, sink := scanned.sink }
  | .reclaim =>
    let (_, chain, sink) := s.chain.reclaim s.sink
    { s with chain, sink }

theorem after_offer (s : Service τ) (work : Work) :
    (s.chain.capacity ≤ s.chain.queue.length ∧
        s.after (.offer work) = { s with refused := work :: s.refused }) ∨
      (s.chain.queue.length < s.chain.capacity ∧
        s.after (.offer work) =
          { s with
            chain := { s.chain with queue := s.chain.queue ++ [work] }
            accepted := work :: s.accepted }) := by
  unfold after Chain.offer
  by_cases hfull : s.chain.capacity ≤ s.chain.queue.length
  · refine .inl ⟨hfull, ?_⟩
    simp only [if_pos hfull]
  · refine .inr ⟨Nat.lt_of_not_le hfull, ?_⟩
    simp only [if_neg hfull]

theorem after_reclaim (s : Service τ) : ∃ bus, Jobless s.chain.bus bus ∧
    s.after .reclaim =
      { s with
        chain := { s.chain with chips := withoutJobs s.chain.chips, bus, queue := [] }
        sink := s.sink.completeAll (jobsHeld s.chain.chips ++ s.chain.queue) .discarded } := by
  obtain ⟨bus, hjobless, heq⟩ := s.chain.reclaim_eq s.sink
  refine ⟨bus, hjobless, ?_⟩
  unfold after
  rw [heq]

inductive Reachable : Service τ → Prop
  | detected {settings : DetectionSettings} {bus bus' : Bus τ} {found : DetectedChain}
      (hfound : Detection.detect settings bus = (.ok found, bus'))
      (id : UInt8) (options : DrivingOptions) (schedule : Thermal.Schedule)
      (power : Option PowerLine) (publishes : Bool)
      (judge : List SinkEvent → Work → UInt8 → UInt32 → Bool) :
      Reachable (start
        { Chain.ofDetection id bus' found options schedule with power, publishes } judge)
  | after {s : Service τ} (hs : Reachable s) (request : Request) : Reachable (s.after request)

/-! ### Runs -/

def run (s : Service τ) (requests : List Request) : Service τ := requests.foldl after s

/-- What the scans of a run report, in order. -/
def reports : Service τ → List Request → List (Except OperationError ScanTally)
  | _, [] => []
  | s, .scan overview now :: rest =>
    (s.chain.scan s.sink overview now).result :: reports (s.after (.scan overview now)) rest
  | s, request :: rest => reports (s.after request) rest

theorem Reachable.run {s : Service τ} (h : Reachable s) (requests : List Request) :
    Reachable (s.run requests) := by
  induction requests generalizing s with
  | nil => exact h
  | cons request rest ih => exact ih (h.after request)

/-! ### One scripted chip -/

def chipReply (busy : Bool) : Bytes :=
  [0x1A, 1, 0x06, 0xFA, 0x40, 0, 0, 0, 0, 0, 0, if busy then 1 else 0, 0, 40]

def oneChip (replies : List Bytes) : Bus Script :=
  let detection := [[0x04, 0, 0, 0], [0x01, 0, 0, 1], 0x09 :: List.replicate 11 0, [0x0B, 0, 0, 0],
    [0x03, 0, 0, 0], 0x0D :: List.replicate 15 0, chipReply false]
  Bus.start (.start (detection ++ replies) [] []) .a4 ⟨6, 1000⟩

/-- The chain detected on a bus, with standard options and no thermal pass due before the given
time; every nonce is a valid share. -/
def ofBus? (bus : Bus τ) (quietUntil : Nat) : Option (Service τ) :=
  match Detection.detect ⟨600, none⟩ bus with
  | (.ok found, bus') =>
    let schedule := { Thermal.Schedule.start quietUntil quietUntil 0 with lastFull := some 0 }
    some (start (Chain.ofDetection 0 bus' found .standard schedule) fun _ _ _ _ => true)
  | (.error _, _) => none

theorem reachable_of_ofBus? {bus : Bus τ} {quietUntil : Nat} {s : Service τ}
    (h : ofBus? bus quietUntil = some s) : Reachable s := by
  unfold ofBus? at h
  cases hd : Detection.detect ⟨600, none⟩ bus with
  | mk answer bus' =>
    rw [hd] at h
    cases answer with
    | ok found =>
      obtain rfl := Option.some.inj h
      exact .detected hd 0 .standard _ none false _
    | error cause => cases h

end Service

end HashBoard
