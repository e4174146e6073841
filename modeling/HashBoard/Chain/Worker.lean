import HashBoard.Chain.Reclaim
import HashBoard.Chain.Scan
import HashBoard.Thermal.Alarm
import HashBoard.Thermal.Settings

/-!
# Chain workers

A worker keeps the queue of one chain filled from a source, scans the chain and powers it off when
a scan finds a dangerous temperature. When it stops, everything it still holds goes back.
-/

namespace HashBoard

open Bus

inductive WorkerStep where
  | goOn (quiet : Bool)
  | idle
  | tripped
  deriving DecidableEq

structure Worker (τ : Type) where
  chain : Chain τ
  source : WorkSupply
  sink : Sink
  overview : Thermal.Overview
  thermal : Thermal.Settings
  /-- The item that the chain refused last; it is offered again before a newer one. -/
  pending : Option Work
  alarms : List Thermal.Alarm

namespace Worker

variable {τ : Type}

def threadName (w : Worker τ) : String := s!"chain-{w.chain.id.toNat}"

def nextItem (w : Worker τ) : Option Work × Worker τ :=
  match w.pending with
  | some work => (some work, { w with pending := none })
  | none =>
    let (item, source) := w.source.next
    (item, { w with source })

def fillUpTo : Nat → Worker τ → Worker τ
  | 0, w => w
  | tries + 1, w =>
    match w.nextItem with
    | (none, w) => w
    | (some work, w) =>
      match w.chain.offer work with
      | (true, chain) => fillUpTo tries { w with chain }
      | (false, _) => { w with pending := some work }

/-- Fill the queue of the chain. A try for each free place and one more always suffices. -/
def fill (w : Worker τ) : Worker τ :=
  fillUpTo (w.chain.capacity - w.chain.queue.length + 1) w

def answerDanger (w : Worker τ) (tally : ScanTally) : Bool × Worker τ :=
  match tally.temperature with
  | none => (false, w)
  | some stats =>
    if w.thermal.isDangerous stats.max then
      let event : Thermal.Alarm :=
        ⟨some w.chain.id, stats.max, "chip temperature at or above danger threshold"⟩
      (true, { w with chain := w.chain.switchOff.2, alarms := event :: w.alarms })
    else (false, w)

variable [Channel τ]

def step (w : Worker τ) (now : Nat) : WorkerStep × Worker τ :=
  let w := w.fill
  let scanned := w.chain.scan w.sink w.overview now
  let w := { w with chain := scanned.chain, sink := scanned.sink, overview := scanned.overview }
  match scanned.result with
  | .error _ => (.goOn true, w)
  | .ok tally =>
    if tally.idle then (.idle, w)
    else
      match w.answerDanger tally with
      | (true, w) => (.tripped, w)
      | (false, w) => (.goOn tally.isUneventful, w)

def windUp (w : Worker τ) : Worker τ :=
  let (_, chain, sink) := w.chain.reclaim w.sink
  let sink := match w.pending with
    | some work => sink.complete work .discarded
    | none => sink
  { w with chain := chain.showMining false, sink, pending := none }

def steps (stop : Worker τ → Bool) : List Nat → Worker τ → Worker τ
  | [], w => w
  | now :: later, w =>
    if stop w then w
    else
      match w.step now with
      | (.goOn _, w) => steps stop later w
      | (_, w) => w

/-- A whole run at the given times, from the status light going on to everything handed back. -/
def run (stop : Worker τ → Bool) (times : List Nat) (w : Worker τ) : Worker τ :=
  (steps stop times { w with chain := w.chain.showMining true }).windUp

end Worker

end HashBoard
