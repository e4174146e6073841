import HashBoard.Chain.Basic

/-!
# Taking work back and cutting power

Reclaiming hands every item that a chain holds back as discarded, whatever the bus does. The power
line can be cut, and the status light follows the mining.
-/

namespace HashBoard

open Bus

namespace Chain

variable {τ : Type}

/-! ### Power -/

/-- Cut the supply. False when the chain has no power line. -/
def switchOff (c : Chain τ) : Except OperationError Bool × Chain τ :=
  match c.power with
  | none => (.ok false, c)
  | some line =>
    let (answer, line) := line.ask .off
    let c := { c with power := some line }
    match answer with
    | .ok () => (.ok true, c)
    | .error cause => (.error (.power cause), c)

def showMining (c : Chain τ) (mining : Bool) : Chain τ :=
  { c with power := c.power.map fun line => (line.ask (.led mining)).2 }

/-! ### Work -/

variable [Channel τ]

/-- Take the jobs of every chip, and empty the job queues of active chips when asked to. -/
def reclaimChips (resetQueues : Bool) :
    List Chip → Bus τ → Sink → Nat → List Chip × Bus τ × Sink × Nat
  | [], bus, sink, count => ([], bus, sink, count)
  | chip :: rest, bus, sink, count =>
    let (works, slots) := chip.slots.drain
    let sink := sink.completeAll works .discarded
    let bus := if resetQueues && chip.condition.isActive then ((emptyJobQueue chip.id).runOn bus).2
      else bus
    let (rest, bus, sink, count) := reclaimChips resetQueues rest bus sink (count + works.length)
    ({ chip with slots } :: rest, bus, sink, count)

/-- Hand back every item that is in a slot or waits, and say how many there were. -/
def reclaim (c : Chain τ) (sink : Sink) : Nat × Chain τ × Sink :=
  let (chips, bus, sink, count) := reclaimChips c.options.resetQueuesOnReclaim c.chips c.bus sink 0
  (count + c.queue.length, { c with chips, bus, queue := [] }, sink.completeAll c.queue .discarded)

end Chain

end HashBoard
