import HashBoard.Chain.Reclaim
import HashBoard.Chain.Summary

/-!
# The chains of a controller

The chains that are driven, each under its number, by rising number.
-/

namespace HashBoard

/-- The chains by rising number, no number twice. -/
structure ChainTable (τ : Type) where
  chains : List (Chain τ)

namespace ChainTable

variable {τ : Type}

def empty : ChainTable τ := ⟨[]⟩

/-- Put a chain in its place; the chain it replaces comes back. -/
def put (chain : Chain τ) : List (Chain τ) → Option (Chain τ) × List (Chain τ)
  | [] => (none, [chain])
  | c :: rest =>
    if chain.id < c.id then (none, chain :: c :: rest)
    else if chain.id = c.id then (some c, chain :: rest)
    else
      let (replaced, rest) := put chain rest
      (replaced, c :: rest)

def insert (r : ChainTable τ) (chain : Chain τ) : Option (Chain τ) × ChainTable τ :=
  let (replaced, chains) := put chain r.chains
  (replaced, ⟨chains⟩)

def get? (r : ChainTable τ) (id : UInt8) : Option (Chain τ) := r.chains.find? fun c => c.id == id

def update (r : ChainTable τ) (chain : Chain τ) : ChainTable τ :=
  ⟨r.chains.map fun c => if c.id = chain.id then chain else c⟩

def ids (r : ChainTable τ) : List UInt8 := r.chains.map Chain.id

def coreTotal (r : ChainTable τ) : Nat := r.chains.foldr (fun c n => c.numCores + n) 0

def summaries (r : ChainTable τ) : List ChainSummary := r.chains.map Chain.summary

/-- Cut the power of a list of chains, past failures, and count those cut. -/
def switchOffList : List (Chain τ) → Nat × List (Chain τ)
  | [] => (0, [])
  | c :: rest =>
    let (answer, c) := c.switchOff
    let (count, rest) := switchOffList rest
    (match answer with
      | .ok true => count + 1
      | _ => count, c :: rest)

def switchOffAll (r : ChainTable τ) : Nat × ChainTable τ :=
  let (count, chains) := switchOffList r.chains
  (count, ⟨chains⟩)

variable [Bus.Channel τ]

def reclaimList : List (Chain τ) → Sink → Nat × List (Chain τ) × Sink
  | [], sink => (0, [], sink)
  | c :: rest, sink =>
    let (count, c, sink) := c.reclaim sink
    let (more, rest, sink) := reclaimList rest sink
    (count + more, c :: rest, sink)

def reclaimAll (r : ChainTable τ) (sink : Sink) : Nat × ChainTable τ × Sink :=
  let (count, chains, sink) := reclaimList r.chains sink
  (count, ⟨chains⟩, sink)

end ChainTable

end HashBoard
