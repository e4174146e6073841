import HashBoard.Chain.Reclaim
import HashBoard.Proofs.Bus.Addresses

/-!
# Chains that gave their work back

What taking the work back leaves behind: empty slots, an empty queue, every item back as discarded,
and a bus on which no job was sent.
-/

namespace HashBoard

open Bus

def jobsHeld (chips : List Chip) : List Work := chips.flatMap fun chip => chip.slots.toList

def withoutJobs (chips : List Chip) : List Chip :=
  chips.map fun chip => { chip with slots := .empty }

theorem jobsHeld_withoutJobs (chips : List Chip) : jobsHeld (withoutJobs chips) = [] := by
  induction chips with
  | nil => rfl
  | cons chip rest ih => exact ih

theorem ids_withoutJobs (chips : List Chip) :
    (withoutJobs chips).map Chip.id = chips.map Chip.id := by
  simp [withoutJobs]

theorem completeAll_append (sink : Sink) (first second : List Work) (status : WorkOutcome) :
    sink.completeAll (first ++ second) status =
      (sink.completeAll first status).completeAll second status := by
  rw [Sink.completeAll, List.foldl_append]
  rfl

namespace Chain

variable {τ : Type}

theorem switchOff_snd (c : Chain τ) :
    c.switchOff.2 = { c with power := c.power.map fun line => (line.ask .off).2 } := by
  unfold switchOff
  cases hpower : c.power with
  | none =>
    cases c
    cases hpower
    rfl
  | some line =>
    simp only
    cases (line.ask .off).1 with
    | ok u => rfl
    | error cause => rfl

variable [Channel τ]

theorem reclaimChips_eq (reset : Bool) (chips : List Chip) (bus : Bus τ) (sink : Sink) (n : Nat) :
    ∃ after, Jobless bus after ∧ reclaimChips reset chips bus sink n =
      (withoutJobs chips, after, sink.completeAll (jobsHeld chips) .discarded,
        n + (jobsHeld chips).length) := by
  induction chips generalizing bus sink n with
  | nil => exact ⟨bus, .refl bus, rfl⟩
  | cons chip rest ih =>
    let reached := if reset && chip.condition.isActive then ((emptyJobQueue chip.id).runOn bus).2
      else bus
    have hreached : Jobless bus reached := by
      by_cases hreset : (reset && chip.condition.isActive) = true
      · have hempty : reached = ((emptyJobQueue chip.id).runOn bus).2 := if_pos hreset
        rw [hempty]
        exact emptyJobQueue_jobless rfl
      · have hsame : reached = bus := if_neg hreset
        rw [hsame]
        exact .refl bus
    obtain ⟨after, hrest, heq⟩ := ih reached (sink.completeAll chip.slots.toList .discarded)
      (n + chip.slots.toList.length)
    refine ⟨after, hreached.trans hrest, ?_⟩
    have hheld : jobsHeld (chip :: rest) = chip.slots.toList ++ jobsHeld rest := List.flatMap_cons
    rw [hheld, completeAll_append, List.length_append, ← Nat.add_assoc]
    show ({ chip with slots := .empty } :: (reclaimChips reset rest reached _ _).1,
      (reclaimChips reset rest reached _ _).2) = _
    rw [heq]
    rfl

/-- Only active chips are written to while the work is taken back. -/
theorem reclaimChips_framesTo {address : UInt8} {chips : List Chip} (reset : Bool) (bus : Bus τ)
    (sink : Sink) (n : Nat) (hchips : ∀ chip ∈ chips, chip.id ≠ Wire.broadcast)
    (haddress : ∀ chip ∈ chips, chip.condition.isActive = true → address ≠ chip.id) :
    (reclaimChips reset chips bus sink n).2.1.framesTo address = bus.framesTo address := by
  induction chips generalizing bus sink n with
  | nil => rfl
  | cons chip rest ih =>
    have hrest := fun reached sink n =>
      ih reached sink n (fun other hmem => hchips other (List.mem_cons_of_mem _ hmem))
        (fun other hmem => haddress other (List.mem_cons_of_mem _ hmem))
    refine (hrest _ _ _).trans ?_
    by_cases hreset : (reset && chip.condition.isActive) = true
    · have hactive : chip.condition.isActive = true := (Bool.and_eq_true_iff.1 hreset).2
      have hself : chip ∈ chip :: rest := List.mem_cons_self ..
      have hempty : WritesTo chip.id bus ((emptyJobQueue chip.id).runOn bus).2 :=
        emptyJobQueue_writesTo rfl (hchips chip hself)
      rw [if_pos hreset]
      exact hempty.framesTo (haddress chip hself hactive)
    · rw [if_neg hreset]

/-- Taking the work back empties the chain and sends no job, whatever the bus does. -/
theorem reclaim_eq (c : Chain τ) (sink : Sink) : ∃ after, Jobless c.bus after ∧
    c.reclaim sink =
      ((jobsHeld c.chips).length + c.queue.length,
        { c with chips := withoutJobs c.chips, bus := after, queue := [] },
        sink.completeAll (jobsHeld c.chips ++ c.queue) .discarded) := by
  obtain ⟨after, hjobless, heq⟩ :=
    reclaimChips_eq c.options.resetQueuesOnReclaim c.chips c.bus sink 0
  refine ⟨after, hjobless, ?_⟩
  unfold reclaim
  rw [heq, completeAll_append, Nat.zero_add]

end Chain

end HashBoard
