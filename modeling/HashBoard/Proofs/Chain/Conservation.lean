import HashBoard.Proofs.Chain.Service
import HashBoard.Work.KnownAnswer
import Mathlib.Algebra.Order.Group.Multiset
import Mathlib.Tactic.Abel

/-!
# Conservation of work

An item whose offer was taken waits in the queue, is in a slot of a chip, or came back, and it is
in one of these places once. No step of a scan adds or loses an item: what leaves the queue goes to
a slot or comes back, and what leaves a slot comes back.
-/

namespace HashBoard

open Bus Wire

/-! ### Steps -/

namespace Cycle

variable {τ : Type}

def share (chip : Chip) (cy : Cycle τ) : Multiset Work :=
  cy.queue + chip.slots.toList + completedIn cy.sink.events

def items (p : List Chip × Cycle τ) : Multiset Work :=
  p.2.queue + jobsHeld p.1 + completedIn p.2.sink.events

theorem items_append_cons (before after : List Chip) (chip : Chip) (cy : Cycle τ) :
    items (before ++ chip :: after, cy) = jobsHeld before + jobsHeld after + share chip cy := by
  have hheld : jobsHeld (before ++ chip :: after) =
      jobsHeld before ++ (chip.slots.toList ++ jobsHeld after) := by
    rw [jobsHeld, List.flatMap_append, List.flatMap_cons]
    rfl
  rw [items, share, hheld]
  simp only [← Multiset.coe_add]
  abel

theorem share_complete (chip : Chip) (cy : Cycle τ) (work : Work) (status : WorkOutcome) :
    share chip (cy.complete work status) = {work} + share chip cy := by
  show cy.queue + chip.slots.toList + ({work} + completedIn cy.sink.events : Multiset Work) = _
  rw [share]
  abel

theorem share_retire (chip : Chip) (cy : Cycle τ) (previous : Option Work) :
    share chip (cy.retire previous) = previous.toList + share chip cy := by
  cases previous with
  | none => exact (zero_add _).symm
  | some done => exact share_complete chip cy done .consumed

theorem share_fail (cy : Cycle τ) (policy : Tolerance) (now : Nat) (chip : Chip) :
    share (cy.fail policy now chip).1 (cy.fail policy now chip).2 = share chip cy := by
  rcases fail_cases cy policy now chip with ⟨_, f, h⟩ | ⟨_, f, h⟩
  · rw [h]
    rfl
  · rw [h]
    show cy.queue + ([] : List Work) +
      completedIn (cy.sink.completeAll chip.slots.toList .discarded).events = share chip cy
    rw [completedIn_completeAll, ← Multiset.coe_add, Multiset.coe_reverse, share, Multiset.coe_nil]
    abel

theorem share_withJob (cy : Cycle τ) (chip : Chip) (work : Work) :
    chip.slots.current?.toList + share (withJob chip work) cy = {work} + share chip cy := by
  have hreuse := Multiset.coe_eq_coe.2 (chip.slots.toList_reuse work)
  rw [← Multiset.coe_add, ← Multiset.cons_coe, ← Multiset.singleton_add] at hreuse
  show chip.slots.current?.toList + (cy.queue + (chip.slots.reuse work).toList +
    completedIn cy.sink.events : Multiset Work) = _
  -- The item under the cursor leaves the slots as the new one comes in.
  calc (chip.slots.current?.toList + (cy.queue + (chip.slots.reuse work).toList +
        completedIn cy.sink.events) : Multiset Work)
      = cy.queue + completedIn cy.sink.events +
          (chip.slots.current?.toList + (chip.slots.reuse work).toList) := by abel
    _ = cy.queue + completedIn cy.sink.events + ({work} + chip.slots.toList) := by rw [hreuse]
    _ = {work} + share chip cy := by rw [share]; abel

theorem share_dequeue {cy : Cycle τ} {work : Work} {queue : List Work} (chip : Chip) (bus : Bus τ)
    (hqueue : cy.queue = work :: queue) :
    {work} + share chip { cy with bus, queue } = share chip cy := by
  show {work} + (queue + chip.slots.toList + completedIn cy.sink.events : Multiset Work) = _
  rw [share, hqueue, ← Multiset.cons_coe, ← Multiset.singleton_add]
  abel

theorem share_credit (result : FoundNonce) (chip : Chip) (cy : Cycle τ) :
    share (credit result chip cy).1 (credit result chip cy).2 = share chip cy := by
  rcases credit_cases result chip cy with ⟨_, _, _, h⟩ | ⟨_, _, _, _, h⟩
  · rw [h]
    rfl
  · rw [h]
    rfl

variable [Channel τ] {options : DrivingOptions} {now : Nat} {round : Round}

theorem ChipStep.share_eq {chip chip' : Chip} {cy cy' : Cycle τ}
    (h : ChipStep options now round chip cy chip' cy') : share chip' cy' = share chip cy := by
  cases h with
  | measured _ _ => rfl
  | probed _ _ => rfl
  | recovered _ _ => rfl
  | missed _ _ | missedAgain _ _ => exact share_fail ..
  | @sent _ _ _ work queue _ bus _ _ _ hqueue _ =>
    calc share (withJob chip work) (retire { cy with bus, queue } chip.slots.current?)
        = chip.slots.current?.toList + share (withJob chip work) { cy with bus, queue } :=
          share_retire ..
      _ = {work} + share chip { cy with bus, queue } := share_withJob ..
      _ = share chip cy := share_dequeue chip bus hqueue
  | @unsent _ _ _ work queue _ bus _ _ _ hqueue _ =>
    rw [share_fail, share_complete, share_dequeue chip bus hqueue]

theorem Step.items_eq {p q : List Chip × Cycle τ} (h : Step options now round p q) :
    items q = items p := by
  cases h with
  | chip hchip => rw [items_append_cons, items_append_cons, hchip.share_eq]
  | listened _ _ _ => rfl
  | spoilt _ => rfl
  | dropped _ _ => rfl
  | credited _ _ _ _ =>
    rw [items_append_cons, items_append_cons, share_credit]
    rfl

/-! ### Submissions -/

theorem Step.submittedInTime {accepted : List Work} {p q : List Chip × Cycle τ}
    (hstep : Step options now round p q) (hitems : items p = accepted)
    (h : SubmittedInTime accepted p.2.sink.events) : SubmittedInTime accepted q.2.sink.events := by
  cases hstep with
  | chip hchip => exact h.returned hchip.returned
  | listened _ _ _ => exact h
  | spoilt _ => exact h
  | dropped _ _ => exact h
  | @credited before after chip cy result bus _ _ _ _ =>
    rcases credit_cases result chip
        (count { cy with bus } fun r => { r with results := r.results + 1 }) with
      ⟨_, _, _, hcredit⟩ | ⟨work, hslot, _, _, hcredit⟩
    · rw [hcredit]
      exact h
    · -- The item is still in its slot, so those that came back are accepted beside it.
      rw [hcredit]
      refine h.submitted ?_ _ _ _
      have hheld : ({work} : Multiset Work) ≤ chip.slots.toList :=
        Multiset.singleton_le.2 (Multiset.mem_coe.2 (chip.slots.mem_toList_of_get? hslot))
      have hamong : work ::ₘ (completedIn cy.sink.events : Multiset Work) ≤ accepted :=
        calc work ::ₘ (completedIn cy.sink.events : Multiset Work)
            = {work} + completedIn cy.sink.events := (Multiset.singleton_add ..).symm
          _ ≤ chip.slots.toList + completedIn cy.sink.events := add_le_add_left hheld _
          _ ≤ cy.queue + (chip.slots.toList + completedIn cy.sink.events) :=
            Multiset.le_add_left _ _
          _ ≤ jobsHeld before + jobsHeld after + share chip cy := by
            rw [share, ← add_assoc]
            exact Multiset.le_add_left _ _
          _ = accepted := by rw [← items_append_cons, hitems]
      exact Multiset.coe_le.1 hamong

end Cycle

/-! ### Chains -/

namespace Chain

variable {τ : Type}

theorem items_queue (c : Chain τ) (sink : Sink) (works : List Work) :
    Cycle.items (c.chips, Chain.cycle { c with queue := c.queue ++ works } sink) =
      works + Cycle.items (c.chips, c.cycle sink) := by
  show ((c.queue ++ works : List Work) : Multiset Work) + jobsHeld c.chips +
    completedIn sink.events = works + (c.queue + jobsHeld c.chips + completedIn sink.events)
  rw [← Multiset.coe_add]
  abel

theorem completedIn_reclaimed (c : Chain τ) (sink : Sink) :
    (completedIn (sink.completeAll (jobsHeld c.chips ++ c.queue) .discarded).events :
        Multiset Work) = Cycle.items (c.chips, c.cycle sink) := by
  show _ = (c.queue + jobsHeld c.chips + completedIn sink.events : Multiset Work)
  rw [completedIn_completeAll, ← Multiset.coe_add, Multiset.coe_reverse, ← Multiset.coe_add]
  abel

theorem items_withoutJobs (c : Chain τ) (sink : Sink) (bus : Bus τ) :
    Cycle.items (withoutJobs c.chips, Chain.cycle { c with bus, queue := [] }
        (sink.completeAll (jobsHeld c.chips ++ c.queue) .discarded)) =
      Cycle.items (c.chips, c.cycle sink) := by
  show (([] : List Work) : Multiset Work) + jobsHeld (withoutJobs c.chips) +
    completedIn (sink.completeAll (jobsHeld c.chips ++ c.queue) .discarded).events = _
  rw [jobsHeld_withoutJobs, completedIn_reclaimed, Multiset.coe_nil, zero_add, zero_add]

variable [Channel τ]

theorem items_scan (c : Chain τ) (sink : Sink) (overview : Thermal.Overview) (now : Nat) :
    Cycle.items ((c.scan sink overview now).chain.chips,
        (c.scan sink overview now).chain.cycle (c.scan sink overview now).sink) =
      Cycle.items (c.chips, c.cycle sink) :=
  c.scan_induction sink overview now
    (fun p => Cycle.items p = Cycle.items (c.chips, c.cycle sink))
    (fun _ _ _ hstep hp => hstep.items_eq.trans hp) (fun _ _ _ hp => hp) rfl

end Chain

/-! ### Runs -/

namespace Service

variable {τ : Type} [Channel τ] {s : Service τ}

/-- The accepted items are those that the chain and its sink hold, and none was submitted after it
came back. -/
structure Balanced (s : Service τ) : Prop where
  items : Cycle.items (s.chain.chips, s.chain.cycle s.sink) = s.accepted
  inTime : SubmittedInTime s.accepted s.sink.events

theorem Balanced.offer (h : Balanced s) (work : Work) : Balanced (s.after (.offer work)) := by
  rcases s.after_offer work with ⟨_, heq⟩ | ⟨_, heq⟩
  · rw [heq]
    exact ⟨h.items, h.inTime⟩
  · rw [heq]
    refine ⟨?_, h.inTime.mono (List.sublist_cons_self work s.accepted).subperm⟩
    show Cycle.items (s.chain.chips, Chain.cycle { s.chain with queue := s.chain.queue ++ [work] }
      s.sink) = (work :: s.accepted : List Work)
    rw [Chain.items_queue, h.items, Multiset.coe_singleton, Multiset.singleton_add,
      Multiset.cons_coe]

theorem Balanced.scan (h : Balanced s) (overview : Thermal.Overview) (now : Nat) :
    Balanced (s.after (.scan overview now)) := by
  have hscan := s.chain.scan_induction s.sink overview now
    (fun p => Cycle.items p = s.accepted ∧ SubmittedInTime s.accepted p.2.sink.events)
    (fun _ p q hstep hp => ⟨hstep.items_eq.trans hp.1, hstep.submittedInTime hp.1 hp.2⟩)
    (fun _ _ _ hp => hp) ⟨h.items, h.inTime⟩
  exact ⟨hscan.1, hscan.2⟩

theorem Balanced.reclaim (h : Balanced s) : Balanced (s.after .reclaim) := by
  obtain ⟨bus, _, hafter⟩ := s.after_reclaim
  rw [hafter]
  exact ⟨(s.chain.items_withoutJobs s.sink bus).trans h.items,
    h.inTime.returned ((Sink.Returned.refl _).completeAll _ _)⟩

theorem Reachable.balanced (h : Reachable s) : Balanced s := by
  induction h with
  | @detected _ _ _ found hfound id options schedule power publishes judge =>
    obtain ⟨_, hslots, _⟩ := Detection.detect_numbered hfound
    have hheld : jobsHeld found.chips = [] :=
      List.flatMap_eq_nil_iff.2 fun chip hmem => by rw [hslots chip hmem]; rfl
    refine ⟨?_, .nil _⟩
    show (([] : List Work) : Multiset Work) + jobsHeld found.chips + completedIn [] = ([] : List Work)
    rw [hheld]
    rfl
  | after _ request ih =>
    cases request with
    | offer work => exact ih.offer work
    | scan overview now => exact ih.scan overview now
    | reclaim => exact ih.reclaim

/-- The accepted items are, each as often as it was accepted, those in the queue, in the slots and
with the sink; a refused item is in none of these places, and a nonce is never submitted for an item
that came back. -/
theorem Reachable.work_conserved (h : Reachable s) :
    s.accepted.Perm (s.chain.queue ++ jobsHeld s.chain.chips ++ completedIn s.sink.events) ∧
      (s.accepted.Nodup →
        (s.chain.queue ++ jobsHeld s.chain.chips ++ completedIn s.sink.events).Nodup ∧
          ∀ later work chip nonce valid earlier,
            s.sink.events = later ++ .submitted work chip nonce valid :: earlier →
              work ∉ completedIn earlier) ∧
      (∀ work ∈ s.refused, work ∉ s.accepted →
        work ∉ s.chain.queue ++ jobsHeld s.chain.chips ++ completedIn s.sink.events) ∧
      SubmittedInTime s.accepted s.sink.events := by
  have hb := h.balanced
  have hitems : (s.chain.queue : Multiset Work) + jobsHeld s.chain.chips +
      completedIn s.sink.events = s.accepted := hb.items
  have hperm : s.accepted.Perm
      (s.chain.queue ++ jobsHeld s.chain.chips ++ completedIn s.sink.events) := by
    apply Multiset.coe_eq_coe.1
    rw [← hitems, Multiset.coe_add, Multiset.coe_add]
  refine ⟨hperm, ?_, ?_, hb.inTime⟩
  · intro hnodup
    refine ⟨hperm.nodup_iff.1 hnodup, ?_⟩
    intro later work chip nonce valid earlier heq
    obtain ⟨works, hsame, hsub⟩ := hb.inTime later work chip nonce valid earlier heq
    exact (List.nodup_cons.1 (hsame.nodup_iff.1 (hsub.nodup hnodup))).1
  · intro work _ hnot hmem
    exact hnot (hperm.mem_iff.2 hmem)

theorem work_conserved_of_one_job : ∃ s : Service Script, Reachable s ∧
    s.accepted.length = 2 ∧ s.chain.queue.length = 1 ∧ (jobsHeld s.chain.chips).length = 1 ∧
      s.accepted.Perm (s.chain.queue ++ jobsHeld s.chain.chips ++ completedIn s.sink.events) := by
  let requests : List Request :=
    [.offer (KnownAnswer.work 0), .offer (KnownAnswer.work 1), .scan .empty 0]
  have hany : ((ofBus? (oneChip [[], chipReply false, [], chipReply true]) 60000).any fun s =>
      decide ((s.run requests).accepted.length = 2 ∧ (s.run requests).chain.queue.length = 1 ∧
        (jobsHeld (s.run requests).chain.chips).length = 1)) = true := by
    decide +kernel
  obtain ⟨s, hs, hcheck⟩ := (Option.any_eq_true _ _).1 hany
  have hreach := (reachable_of_ofBus? hs).run requests
  obtain ⟨haccepted, hqueue, hheld⟩ := of_decide_eq_true hcheck
  exact ⟨_, hreach, haccepted, hqueue, hheld, hreach.work_conserved.1⟩

end Service

end HashBoard
