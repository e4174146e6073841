import HashBoard.Proofs.Chain.DispatchPass

/-!
# The order of the queue

An offer is taken while the queue holds fewer than two items for each chip that is not disabled,
and its item goes to the end of the queue. Scans take items from the head, each for a job that they
write, and a reclaim empties the queue. Between two reclaims items therefore leave the queue in the
order in which they came, whichever chips are disabled meanwhile.
-/

namespace HashBoard

open Bus Wire

/-- The frame is that of a job for the item, to one of these chips. -/
def IsJobOf (g : Generation) (options : DrivingOptions) (ids : List UInt8) (frame : Bytes)
    (work : Work) : Prop :=
  ∃ id ∈ ids, ∃ place, frame = jobFor g options id (JobSlots.slotAt place) work

/-- Items are taken from the head of a queue and a job is written for each of them, in this order;
nothing else is taken, and no other job is written. -/
structure HandsOut {τ : Type} (g : Generation) (options : DrivingOptions) (ids : List UInt8)
    (taken : List Work) (frames : List Bytes) (queue : List Work) (bus : Bus τ)
    (queue' : List Work) (bus' : Bus τ) : Prop where
  queue : queue = taken ++ queue'
  jobFrames : bus'.jobFrames = frames.reverse ++ bus.jobFrames
  inOrder : List.Forall₂ (IsJobOf g options ids) frames taken

namespace HandsOut

variable {τ : Type} {g : Generation} {options : DrivingOptions} {ids : List UInt8}
  {taken taken' queue queue' queue'' : List Work} {frames frames' : List Bytes}
  {bus bus' bus'' : Bus τ}

theorem nothing (h : JobFree bus bus') : HandsOut g options ids [] [] queue bus queue bus' where
  queue := rfl
  jobFrames := h
  inOrder := .nil

theorem trans (h : HandsOut g options ids taken frames queue bus queue' bus')
    (h' : HandsOut g options ids taken' frames' queue' bus' queue'' bus'') :
    HandsOut g options ids (taken ++ taken') (frames ++ frames') queue bus queue'' bus'' where
  queue := by rw [h.queue, h'.queue, List.append_assoc]
  jobFrames := by rw [h'.jobFrames, h.jobFrames, List.reverse_append, List.append_assoc]
  inOrder := List.rel_append h.inOrder h'.inOrder

/-- What comes to the end of the queue stays there. -/
theorem followed (h : HandsOut g options ids taken frames queue bus queue' bus')
    (more : List Work) :
    HandsOut g options ids taken frames (queue ++ more) bus (queue' ++ more) bus' where
  queue := by rw [h.queue, List.append_assoc]
  jobFrames := h.jobFrames
  inOrder := h.inOrder

theorem isSuffix (h : HandsOut g options ids taken frames queue bus queue' bus') :
    queue' <:+ queue := ⟨taken, h.queue.symm⟩

end HandsOut

/-! ### Scans -/

namespace Cycle

variable {τ : Type}

@[simp] theorem retire_queue (cy : Cycle τ) (previous : Option Work) :
    (cy.retire previous).queue = cy.queue := by
  cases previous <;> rfl

theorem credit_queue (result : FoundNonce) (chip : Chip) (cy : Cycle τ) :
    (credit result chip cy).2.queue = cy.queue := by
  rcases credit_cases result chip cy with ⟨_, _, _, h⟩ | ⟨_, _, _, _, h⟩
  · rw [h]
    rfl
  · rw [h]
    rfl

variable [Channel τ] {options : DrivingOptions} {now : Nat} {round : Round}

/-- One job is written for an item that is sent, whether the chip gets it or not. -/
theorem sendJob_jobFrames {chip : Chip} {work : Work} {bus bus' : Bus τ}
    {answer : Except ExchangeError Unit}
    (h : (sendJob ((nextJob options work chip).frame bus.generation.jobCrc)).runOn bus =
      (answer, bus')) :
    bus'.jobFrames = jobFor bus.generation options chip.id (JobSlots.slotAt chip.slots.cursor) work ::
      bus.jobFrames := by
  obtain ⟨job, acks, hjob, hacks, hex⟩ := sendJob_transmissions h
  have hframe : job.frame =
      jobFor bus.generation options chip.id (JobSlots.slotAt chip.slots.cursor) work := hjob
  have hreads : (acks.map Transmission.frame).filter isJobFrame = [] := by
    simp only [List.filter_eq_nil_iff, List.forall_mem_map]
    intro ack hack
    rw [hacks ack hack, isJobFrame_readFrame]
    exact Bool.false_ne_true
  simp [hex.jobFrames_eq, hreads, hframe, isJobFrame_jobFor]

/-- A step that takes the head of the queue writes one job, for the slot under the cursor of its chip.
Any other step writes none, and the slots stay or are given up. -/
theorem ChipStep.written_cases {chip chip' : Chip} {cy cy' : Cycle τ}
    (h : ChipStep options now round chip cy chip' cy') :
    (cy'.queue = cy.queue ∧ JobFree cy.bus cy'.bus ∧
        (chip'.slots = chip.slots ∨ chip'.slots = .empty)) ∨
      ∃ work, cy.queue = work :: cy'.queue ∧ cy'.bus.jobFrames =
        jobFor cy.bus.generation options chip.id (JobSlots.slotAt chip.slots.cursor) work ::
          cy.bus.jobFrames := by
  cases h with
  | measured _ hread => exact .inl ⟨rfl, fetchRegister_jobFree hread, .inl rfl⟩
  | probed _ hread => exact .inl ⟨rfl, fetchRegister_jobFree hread, .inl rfl⟩
  | missed _ hread =>
    rw [fail_queue, fail_bus]
    exact .inl ⟨rfl, fetchRegister_jobFree hread, fail_slots ..⟩
  | sent _ _ _ hqueue hjob =>
    simp only [count, retire_bus, retire_queue]
    exact .inr ⟨_, hqueue, sendJob_jobFrames hjob⟩
  | unsent _ _ _ hqueue hjob =>
    rw [fail_queue, fail_bus]
    exact .inr ⟨_, hqueue, sendJob_jobFrames hjob⟩
  | recovered _ hread => exact .inl ⟨rfl, fetchRegister_jobFree hread, .inl rfl⟩
  | missedAgain _ hread =>
    rw [fail_queue, fail_bus]
    exact .inl ⟨rfl, fetchRegister_jobFree hread, fail_slots ..⟩

theorem ChipStep.handsOut {chip chip' : Chip} {cy cy' : Cycle τ} {ids : List UInt8}
    (h : ChipStep options now round chip cy chip' cy') (hmem : chip.id ∈ ids) : ∃ taken frames,
    HandsOut cy.bus.generation options ids taken frames cy.queue cy.bus cy'.queue cy'.bus := by
  rcases h.written_cases with ⟨hqueue, hfree, _⟩ | ⟨work, hqueue, hjob⟩
  · rw [hqueue]
    exact ⟨_, _, .nothing hfree⟩
  · exact ⟨[work], [_], hqueue, hjob, .cons ⟨chip.id, hmem, _, rfl⟩ .nil⟩

theorem Step.handsOut {p q : Moment τ} (h : Step options now round p q) : ∃ taken frames,
    HandsOut p.2.bus.generation options (p.1.map Chip.id) taken frames p.2.queue p.2.bus
      q.2.queue q.2.bus := by
  cases h with
  | chip hchip => exact hchip.handsOut (List.mem_map_of_mem List.mem_append_cons_self)
  | listened hread _ _ => exact ⟨_, _, .nothing (fetchResult_jobFree hread)⟩
  | spoilt hread => exact ⟨_, _, .nothing (fetchResult_jobFree hread)⟩
  | dropped hread _ => exact ⟨_, _, .nothing (fetchResult_jobFree hread)⟩
  | credited hread _ _ _ =>
    rw [credit_queue, (credit_keeps ..).2.1]
    exact ⟨_, _, .nothing (fetchResult_jobFree hread)⟩

end Cycle

namespace Chain

open HashBoard.Cycle

variable {τ : Type} [Channel τ]

theorem scan_handsOut (c : Chain τ) (sink : Sink) (overview : Thermal.Overview) (now : Nat) :
    let scanned := c.scan sink overview now
    scanned.chain.generation = c.generation ∧
      scanned.chain.chips.map Chip.id = c.chips.map Chip.id ∧
      ∃ taken frames, HandsOut c.generation c.options (c.chips.map Chip.id) taken frames
        c.queue c.bus scanned.chain.queue scanned.chain.bus := by
  refine c.scan_induction sink overview now (fun p => p.2.bus.generation = c.generation ∧
    p.1.map Chip.id = c.chips.map Chip.id ∧ ∃ taken frames, HandsOut c.generation c.options
      (c.chips.map Chip.id) taken frames c.queue c.bus p.2.queue p.2.bus) ?_ ?_
    ⟨rfl, rfl, [], [], .nothing rfl⟩
  · rintro round p q hstep ⟨hgeneration, hids, taken, frames, hsofar⟩
    obtain ⟨taken', frames', hmore⟩ := hstep.handsOut
    rw [hgeneration, hids] at hmore
    exact ⟨(Move.generation (.step hstep)).trans hgeneration, hstep.ids_eq.trans hids, _, _,
      hsofar.trans hmore⟩
  · exact fun _ _ _ h => h

end Chain

/-! ### Requests -/

namespace Service

variable {τ : Type} {s : Service τ}

theorem offer_taken_iff (s : Service τ) (work : Work) : (s.chain.offer work).1 = true ↔
    s.chain.queue.length < 2 * s.chain.usableChips := by
  have hcapacity : s.chain.capacity = 2 * s.chain.usableChips := rfl
  rw [Chain.offer, hcapacity]
  by_cases hfull : 2 * s.chain.usableChips ≤ s.chain.queue.length
  · simp [hfull]
  · simp [hfull]
    omega

variable [Channel τ]

theorem after_taken {work : Work} (h : (s.chain.offer work).1 = true) :
    s.after (.offer work) = { s with
      chain := { s.chain with queue := s.chain.queue ++ [work] }
      accepted := work :: s.accepted } := by
  have hroom : s.chain.queue.length < s.chain.capacity := (s.offer_taken_iff work).1 h
  rcases s.after_offer work with ⟨hfull, _⟩ | ⟨_, heq⟩
  · omega
  · exact heq

theorem after_refused {work : Work} (h : (s.chain.offer work).1 = false) :
    (s.chain.offer work).2 = s.chain ∧
      s.after (.offer work) = { s with refused := work :: s.refused } := by
  have hfull : ¬s.chain.queue.length < s.chain.capacity := fun hroom => by
    rw [(s.offer_taken_iff work).2 hroom] at h
    cases h
  refine ⟨?_, ?_⟩
  · rw [Chain.offer, if_pos (by omega)]
  · rcases s.after_offer work with ⟨_, heq⟩ | ⟨hroom, _⟩
    · exact heq
    · exact absurd hroom hfull

/-- Only an offer that is taken makes the queue longer. -/
theorem after_queue (s : Service τ) (request : Request) :
    (∃ work, request = .offer work ∧ (s.after request).accepted = work :: s.accepted) ∨
      ((s.after request).accepted = s.accepted ∧
        (s.after request).chain.queue <:+ s.chain.queue) := by
  cases request with
  | offer work =>
    rcases s.after_offer work with ⟨_, heq⟩ | ⟨_, heq⟩
    · rw [heq]
      exact .inr ⟨rfl, List.suffix_refl _⟩
    · rw [heq]
      exact .inl ⟨work, rfl, rfl⟩
  | scan overview now =>
    obtain ⟨_, _, _, _, hscan⟩ := s.chain.scan_handsOut s.sink overview now
    exact .inr ⟨rfl, hscan.isSuffix⟩
  | reclaim =>
    obtain ⟨bus, _, heq⟩ := s.after_reclaim
    rw [heq]
    exact .inr ⟨rfl, List.nil_suffix⟩

/-- Unless an item was taken in a run, what is left of the queue was there before. -/
theorem run_queue (s : Service τ) (requests : List Request) : ∃ newly,
    (s.run requests).accepted = newly ++ s.accepted ∧
      (newly = [] → (s.run requests).chain.queue <:+ s.chain.queue) := by
  induction requests generalizing s with
  | nil => exact ⟨[], rfl, fun _ => List.suffix_refl _⟩
  | cons request rest ih =>
    obtain ⟨newly, haccepted, hqueue⟩ := ih (s.after request)
    have hrun : s.run (request :: rest) = (s.after request).run rest := rfl
    rw [hrun, haccepted]
    rcases s.after_queue request with ⟨work, _, hone⟩ | ⟨hnone, hsuffix⟩
    · refine ⟨newly ++ [work], ?_, fun h => ?_⟩
      · rw [hone, List.append_assoc]
        rfl
      · simp at h
    · rw [hnone]
      exact ⟨newly, rfl, fun h => (hqueue h).trans hsuffix⟩

/-- Between two reclaims the items taken from the queue are the first of those that were in it or
came to it, in order. -/
theorem run_handsOut (s : Service τ) {requests : List Request} (hkept : .reclaim ∉ requests) :
    ∃ newly taken frames, (s.run requests).accepted = newly.reverse ++ s.accepted ∧
      HandsOut s.chain.generation s.chain.options (s.chain.chips.map Chip.id) taken frames
        (s.chain.queue ++ newly) s.chain.bus
        (s.run requests).chain.queue (s.run requests).chain.bus := by
  induction requests generalizing s with
  | nil =>
    refine ⟨[], [], [], rfl, ?_⟩
    rw [List.append_nil]
    exact .nothing rfl
  | cons request rest ih =>
    obtain ⟨hhead, hrest⟩ := List.ne_and_not_mem_of_not_mem_cons hkept
    have hrun : s.run (request :: rest) = (s.after request).run rest := rfl
    obtain ⟨newly, taken, frames, haccepted, hout⟩ := ih (s.after request) hrest
    rw [hrun, haccepted]
    cases request with
    | offer work =>
      rcases s.after_offer work with ⟨_, heq⟩ | ⟨_, heq⟩
      · rw [heq] at hout ⊢
        exact ⟨newly, taken, frames, rfl, hout⟩
      · rw [heq] at hout ⊢
        refine ⟨work :: newly, taken, frames, ?_, ?_⟩
        · simp
        · rw [← List.append_cons] at hout
          exact hout
    | scan overview now =>
      obtain ⟨hgeneration, hids, taken', frames', hscan⟩ :=
        s.chain.scan_handsOut s.sink overview now
      have hoptions := s.chain.scan_options s.sink overview now
      have hafter : (s.after (.scan overview now)).chain =
        (s.chain.scan s.sink overview now).chain := rfl
      rw [hafter, hgeneration, hids, hoptions] at hout
      exact ⟨newly, _, _, rfl, (hscan.followed newly).trans hout⟩
    | reclaim => exact absurd rfl hhead

theorem Reachable.queue_eq_nil (h : Reachable s) (hnone : s.accepted = []) :
    s.chain.queue = [] := by
  induction h with
  | detected _ _ _ _ _ _ _ => rfl
  | @after s _ request ih =>
    rcases s.after_queue request with ⟨work, _, hone⟩ | ⟨hsame, hsuffix⟩
    · rw [hone] at hnone
      cases hnone
    · rw [ih (hsame ▸ hnone)] at hsuffix
      exact List.suffix_nil.1 hsuffix

/-- An offer is taken exactly when the queue holds fewer than two items for each chip that is not
disabled, and otherwise nothing changes but that the item is refused. Nothing else lengthens the
queue, so it stays within the bound of the last offer that was taken. And until a reclaim, the items
taken out of the queue, each for one job, are the oldest in it, in the order of their offers. -/
theorem Reachable.queue_in_order (h : Reachable s) :
    (∀ work,
      ((s.chain.offer work).1 = true ↔ s.chain.queue.length < 2 * s.chain.usableChips) ∧
      ((s.chain.offer work).1 = true → s.after (.offer work) = { s with
        chain := { s.chain with queue := s.chain.queue ++ [work] }
        accepted := work :: s.accepted }) ∧
      ((s.chain.offer work).1 = false → (s.chain.offer work).2 = s.chain ∧
        s.after (.offer work) = { s with refused := work :: s.refused })) ∧
    (∀ request, (∀ work, request ≠ .offer work) →
      (s.after request).chain.queue <:+ s.chain.queue) ∧
    (s.accepted = [] → s.chain.queue = []) ∧
    (∀ work requests, (s.chain.offer work).1 = true →
      ((s.after (.offer work)).run requests).accepted = work :: s.accepted →
      ((s.after (.offer work)).run requests).chain.queue.length ≤ 2 * s.chain.usableChips) ∧
    ∀ requests, .reclaim ∉ requests → ∃ newly taken frames,
      (s.run requests).accepted = newly.reverse ++ s.accepted ∧
      HandsOut s.chain.generation s.chain.options (s.chain.chips.map Chip.id) taken frames
        (s.chain.queue ++ newly) s.chain.bus
        (s.run requests).chain.queue (s.run requests).chain.bus := by
  refine ⟨fun work => ⟨s.offer_taken_iff work, after_taken, after_refused⟩, ?_, h.queue_eq_nil, ?_,
    fun requests => s.run_handsOut⟩
  · intro request hother
    rcases s.after_queue request with ⟨work, hoffer, _⟩ | ⟨_, hsuffix⟩
    · exact absurd hoffer (hother work)
    · exact hsuffix
  · intro work requests htaken hlast
    obtain ⟨newly, haccepted, hqueue⟩ := (s.after (.offer work)).run_queue requests
    have hroom := (s.offer_taken_iff work).1 htaken
    rw [hlast, after_taken htaken, List.self_eq_append_left] at haccepted
    have hlength := (hqueue haccepted).length_le
    have hone : (s.after (.offer work)).chain.queue.length = s.chain.queue.length + 1 := by
      rw [after_taken htaken]
      simp
    omega

/-- The third of three offers is refused; two items leave the queue in two scans, in order, and the
one that came between the scans is left. -/
theorem queue_in_order_of_four_offers : ∃ s : Service Script, Reachable s ∧ ∃ requests newly taken
    frames, .reclaim ∉ requests ∧ (s.run requests).accepted = newly.reverse ++ s.accepted ∧
      HandsOut s.chain.generation s.chain.options (s.chain.chips.map Chip.id) taken frames
        (s.chain.queue ++ newly) s.chain.bus
        (s.run requests).chain.queue (s.run requests).chain.bus ∧
      (s.run requests).refused.map Work.header = [.replicate 76 3] ∧
      (s.run requests).accepted.map Work.header =
        [.replicate 76 4, .replicate 76 2, .replicate 76 1] ∧
      (s.run requests).chain.queue.map Work.header = [.replicate 76 4] := by
  let taken : List Bytes := [[], chipReply false, [], chipReply true]
  let requests : List Request :=
    [.offer (itemOf 1), .offer (itemOf 2), .offer (itemOf 3), .scan .empty 0, .offer (itemOf 4),
     .scan .empty 0]
  have hany : ((ofBus? (oneChip (taken ++ taken)) 60000).any fun s =>
      decide ((s.run requests).refused.map Work.header = [.replicate 76 3] ∧
        (s.run requests).accepted.map Work.header =
          [.replicate 76 4, .replicate 76 2, .replicate 76 1] ∧
        (s.run requests).chain.queue.map Work.header = [.replicate 76 4])) = true := by
    decide +kernel
  obtain ⟨s, hs, hcheck⟩ := (Option.any_eq_true _ _).1 hany
  have hkept : .reclaim ∉ requests := by simp [requests]
  obtain ⟨_, _, _, _, horder⟩ := (reachable_of_ofBus? hs).queue_in_order
  obtain ⟨newly, taken, frames, haccepted, hout⟩ := horder requests hkept
  exact ⟨s, reachable_of_ofBus? hs, requests, newly, taken, frames, hkept, haccepted, hout,
    of_decide_eq_true hcheck⟩

end Service

end HashBoard
