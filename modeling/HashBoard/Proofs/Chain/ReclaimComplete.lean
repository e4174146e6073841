import HashBoard.Proofs.Chain.QueueOrder
import Mathlib.Algebra.GroupWithZero.Nat

/-!
# Complete reclaims

A reclaim hands back every item of a chain whatever happens on the bus, and leaves the chips as they
are but for their slots. These start anew: the first job that is written to a chip after a reclaim is
for its first slot.
-/

namespace HashBoard

open Bus Wire

theorem JobSlots.length_toList {α : Type} (t : JobSlots α) : t.toList.length = t.held :=
  List.length_filterMap_eq_countP

theorem length_jobsHeld (chips : List Chip) :
    (jobsHeld chips).length = (chips.map fun chip => chip.slots.held).sum := by
  rw [jobsHeld, List.length_flatMap]
  simp only [JobSlots.length_toList]

/-! ### Buses -/

namespace Bus

variable {τ : Type} [Channel τ] {bus after : Bus τ}

theorem emptyJobQueue_jobFree {address : UInt8} {answer : Except ExchangeError Unit}
    (h : (emptyJobQueue address).runOn bus = (answer, after)) : JobFree bus after := by
  obtain ⟨t, ht, hex⟩ := emptyJobQueue_exchanged h
  rcases hex with hex | ⟨r, hr, hex⟩
  · exact .of_one hex ht (by decide)
  · have hreset : isJobFrame t.frame = false := by
      rw [ht]
      exact isJobFrame_code (by decide) _
    simp [JobFree, hex.jobFrames_eq, hr, hreset, isJobFrame_readFrame]

end Bus

theorem Chain.reclaimChips_jobFree {τ : Type} [Channel τ] (reset : Bool) (chips : List Chip)
    (bus : Bus τ) (sink : Sink) (n : Nat) :
    JobFree bus (reclaimChips reset chips bus sink n).2.1 := by
  induction chips generalizing bus sink n with
  | nil => rfl
  | cons chip rest ih =>
    refine JobFree.trans ?_ (ih _ _ _)
    by_cases hreset : (reset && chip.condition.isActive) = true
    · rw [if_pos hreset]
      exact emptyJobQueue_jobFree rfl
    · rw [if_neg hreset]
      rfl

/-! ### The first job of a chip -/

/-- The job frames that are for a chip. -/
def jobsTo (id : UInt8) (frames : List Bytes) : List Bytes :=
  frames.filter fun frame => Job.chipOf frame == id

/-- Of the jobs written, oldest first, the first one for this chip is for slot 1; as long as there is
none, all slots are empty. -/
def Restarted (frames : List Bytes) (chip : Chip) : Prop :=
  (jobsTo chip.id frames = [] ∧ chip.slots = .empty) ∨
    ∃ first later, jobsTo chip.id frames = first :: later ∧ Job.slotOf first = 1

namespace Restarted

variable {frames : List Bytes} {frame : Bytes} {chip chip' : Chip}

theorem quiet (h : Restarted frames chip) (hid : chip'.id = chip.id)
    (hslots : chip'.slots = chip.slots ∨ chip'.slots = .empty) : Restarted frames chip' := by
  rcases h with ⟨hnone, hempty⟩ | hfirst
  · refine .inl ⟨by rw [hid, hnone], ?_⟩
    rcases hslots with hsame | hempty'
    · rw [hsame, hempty]
    · exact hempty'
  · rw [← hid] at hfirst
    exact .inr hfirst

theorem elsewhere (h : Restarted frames chip) (hother : Job.chipOf frame ≠ chip.id) :
    Restarted (frames ++ [frame]) chip := by
  have hsame : jobsTo chip.id (frames ++ [frame]) = jobsTo chip.id frames := by
    simp [jobsTo, hother]
  rw [Restarted, hsame]
  exact h

theorem written (h : Restarted frames chip) (hid : chip'.id = chip.id)
    (hchip : Job.chipOf frame = chip.id)
    (hslot : Job.slotOf frame = JobSlots.slotAt chip.slots.cursor) :
    Restarted (frames ++ [frame]) chip' := by
  have hmore : jobsTo chip'.id (frames ++ [frame]) = jobsTo chip.id frames ++ [frame] := by
    simp [jobsTo, hid, hchip]
  rcases h with ⟨hnone, hempty⟩ | ⟨first, later, hfirst, hone⟩
  · refine .inr ⟨frame, [], ?_, ?_⟩
    · rw [hmore, hnone]
      rfl
    · rw [hslot, hempty]
      rfl
  · refine .inr ⟨first, later ++ [frame], ?_, hone⟩
    rw [hmore, hfirst]
    rfl

theorem slotOf_head (h : Restarted frames chip) :
    ∀ first ∈ (jobsTo chip.id frames).head?, Job.slotOf first = 1 := by
  intro first hmem
  rcases h with ⟨hnone, _⟩ | ⟨head, later, hfirst, hone⟩
  · rw [hnone] at hmem
    cases hmem
  · rw [hfirst] at hmem
    rw [← Option.some.inj hmem]
    exact hone

end Restarted

namespace Cycle

variable {τ : Type}

/-- What holds of the chips since some moment at which they held no jobs and the job frames `start`
were written. -/
structure RestartedSince (chips : List Chip) (start frames : List Bytes) (p : Moment τ) : Prop where
  ids : p.1.map Chip.id = chips.map Chip.id
  jobFrames : p.2.bus.jobFrames = frames.reverse ++ start
  chips : ∀ chip ∈ p.1, Restarted frames chip

variable {chips before after : List Chip} {chip chip' : Chip} {cy cy' : Cycle τ}
  {start frames : List Bytes}

theorem RestartedSince.quiet (h : RestartedSince chips start frames (before ++ chip :: after, cy))
    (hfree : JobFree cy.bus cy'.bus) (hid : chip'.id = chip.id)
    (hslots : chip'.slots = chip.slots ∨ chip'.slots = .empty) :
    RestartedSince chips start frames (before ++ chip' :: after, cy') where
  ids := by simpa [hid] using h.ids
  jobFrames := Eq.trans hfree h.jobFrames
  chips := by
    have hchips := h.chips
    simp only [List.forall_mem_append, List.forall_mem_cons] at hchips ⊢
    exact ⟨hchips.1, hchips.2.1.quiet hid hslots, hchips.2.2⟩

theorem RestartedSince.written
    (h : RestartedSince chips start frames (before ++ chip :: after, cy)) (hnum : Numbered chips)
    (hid : chip'.id = chip.id) {frame : Bytes} (hjob : cy'.bus.jobFrames = frame :: cy.bus.jobFrames)
    (hchip : Job.chipOf frame = chip.id)
    (hslot : Job.slotOf frame = JobSlots.slotAt chip.slots.cursor) :
    RestartedSince chips start (frames ++ [frame]) (before ++ chip' :: after, cy') where
  ids := by simpa [hid] using h.ids
  jobFrames := by
    rw [hjob, h.jobFrames, List.reverse_append]
    rfl
  chips := by
    have hothers : ∀ other ∈ before ++ after, Restarted frames other →
        Restarted (frames ++ [frame]) other := by
      intro other hmem hother
      apply hother.elsewhere
      rw [hchip]
      exact ((hnum.of_ids_eq h.ids).id_ne_of_mem hmem).symm
    have hchips := h.chips
    simp only [List.forall_mem_append, List.forall_mem_cons] at hchips hothers ⊢
    exact ⟨fun other hmem => hothers.1 other hmem (hchips.1 other hmem),
      hchips.2.1.written hid hchip hslot,
      fun other hmem => hothers.2 other hmem (hchips.2.2 other hmem)⟩

variable [Channel τ] {options : DrivingOptions} {now : Nat} {round : Round} {p q : Moment τ}

theorem Step.restartedSince (hnum : Numbered chips) (h : Step options now round p q)
    (hp : RestartedSince chips start frames p) :
    ∃ frames', RestartedSince chips start frames' q := by
  have hquiet {cs : List Chip} {cy cy' : Cycle τ} (hfree : JobFree cy.bus cy'.bus)
      (hp : RestartedSince chips start frames (cs, cy)) :
      RestartedSince chips start frames (cs, cy') :=
    ⟨hp.ids, Eq.trans hfree hp.jobFrames, hp.chips⟩
  cases h with
  | chip hchip =>
    rcases hchip.written_cases with ⟨_, hfree, hslots⟩ | ⟨work, _, hjob⟩
    · exact ⟨frames, hp.quiet hfree hchip.id_eq hslots⟩
    · exact ⟨_, hp.written hnum hchip.id_eq hjob (chipOf_jobBytes ..)
        ((slotOf_jobBytes ..).trans (firstByte_slotAt _).2)⟩
  | listened hread _ _ => exact ⟨frames, hquiet (fetchResult_jobFree hread) hp⟩
  | spoilt hread => exact ⟨frames, hquiet (fetchResult_jobFree hread) hp⟩
  | dropped hread _ => exact ⟨frames, hquiet (fetchResult_jobFree hread) hp⟩
  | @credited before after chip cy result bus hread _ _ _ =>
    obtain ⟨⟨stats, hsame⟩, hbus, _⟩ := credit_keeps result chip
      (count { cy with bus } fun r => { r with results := r.results + 1 })
    refine ⟨frames, hp.quiet ?_ (credit_id ..) (.inl (by rw [hsame]))⟩
    rw [hbus]
    exact fetchResult_jobFree hread

end Cycle

/-! ### Reclaims -/

namespace Service

open HashBoard.Cycle

variable {τ : Type} [Channel τ] {s : Service τ} {chips : List Chip} {start frames : List Bytes}

theorem reclaim_jobFree (s : Service τ) :
    JobFree s.chain.bus (s.after .reclaim).chain.bus :=
  Chain.reclaimChips_jobFree s.chain.options.resetQueuesOnReclaim s.chain.chips s.chain.bus s.sink 0

theorem reclaim_chips (s : Service τ) :
    (s.after .reclaim).chain.chips = withoutJobs s.chain.chips := by
  obtain ⟨bus, _, heq⟩ := s.after_reclaim
  rw [heq]

theorem after_restartedSince (hnum : Numbered chips)
    (h : RestartedSince chips start frames s.moment) (request : Request) :
    ∃ frames', RestartedSince chips start frames' (s.after request).moment := by
  cases request with
  | offer work =>
    rcases s.after_offer work with ⟨_, heq⟩ | ⟨_, heq⟩
    · rw [heq]
      exact ⟨frames, h⟩
    · rw [heq]
      exact ⟨frames, h.ids, h.jobFrames, h.chips⟩
  | scan overview now =>
    refine s.chain.scan_induction s.sink overview now
      (fun p => ∃ frames', RestartedSince chips start frames' p) ?_ ?_
      ⟨frames, h.ids, h.jobFrames, h.chips⟩
    · exact fun round p q hstep ⟨_, hp⟩ => hstep.restartedSince hnum hp
    · exact fun _ _ _ ⟨frames', hp⟩ => ⟨frames', hp.ids, hp.jobFrames, hp.chips⟩
  | reclaim =>
    refine ⟨frames, ?_, Eq.trans s.reclaim_jobFree h.jobFrames, ?_⟩
    · show (s.after .reclaim).chain.chips.map Chip.id = _
      rw [s.reclaim_chips, ids_withoutJobs]
      exact h.ids
    · show ∀ chip ∈ (s.after .reclaim).chain.chips, Restarted frames chip
      rw [s.reclaim_chips]
      intro chip' hmem
      obtain ⟨chip, hchip, rfl⟩ := List.mem_map.1 hmem
      exact (h.chips chip hchip).quiet rfl (.inr rfl)

theorem run_restartedSince (hnum : Numbered chips)
    (h : RestartedSince chips start frames s.moment) (requests : List Request) :
    ∃ frames', RestartedSince chips start frames' (s.run requests).moment := by
  induction requests generalizing s frames with
  | nil => exact ⟨frames, h⟩
  | cons request rest ih =>
    obtain ⟨frames', hnext⟩ := after_restartedSince hnum h request
    exact ih hnext

theorem reclaim_restarts (s : Service τ) : RestartedSince s.chain.chips
    (s.after .reclaim).chain.bus.jobFrames [] (s.after .reclaim).moment where
  ids := by
    show (s.after .reclaim).chain.chips.map Chip.id = _
    rw [s.reclaim_chips, ids_withoutJobs]
  jobFrames := rfl
  chips := by
    show ∀ chip ∈ (s.after .reclaim).chain.chips, Restarted [] chip
    rw [s.reclaim_chips]
    intro chip' hmem
    obtain ⟨chip, _, rfl⟩ := List.mem_map.1 hmem
    exact .inl ⟨rfl, rfl⟩

/-- A reclaim returns the number of jobs held and items queued, and hands exactly these back as
discarded, each once. Whatever the bus does, it leaves the chain as it was but for the bus, the queue
and the slots, which are empty, so another reclaim finds nothing. However the chain is used from then
on, the first job written to a chip is for slot 1. -/
theorem Reachable.reclaim_complete (h : Reachable s) :
    let reclaimed := s.chain.reclaim s.sink
    reclaimed.1 = (s.chain.chips.map fun chip => chip.slots.held).sum + s.chain.queue.length ∧
    reclaimed.2.2.events = ((jobsHeld s.chain.chips ++ s.chain.queue).map
      (SinkEvent.completed · .discarded)).reverse ++ s.sink.events ∧
    (∃ bus, reclaimed.2.1 =
      { s.chain with chips := withoutJobs s.chain.chips, queue := [], bus }) ∧
    (∀ chip ∈ reclaimed.2.1.chips, chip.slots = .empty) ∧
    (∀ sink, (reclaimed.2.1.reclaim sink).1 = 0 ∧ (reclaimed.2.1.reclaim sink).2.2 = sink) ∧
    ∀ requests, ∃ frames,
      ((s.after .reclaim).run requests).chain.bus.jobFrames =
        frames.reverse ++ reclaimed.2.1.bus.jobFrames ∧
      ∀ chip ∈ s.chain.chips, ∀ first ∈ (jobsTo chip.id frames).head?, Job.slotOf first = 1 := by
  intro reclaimed
  obtain ⟨bus, _, heq⟩ := s.chain.reclaim_eq s.sink
  have hreclaimed : reclaimed = (_, _, _) := heq
  refine ⟨?_, ?_, ⟨bus, ?_⟩, ?_, ?_, ?_⟩
  · rw [hreclaimed, length_jobsHeld]
  · rw [hreclaimed, Sink.completeAll_events]
  · rw [hreclaimed]
  · rw [hreclaimed]
    exact List.forall_mem_map.2 fun _ _ => rfl
  · intro sink
    obtain ⟨bus', _, hagain⟩ := reclaimed.2.1.reclaim_eq sink
    rw [hagain, hreclaimed, jobsHeld_withoutJobs]
    exact ⟨rfl, rfl⟩
  · intro requests
    obtain ⟨frames, hsince⟩ := run_restartedSince h.sound.numbered s.reclaim_restarts requests
    refine ⟨frames, hsince.jobFrames, fun chip hmem => ?_⟩
    have hid : chip.id ∈ ((s.after .reclaim).run requests).moment.1.map Chip.id := by
      rw [hsince.ids]
      exact List.mem_map_of_mem hmem
    obtain ⟨later, hlater, hsame⟩ := List.mem_map.1 hid
    rw [← hsame]
    exact (hsince.chips later hlater).slotOf_head

/-- A job and a waiting item come back though the chip does not empty its job queue; the next job goes
to slot 1 and not to slot 2. -/
theorem reclaim_complete_of_failed_reset : ∃ s : Service Script, Reachable s ∧
    s.chain.options.resetQueuesOnReclaim = true ∧
    ((emptyJobQueue 1).runOn s.chain.bus).1.isOk = false ∧
    (s.chain.reclaim s.sink).1 = 2 ∧
    ∃ requests frames, ((s.after .reclaim).run requests).chain.bus.jobFrames =
        frames.reverse ++ (s.chain.reclaim s.sink).2.1.bus.jobFrames ∧
      (∀ chip ∈ s.chain.chips, ∀ first ∈ (jobsTo chip.id frames).head?, Job.slotOf first = 1) ∧
      ((s.after .reclaim).run requests).chain.bus.jobFrames.map Job.slotOf = [1, 1] := by
  let taken : List Bytes := [[], chipReply false, [], chipReply true]
  let filling : List Request := [.offer (itemOf 1), .offer (itemOf 2), .scan .empty 0]
  let requests : List Request := [.offer (itemOf 3), .scan .empty 0]
  have hany : ((ofBus? (oneChip (taken ++ [0xff] :: taken)) 60000).any fun s =>
      decide ((s.run filling).chain.options.resetQueuesOnReclaim = true ∧
        ((emptyJobQueue 1).runOn (s.run filling).chain.bus).1.isOk = false ∧
        ((s.run filling).chain.chips.map fun chip => chip.slots.held).sum +
          (s.run filling).chain.queue.length = 2 ∧
        (((s.run filling).after .reclaim).run requests).chain.bus.jobFrames.map Job.slotOf =
          [1, 1])) = true := by
    decide +kernel
  obtain ⟨s, hs, hcheck⟩ := (Option.any_eq_true _ _).1 hany
  obtain ⟨hoption, hreset, htwo, hslots⟩ := of_decide_eq_true hcheck
  have hreachable : Reachable (s.run filling) := (reachable_of_ofBus? hs).run filling
  obtain ⟨hcount, _, _, _, _, hfirst⟩ := hreachable.reclaim_complete
  obtain ⟨frames, hframes, hone⟩ := hfirst requests
  exact ⟨s.run filling, hreachable, hoption, hreset, hcount.trans htwo, requests, frames, hframes,
    hone, hslots⟩

end Service

end HashBoard
