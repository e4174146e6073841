import HashBoard.Proofs.Chain.Attribution
import HashBoard.Proofs.Chain.Succession
import HashBoard.Proofs.Chip.SlotOrder

/-!
# The record of the jobs

Which jobs the chips of a chain took since some moment, and which chips gave theirs up. The record
says which frames are on the wire, which items came back as consumed and what the slots hold: the
jobs of a chip go round its four slots from the first one on, and every job consumes the item of the
fourth job before it.
-/

namespace HashBoard

open Bus Wire

/-! ### Records -/

inductive Entry where
  | sent (chip : UInt8) (work : Work)
  | disabled (chip : UInt8)
  /-- All chips gave up their jobs. -/
  | reclaimed

def Entry.isReclaimed : Entry → Bool
  | reclaimed => true
  | _ => false

def Request.isReclaim : Request → Bool
  | reclaim => true
  | _ => false

/-- The items sent to a chip since it last gave up its jobs, latest first. A record has the latest
entry first, and `held` are the items from before it. -/
def jobsSince (held : UInt8 → List Work) : List Entry → UInt8 → List Work
  | [], chip => held chip
  | .sent other work :: older, chip =>
    if other = chip then work :: jobsSince held older chip else jobsSince held older chip
  | .disabled other :: older, chip => if other = chip then [] else jobsSince held older chip
  | .reclaimed :: _, _ => []

/-- The slot that the next job of a chip goes to. -/
def nextSlot (held : UInt8 → List Work) (record : List Entry) (chip : UInt8) : UInt8 :=
  UInt8.ofNat ((jobsSince held record chip).length % 4 + 1)

/-- The frames of the jobs of a record, latest first. -/
def framesOf (g : Generation) (options : DrivingOptions) (held : UInt8 → List Work) :
    List Entry → List Bytes
  | [] => []
  | .sent chip work :: older =>
    jobFor g options chip (nextSlot held older chip) work :: framesOf g options held older
  | .disabled _ :: older => framesOf g options held older
  | .reclaimed :: older => framesOf g options held older

/-- The items that the jobs of a record consumed, latest first. -/
def consumedBy (held : UInt8 → List Work) : List Entry → List Work
  | [] => []
  | .sent chip _ :: older => (jobsSince held older chip)[3]?.toList ++ consumedBy held older
  | .disabled _ :: older => consumedBy held older
  | .reclaimed :: older => consumedBy held older

def SinkEvent.consumed? : SinkEvent → Option Work
  | completed work .consumed => some work
  | _ => none

/-- The items that came back as consumed, latest first. -/
def consumedIn (events : List SinkEvent) : List Work := events.filterMap SinkEvent.consumed?

/-- The jobs that were accepted, latest first. -/
def Bus.acceptedFrames {τ : Type} (bus : Bus τ) : List Bytes :=
  (bus.sentJobs.filter fun job => job.verdict == .accepted).map SentJob.frame

theorem acceptedFrames_of_cons {τ : Type} {bus after : Bus τ} {frame : Bytes}
    (h : after.sentJobs = ⟨frame, .accepted⟩ :: bus.sentJobs) :
    after.acceptedFrames = frame :: bus.acceptedFrames := by
  rw [acceptedFrames, h]
  rfl

theorem acceptedFrames_of_refused {τ : Type} {bus after : Bus τ} {frame : Bytes}
    {verdict : JobVerdict} (hverdict : verdict ≠ .accepted)
    (h : after.sentJobs = ⟨frame, verdict⟩ :: bus.sentJobs) :
    after.acceptedFrames = bus.acceptedFrames := by
  have hnot : (verdict == .accepted) = false := beq_eq_false_iff_ne.2 hverdict
  rw [acceptedFrames, h, List.filter_cons_of_neg (by simp only [hnot, Bool.false_eq_true,
    not_false_eq_true])]
  rfl

theorem consumedIn_completeAll (sink : Sink) (works : List Work) :
    consumedIn (sink.completeAll works .discarded).events = consumedIn sink.events := by
  have hnone : consumedIn (works.map fun w => SinkEvent.completed w .discarded).reverse = [] := by
    apply List.filterMap_eq_nil_iff.2
    intro event hevent
    obtain ⟨work, _, rfl⟩ := List.mem_map.1 (List.mem_reverse.1 hevent)
    rfl
  rw [Sink.completeAll_events, consumedIn, List.filterMap_append]
  exact congrArg (· ++ consumedIn sink.events) hnone

/-! ### Steps -/

namespace Cycle

variable {τ : Type}

theorem fail_record (cy : Cycle τ) (policy : Tolerance) (now : Nat) {chip : Chip}
    (h : chip.condition.isDisabled = false) :
    consumedIn (cy.fail policy now chip).2.sink.events = consumedIn cy.sink.events ∧
      ((cy.fail policy now chip).1.slots = chip.slots ∨
        (cy.fail policy now chip).1.slots = .empty ∧
          (cy.fail policy now chip).1.condition.isDisabled = true) := by
  rcases fail_cases cy policy now chip with ⟨_, f, heq⟩ | ⟨hchange, f, heq⟩
  · rw [heq]
    exact ⟨rfl, .inl rfl⟩
  · rw [heq]
    refine ⟨consumedIn_completeAll cy.sink chip.slots.toList, .inr ⟨rfl, ?_⟩⟩
    exact (Condition.isDisabled_afterFailure now policy h).2 hchange

/-- What a record says of the time from one moment to another. -/
structure Recorded (options : DrivingOptions) (held : UInt8 → List Work) (start : Moment τ)
    (record : List Entry) (p : Moment τ) : Prop where
  generation : p.2.bus.generation = start.2.bus.generation
  frames : p.2.bus.acceptedFrames =
    framesOf start.2.bus.generation options held record ++ start.2.bus.acceptedFrames
  consumed : consumedIn p.2.sink.events = consumedBy held record ++ consumedIn start.2.sink.events
  slots : ∀ chip ∈ p.1, chip.slots = .filledWith (jobsSince held record chip.id)
  disabled : ∀ id, .disabled id ∈ record →
    ∃ chip ∈ p.1, chip.id = id ∧ chip.condition.isDisabled = true

variable {options : DrivingOptions} {held : UInt8 → List Work} {start : Moment τ}
  {record : List Entry}

theorem Recorded.of_same {chips : List Chip} {cy cy' : Cycle τ}
    (h : Recorded options held start record (chips, cy)) (hbus : Jobless cy.bus cy'.bus)
    (hs : Settled cy.bus) (hevents : consumedIn cy'.sink.events = consumedIn cy.sink.events) :
    Recorded options held start record (chips, cy') where
  generation := hbus.generation.trans h.generation
  frames := by
    rw [← h.frames, acceptedFrames, acceptedFrames, hbus.sentJobs hs]
  consumed := hevents.trans h.consumed
  slots := h.slots
  disabled := h.disabled

/-- The record goes on when one chip changes: by the entries that say what its slots hold then. -/
theorem Recorded.of_chip {before after : List Chip} {chip chip' : Chip} {cy cy' : Cycle τ}
    {new : List Entry} (h : Recorded options held start record (before ++ chip :: after, cy))
    (hnum : Numbered (before ++ chip :: after)) (hfollows : chip.Follows chip')
    (hgen : cy'.bus.generation = cy.bus.generation)
    (hframes : cy'.bus.acceptedFrames =
      framesOf start.2.bus.generation options held (new ++ record) ++ start.2.bus.acceptedFrames)
    (hconsumed : consumedIn cy'.sink.events =
      consumedBy held (new ++ record) ++ consumedIn start.2.sink.events)
    (hslots : chip'.slots = .filledWith (jobsSince held (new ++ record) chip.id))
    (hothers : ∀ id, id ≠ chip.id →
      jobsSince held (new ++ record) id = jobsSince held record id)
    (hnew : ∀ id, .disabled id ∈ new → id = chip.id ∧ chip'.condition.isDisabled = true) :
    Recorded options held start (new ++ record) (before ++ chip' :: after, cy') where
  generation := hgen.trans h.generation
  frames := hframes
  consumed := hconsumed
  slots := by
    intro other hmem
    have helse {other : Chip} (hmem : other ∈ before ++ after)
        (hold : other ∈ before ++ chip :: after) :
        other.slots = .filledWith (jobsSince held (new ++ record) other.id) := by
      rw [hothers other.id (hnum.id_ne_of_mem hmem)]
      exact h.slots other hold
    rcases List.mem_append.1 hmem with hmem | hmem
    · exact helse (List.mem_append_left _ hmem) (List.mem_append_left _ hmem)
    · rcases List.mem_cons.1 hmem with rfl | hmem
      · rw [hfollows.id]
        exact hslots
      · exact helse (List.mem_append_right _ hmem)
          (List.mem_append_right _ (List.mem_cons_of_mem _ hmem))
  disabled := by
    intro id hid
    rcases List.mem_append.1 hid with hid | hid
    · obtain ⟨rfl, hdis⟩ := hnew id hid
      exact ⟨chip', List.mem_append_cons_self, hfollows.id, hdis⟩
    · obtain ⟨other, hmem, hsame, hdis⟩ := h.disabled id hid
      rcases hnum.eq_or_elsewhere hmem with rfl | ⟨_, hstays⟩
      · refine ⟨chip', List.mem_append_cons_self, hfollows.id.trans hsame, ?_⟩
        rw [hfollows.ofDisabled hdis]
        exact hdis
      · exact ⟨other, hstays chip', hsame, hdis⟩

theorem Recorded.credit {before after : List Chip} {chip : Chip} {cy : Cycle τ}
    (h : Recorded options held start record (before ++ chip :: after, cy))
    (hnum : Numbered (before ++ chip :: after)) (hactive : chip.condition.isActive = true)
    (result : FoundNonce) : Recorded options held start record
      (before ++ (credit result chip cy).1 :: after, (credit result chip cy).2) := by
  have hself : chip.slots = .filledWith (jobsSince held record chip.id) :=
    h.slots chip List.mem_append_cons_self
  have hfollows := credit_follows result cy hactive
  rcases credit_cases result chip cy with ⟨_, stats, f, heq⟩ | ⟨work, _, stats, f, heq⟩
  · rw [heq] at hfollows ⊢
    show Recorded options held start ([] ++ record) _
    exact h.of_chip hnum hfollows rfl h.frames h.consumed hself (fun _ _ => rfl) nofun
  · rw [heq] at hfollows ⊢
    show Recorded options held start ([] ++ record) _
    exact h.of_chip hnum hfollows rfl h.frames h.consumed hself (fun _ _ => rfl) nofun

variable [Channel τ] {now : Nat} {round : Round}

/-- A job is accepted, consumes the item under the cursor and takes its slot; or no job is accepted
and no item consumed, and the slots change only if the chip is disabled. -/
theorem ChipStep.job_cases {chip chip' : Chip} {cy cy' : Cycle τ}
    (h : ChipStep options now round chip cy chip' cy') (hs : Settled cy.bus) :
    cy'.bus.generation = cy.bus.generation ∧ Settled cy'.bus ∧
      ((cy'.bus.acceptedFrames = cy.bus.acceptedFrames ∧
          consumedIn cy'.sink.events = consumedIn cy.sink.events ∧
          (chip'.slots = chip.slots ∨
            chip'.slots = .empty ∧ chip'.condition.isDisabled = true)) ∨
        ∃ work, cy'.bus.acceptedFrames =
            jobFor cy.bus.generation options chip.id (JobSlots.slotAt chip.slots.cursor) work ::
              cy.bus.acceptedFrames ∧
          consumedIn cy'.sink.events =
            chip.slots.current?.toList ++ consumedIn cy.sink.events ∧
          chip'.slots = chip.slots.reuse work) := by
  have hread {bus : Bus τ} {answer : Except ExchangeError Register}
      (hrun : (fetchRegister chip.id).runOn cy.bus = (answer, bus)) :
      bus.generation = cy.bus.generation ∧ Settled bus ∧
        bus.acceptedFrames = cy.bus.acceptedFrames := by
    have hjobless := fetchRegister_jobless hrun
    refine ⟨hjobless.generation, hjobless.settled hs, ?_⟩
    rw [acceptedFrames, acceptedFrames, hjobless.sentJobs hs]
  have hstands := h.standing
  cases h with
  | measured _ hrun | probed _ hrun | recovered _ hrun =>
    obtain ⟨hgen, hsettled, hframes⟩ := hread hrun
    exact ⟨hgen, hsettled, .inl ⟨hframes, rfl, .inl rfl⟩⟩
  | @missed _ _ _ bus _ hrun | @missedAgain _ _ _ bus _ hrun =>
    obtain ⟨hgen, hsettled, hframes⟩ := hread hrun
    obtain ⟨hevents, hslots⟩ := fail_record { cy with bus } options.tolerance now hstands
    rw [fail_bus]
    exact ⟨hgen, hsettled, .inl ⟨hframes, hevents, hslots⟩⟩
  | @sent _ _ _ work queue _ bus _ _ _ _ hjob =>
    rcases sendJob_nextJob hs hjob with ⟨_, hgen, _, hsettled, hjobs⟩ | ⟨⟨cause, hfail⟩, _⟩
    · simp only [count, retire_bus]
      refine ⟨hgen, hsettled, .inr ⟨work, acceptedFrames_of_cons hjobs, ?_, rfl⟩⟩
      cases chip.slots.current? with
      | none => rfl
      | some done => rfl
    · cases hfail
  | @unsent _ _ _ work queue _ bus _ _ _ _ hjob =>
    have hslot : Job.firstByte (nextJob options work chip).slot &&& 0x0f = Opcode.sendJob.code :=
      (firstByte_slotAt chip.slots.cursor).1
    obtain ⟨hgen, _, hsettled, ⟨hok, _⟩ | ⟨_, hjobs⟩⟩ := sendJob_exchanged hslot hs hjob
    · cases hok
    · have hframes : bus.acceptedFrames = cy.bus.acceptedFrames := by
        rcases hjobs with hjobs | ⟨verdict, hverdict, hjobs⟩
        · rw [acceptedFrames, acceptedFrames, hjobs]
        · exact acceptedFrames_of_refused hverdict hjobs
      obtain ⟨hevents, hslots⟩ := fail_record
        (complete { cy with bus, queue } work .failed) options.tolerance now hstands
      rw [fail_bus]
      exact ⟨hgen, hsettled, .inl ⟨hframes, hevents, hslots⟩⟩

theorem ChipStep.recorded {before after : List Chip} {chip chip' : Chip} {cy cy' : Cycle τ}
    (hstep : ChipStep options now round chip cy chip' cy')
    (h : Recorded options held start record (before ++ chip :: after, cy))
    (hnum : Numbered (before ++ chip :: after)) (hs : Settled cy.bus) : ∃ new,
      Recorded options held start (new ++ record) (before ++ chip' :: after, cy') ∧
        new.countP Entry.isReclaimed = 0 := by
  have hself : chip.slots = .filledWith (jobsSince held record chip.id) :=
    h.slots chip List.mem_append_cons_self
  obtain ⟨hgen, _, ⟨hframes, hevents, hslots⟩ | ⟨work, hframes, hevents, hslots⟩⟩ :=
    hstep.job_cases hs
  · rcases hslots with hslots | ⟨hslots, hdis⟩
    · refine ⟨[], h.of_chip hnum hstep.follows hgen (hframes.trans h.frames)
        (hevents.trans h.consumed) (hslots.trans hself) (fun _ _ => rfl) nofun, rfl⟩
    · refine ⟨[.disabled chip.id], h.of_chip hnum hstep.follows hgen (hframes.trans h.frames)
        (hevents.trans h.consumed) ?_ ?_ ?_, rfl⟩
      · rw [hslots, List.singleton_append, jobsSince, if_pos rfl]
        rfl
      · intro id hne
        rw [List.singleton_append, jobsSince, if_neg (Ne.symm hne)]
      · intro id hid
        rw [List.mem_singleton] at hid
        cases hid
        exact ⟨rfl, hdis⟩
  · refine ⟨[.sent chip.id work], h.of_chip hnum hstep.follows hgen ?_ ?_ ?_ ?_ ?_, rfl⟩
    · have hplace : JobSlots.slotAt chip.slots.cursor = nextSlot held record chip.id := by
        rw [hself, JobSlots.slotAt_filledWith]
        rfl
      have hgenerations : cy.bus.generation = start.2.bus.generation := h.generation
      have hbefore : cy.bus.acceptedFrames = _ := h.frames
      rw [hframes, hbefore, hplace, hgenerations]
      rfl
    · have hbefore : consumedIn cy.sink.events = _ := h.consumed
      rw [hevents, hbefore, hself, JobSlots.current?_filledWith, ← List.append_assoc]
      rfl
    · rw [hslots, hself, List.singleton_append, jobsSince, if_pos rfl]
      rfl
    · intro id hne
      rw [List.singleton_append, jobsSince, if_neg (Ne.symm hne)]
    · intro id hid
      rw [List.mem_singleton] at hid
      cases hid

theorem Step.recorded {p q : Moment τ} (hstep : Step options now round p q)
    (h : Recorded options held start record p) (hnum : Numbered p.1) (hs : Settled p.2.bus) :
    Settled q.2.bus ∧ ∃ new, Recorded options held start (new ++ record) q ∧
      new.countP Entry.isReclaimed = 0 := by
  cases hstep with
  | chip hchip => exact ⟨(hchip.job_cases hs).2.1, hchip.recorded h hnum hs⟩
  | listened hread _ _ | spoilt hread | dropped hread _ =>
    have hjobless := fetchResult_jobless hread
    exact ⟨hjobless.settled hs, [], h.of_same hjobless hs rfl, rfl⟩
  | @credited before after chip cy result bus hread hplace hslot hactive =>
    have hjobless := fetchResult_jobless hread
    have hread : Recorded options held start record (before ++ chip :: after,
        count { cy with bus } fun r => { r with results := r.results + 1 }) :=
      h.of_same hjobless hs rfl
    refine ⟨?_, [], hread.credit hnum hactive result, rfl⟩
    rw [(credit_keeps ..).2.1]
    exact hjobless.settled hs

end Cycle

/-! ### Runs -/

namespace Service

open HashBoard.Cycle

variable {τ : Type} [Channel τ] {s : Service τ} {held : UInt8 → List Work} {start : Moment τ}
  {record : List Entry}

/-- A record that goes on by what a scan does. -/
theorem scan_recorded (h : Recorded s.chain.options held start record s.moment)
    (hnum : Numbered s.chain.chips) (hs : Settled s.chain.bus) (overview : Thermal.Overview)
    (now : Nat) : ∃ new, Recorded s.chain.options held start (new ++ record)
        (s.after (.scan overview now)).moment ∧ new.countP Entry.isReclaimed = 0 := by
  have hscan := s.chain.scan_induction s.sink overview now
    (fun p => Numbered p.1 ∧ Settled p.2.bus ∧ ∃ new,
      Recorded s.chain.options held start (new ++ record) p ∧ new.countP Entry.isReclaimed = 0)
    ?_ ?_ ?_
  · exact hscan.2.2
  · rintro round p q hstep ⟨hnum, hs, new, hrecorded, hcount⟩
    obtain ⟨hsettled, more, hmore, hnone⟩ := hstep.recorded hrecorded hnum hs
    refine ⟨hnum.of_ids_eq hstep.ids_eq, hsettled, more ++ new, ?_, ?_⟩
    · rw [List.append_assoc]
      exact hmore
    · rw [List.countP_append, hnone, hcount]
  · rintro chips cy f ⟨hnum, hs, new, hrecorded, hcount⟩
    exact ⟨hnum, hs, new, ⟨hrecorded.generation, hrecorded.frames, hrecorded.consumed,
      hrecorded.slots, hrecorded.disabled⟩, hcount⟩
  · exact ⟨hnum, hs, [], ⟨h.generation, h.frames, h.consumed, h.slots, h.disabled⟩, rfl⟩

theorem after_recorded (hreach : Reachable s)
    (h : Recorded s.chain.options held start record s.moment) (request : Request) : ∃ new,
      Recorded (s.after request).chain.options held start (new ++ record)
        (s.after request).moment ∧
        new.countP Entry.isReclaimed = if request.isReclaim then 1 else 0 := by
  cases request with
  | offer work =>
    rcases s.after_offer work with ⟨_, heq⟩ | ⟨_, heq⟩
    · rw [heq]
      exact ⟨[], h, rfl⟩
    · rw [heq]
      exact ⟨[], ⟨h.generation, h.frames, h.consumed, h.slots, h.disabled⟩, rfl⟩
  | scan overview now =>
    have hoptions : (s.after (.scan overview now)).chain.options = s.chain.options :=
      s.chain.scan_options s.sink overview now
    rw [hoptions]
    exact scan_recorded h hreach.attributed.numbered hreach.attributed.settled overview now
  | reclaim =>
    obtain ⟨bus, hjobless, hafter⟩ := s.after_reclaim
    rw [hafter]
    refine ⟨[.reclaimed], ⟨hjobless.generation.trans h.generation, ?_, ?_, ?_, ?_⟩, rfl⟩
    · have hframes : bus.acceptedFrames = s.chain.bus.acceptedFrames := by
        rw [acceptedFrames, acceptedFrames, hjobless.sentJobs hreach.attributed.settled]
      exact hframes.trans h.frames
    · exact (consumedIn_completeAll ..).trans h.consumed
    · intro chip hmem
      obtain ⟨_, _, rfl⟩ := List.mem_map.1 hmem
      rfl
    · intro id hid
      have hold : .disabled id ∈ record := by
        rcases List.mem_cons.1 hid with hid | hid
        · cases hid
        · exact hid
      obtain ⟨chip, hmem, hid, hdis⟩ := h.disabled id hold
      exact ⟨_, List.mem_map_of_mem hmem, hid, hdis⟩

theorem run_recorded (hreach : Reachable s)
    (h : Recorded s.chain.options held start record s.moment) (requests : List Request) : ∃ new,
      Recorded (s.run requests).chain.options held start (new ++ record)
        (s.run requests).moment ∧
        new.countP Entry.isReclaimed = requests.countP Request.isReclaim := by
  induction requests generalizing s record with
  | nil => exact ⟨[], h, rfl⟩
  | cons request rest ih =>
    obtain ⟨first, hfirst, hone⟩ := after_recorded hreach h request
    obtain ⟨new, hnew, hrest⟩ := ih (hreach.after request) hfirst
    refine ⟨new ++ first, ?_, ?_⟩
    · rw [List.append_assoc]
      exact hnew
    · rw [List.countP_append, hone, hrest, List.countP_cons]

/-- At any time the slots of a chip hold the last of some items put in in turn. -/
theorem Reachable.filled (h : Reachable s) : ∃ held : UInt8 → List Work,
    ∀ chip ∈ s.chain.chips, chip.slots = .filledWith (held chip.id) := by
  induction h with
  | @detected _ _ _ found hfound id options schedule power publishes judge =>
    obtain ⟨_, hslots, _⟩ := Detection.detect_numbered hfound
    exact ⟨fun _ => [], hslots⟩
  | @after s hs request ih =>
    obtain ⟨held, hheld⟩ := ih
    have hstart : Recorded s.chain.options held s.moment [] s.moment :=
      ⟨rfl, rfl, rfl, hheld, nofun⟩
    obtain ⟨new, hnew, _⟩ := after_recorded hs hstart request
    exact ⟨_, hnew.slots⟩

/-- What the chips hold, and the record that every run from there on makes. -/
theorem Reachable.recorded (h : Reachable s) : ∃ held : UInt8 → List Work,
    ∀ requests, ∃ record,
      Recorded (s.run requests).chain.options held s.moment record (s.run requests).moment ∧
        record.countP Entry.isReclaimed = requests.countP Request.isReclaim := by
  obtain ⟨held, hheld⟩ := h.filled
  have hstart : Recorded s.chain.options held s.moment [] s.moment := ⟨rfl, rfl, rfl, hheld, nofun⟩
  refine ⟨held, fun requests => ?_⟩
  obtain ⟨record, hrecord, hcount⟩ := run_recorded h hstart requests
  rw [List.append_nil] at hrecord
  exact ⟨record, hrecord, hcount⟩

end Service

end HashBoard
