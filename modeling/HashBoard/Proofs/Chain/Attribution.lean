import HashBoard.Proofs.Chain.Service
import HashBoard.Work.KnownAnswer

/-!
# Attribution of nonces

A slot holds the item of the latest job for it that was accepted, and a nonce is submitted for the
item of the latest job accepted when it was reported. A job whose acknowledgement is missing counts
as not accepted though the chip may have taken it; where such a job is the latest one, the slot
holds an item that the chip may no longer search.
-/

namespace HashBoard

open Bus Wire

/-! ### The latest job for a slot -/

def Bus.SentJob.isFor (job : SentJob) (chip slot : UInt8) : Bool :=
  Job.chipOf job.frame == chip && Job.slotOf job.frame == slot

/-- The frame of the latest job for a slot that was accepted. -/
def latestAccepted (jobs : List SentJob) (chip slot : UInt8) : Option Bytes :=
  (jobs.find? fun job => job.isFor chip slot && job.verdict == .accepted).map SentJob.frame

/-- The latest job for a slot that was not shown to be refused. -/
def latestTaken (jobs : List SentJob) (chip slot : UInt8) : Option SentJob :=
  jobs.find? fun job => job.isFor chip slot && job.verdict != .refused

def jobFor (g : Generation) (options : DrivingOptions) (chip slot : UInt8) (work : Work) : Bytes :=
  jobBytes g (Job.frame ⟨chip, slot, work.spec options.difficultyPosition⟩ g.jobCrc)

variable {jobs : List SentJob} {job : SentJob} {chip slot : UInt8}

theorem latestAccepted_cons_of_ne (h : job.verdict ≠ .accepted) :
    latestAccepted (job :: jobs) chip slot = latestAccepted jobs chip slot := by
  have hnot : (job.verdict == .accepted) = false := beq_eq_false_iff_ne.2 h
  simp only [latestAccepted, List.find?_cons, hnot, Bool.and_false]

theorem latestAccepted_cons_of_not_isFor (h : job.isFor chip slot = false) :
    latestAccepted (job :: jobs) chip slot = latestAccepted jobs chip slot := by
  simp only [latestAccepted, List.find?_cons, h, Bool.false_and]

theorem latestAccepted_cons_self (hjob : job.verdict = .accepted)
    (h : job.isFor chip slot = true) :
    latestAccepted (job :: jobs) chip slot = some job.frame := by
  simp only [latestAccepted, List.find?_cons, h, hjob, beq_self_eq_true, Bool.and_self,
    Option.map_some]

/-- The latest job not refused is the latest accepted one, unless it is a later one for another
item whose acknowledgement is missing. -/
theorem latestTaken_frame_iff {frame : Bytes} (h : latestAccepted jobs chip slot = some frame) :
    (latestTaken jobs chip slot).map SentJob.frame = some frame ↔
      ∀ job, latestTaken jobs chip slot = some job → job.verdict = .unanswered →
        job.frame = frame := by
  constructor
  · intro htaken job hjob _
    rw [hjob] at htaken
    exact Option.some.inj htaken
  · intro hunanswered
    induction jobs with
    | nil => cases h
    | cons job jobs ih =>
      cases hfor : job.isFor chip slot with
      | false =>
        have hskip : latestTaken (job :: jobs) chip slot = latestTaken jobs chip slot := by
          simp only [latestTaken, List.find?_cons, hfor, Bool.false_and]
        rw [latestAccepted_cons_of_not_isFor hfor] at h
        rw [hskip] at hunanswered ⊢
        exact ih h hunanswered
      | true =>
        cases hv : job.verdict with
        | accepted =>
          rw [latestAccepted_cons_self hv hfor] at h
          simp only [latestTaken, List.find?_cons, hfor, hv]
          exact h
        | refused =>
          have hskip : latestTaken (job :: jobs) chip slot = latestTaken jobs chip slot := by
            simp only [latestTaken, List.find?_cons, hfor, hv]
            rfl
          rw [latestAccepted_cons_of_ne (by rw [hv]; exact nofun)] at h
          rw [hskip] at hunanswered ⊢
          exact ih h hunanswered
        | unanswered =>
          have hfound : latestTaken (job :: jobs) chip slot = some job := by
            simp only [latestTaken, List.find?_cons, hfor, hv]
            rfl
          rw [hfound, Option.map_some, hunanswered job hfound hv]

theorem firstByte_slotAt (place : Fin 4) :
    Job.firstByte (JobSlots.slotAt place) &&& 0x0f = Opcode.sendJob.code ∧
      Job.firstByte (JobSlots.slotAt place) >>> 4 = JobSlots.slotAt place := by
  revert place
  decide

theorem isFor_jobFor (g : Generation) (options : DrivingOptions) (chip : UInt8) (place : Fin 4)
    (work : Work) (verdict : JobVerdict) (other slot : UInt8) :
    SentJob.isFor ⟨jobFor g options chip (JobSlots.slotAt place) work, verdict⟩ other slot = true ↔
      chip = other ∧ JobSlots.slotAt place = slot := by
  rw [SentJob.isFor, jobFor, chipOf_jobBytes, slotOf_jobBytes, (firstByte_slotAt place).2,
    Bool.and_eq_true, beq_iff_eq, beq_iff_eq]

/-! ### What a bus says of a slot -/

variable {τ : Type} {bus after : Bus τ} {options : DrivingOptions}

structure Kept (bus after : Bus τ) : Prop where
  generation : after.generation = bus.generation
  calls : bus.calls <:+ after.calls
  settled : Settled after
  accepted : ∀ chip slot,
    latestAccepted after.sentJobs chip slot = latestAccepted bus.sentJobs chip slot

theorem Bus.Jobless.kept (h : Jobless bus after) (hs : Settled bus) : Kept bus after where
  generation := h.generation
  calls := h.calls
  settled := h.settled hs
  accepted _ _ := by rw [h.sentJobs hs]

/-- Every slot of a chip holds the item of the latest job for it that was accepted. -/
def HoldsAccepted (options : DrivingOptions) (bus : Bus τ) (chip : Chip) : Prop :=
  ∀ slot work, chip.slots.get? slot = some work →
    latestAccepted bus.sentJobs chip.id slot =
      some (jobFor bus.generation options chip.id slot work)

/-- A chip reported a nonce for a slot when the latest job for that slot that had been accepted was
the one of the item. -/
def Reported (options : DrivingOptions) (bus : Bus τ) (work : Work) (chip : UInt8)
    (nonce : UInt32) : Prop :=
  ∃ past t older result, past <:+ bus.calls ∧ transmissions past = t :: older ∧
    t.frame = resultRequest ∧ t.reported? = some result ∧ result.chip = chip ∧
      result.nonce = nonce ∧
        latestAccepted (jobsSent bus.generation past) chip result.slot =
          some (jobFor bus.generation options chip result.slot work)

theorem HoldsAccepted.kept {chip chip' : Chip} (h : HoldsAccepted options bus chip)
    (hkept : Kept bus after) (hid : chip'.id = chip.id)
    (hslots : chip'.slots = chip.slots ∨ chip'.slots = .empty) :
    HoldsAccepted options after chip' := by
  intro slot work hwork
  rcases hslots with hslots | hslots
  · rw [hslots] at hwork
    rw [hkept.accepted, hkept.generation, hid]
    exact h slot work hwork
  · rw [hslots, JobSlots.get?_empty] at hwork
    cases hwork

theorem HoldsAccepted.of_sent {chip : Chip} {work : Work}
    (h : HoldsAccepted options bus chip) (hgen : after.generation = bus.generation)
    (hjobs : after.sentJobs =
      ⟨jobFor bus.generation options chip.id (JobSlots.slotAt chip.slots.cursor) work, .accepted⟩ ::
        bus.sentJobs) {chip' : Chip} (hid : chip'.id = chip.id)
    (hslots : chip'.slots = chip.slots.reuse work) : HoldsAccepted options after chip' := by
  intro slot found hfound
  rw [hslots] at hfound
  rw [hjobs, hgen, hid]
  rcases JobSlots.get?_reuse _ hfound with ⟨rfl, rfl⟩ | ⟨hne, hold⟩
  · exact latestAccepted_cons_self rfl ((isFor_jobFor ..).2 ⟨rfl, rfl⟩)
  · rw [latestAccepted_cons_of_not_isFor]
    · exact h slot found hold
    · rw [← Bool.not_eq_true, isFor_jobFor]
      exact fun hboth => hne hboth.2.symm

theorem HoldsAccepted.of_other_sent {other : Chip} {chip : UInt8} {place : Fin 4} {work : Work}
    (h : HoldsAccepted options bus other) (hgen : after.generation = bus.generation)
    (hjobs : after.sentJobs =
      ⟨jobFor bus.generation options chip (JobSlots.slotAt place) work, .accepted⟩ :: bus.sentJobs)
    (hne : other.id ≠ chip) : HoldsAccepted options after other := by
  intro slot found hfound
  rw [hjobs, hgen, latestAccepted_cons_of_not_isFor]
  · exact h slot found hfound
  · rw [← Bool.not_eq_true, isFor_jobFor]
    exact fun hboth => hne hboth.1.symm

theorem Reported.later {work : Work} {chip : UInt8} {nonce : UInt32}
    (h : Reported options bus work chip nonce) (hgen : after.generation = bus.generation)
    (hcalls : bus.calls <:+ after.calls) : Reported options after work chip nonce := by
  obtain ⟨past, t, older, result, hpast, hrest⟩ := h
  rw [Reported, hgen]
  exact ⟨past, t, older, result, hpast.trans hcalls, hrest⟩

/-! ### Steps -/

namespace Cycle

/-- The slots of the chips and the submissions agree with the jobs on the wire. -/
structure Attributed (options : DrivingOptions) (p : List Chip × Cycle τ) : Prop where
  numbered : Numbered p.1
  settled : Settled p.2.bus
  slots : ∀ chip ∈ p.1, HoldsAccepted options p.2.bus chip
  submissions : ∀ work chip nonce valid, .submitted work chip nonce valid ∈ p.2.sink.events →
    Reported options p.2.bus work chip nonce

theorem Attributed.of_chip {before later : List Chip} {chip chip' : Chip} {cy cy' : Cycle τ}
    (h : Attributed options (before ++ chip :: later, cy)) (hid : chip'.id = chip.id)
    (hsettled : Settled cy'.bus)
    (hchip : HoldsAccepted options cy.bus chip → HoldsAccepted options cy'.bus chip')
    (hothers : ∀ other : Chip, other.id ≠ chip.id → HoldsAccepted options cy.bus other →
      HoldsAccepted options cy'.bus other)
    (hsubmissions : ∀ work chip nonce valid,
      .submitted work chip nonce valid ∈ cy'.sink.events → Reported options cy'.bus work chip nonce) :
    Attributed options (before ++ chip' :: later, cy') where
  numbered := h.numbered.of_ids_eq (by simp only [List.map_append, List.map_cons, hid])
  settled := hsettled
  slots := by
    intro other hother
    rcases List.mem_append.1 hother with hmem | hmem
    · exact hothers other (h.numbered.id_ne_of_mem (List.mem_append_left _ hmem))
        (h.slots other (List.mem_append_left _ hmem))
    · rcases List.mem_cons.1 hmem with rfl | hmem
      · exact hchip (h.slots chip (List.mem_append_right _ (List.mem_cons_self ..)))
      · exact hothers other (h.numbered.id_ne_of_mem (List.mem_append_right _ hmem))
          (h.slots other (List.mem_append_right _ (List.mem_cons_of_mem _ hmem)))
  submissions := hsubmissions

theorem Attributed.of_kept {chips : List Chip} {cy cy' : Cycle τ}
    (h : Attributed options (chips, cy)) (hkept : Kept cy.bus cy'.bus)
    (hevents : cy'.sink.events = cy.sink.events) : Attributed options (chips, cy') where
  numbered := h.numbered
  settled := hkept.settled
  slots := fun chip hmem => (h.slots chip hmem).kept hkept rfl (.inl rfl)
  submissions := by
    intro work chip nonce valid hmem
    rw [hevents] at hmem
    exact (h.submissions work chip nonce valid hmem).later hkept.generation hkept.calls

theorem Attributed.credited {before later : List Chip} {chip : Chip} {cy : Cycle τ}
    {result : FoundNonce} {t : Transmission} {older : List Transmission}
    (h : Attributed options (before ++ chip :: later, cy))
    (hlast : transmissions cy.bus.calls = t :: older) (hframe : t.frame = resultRequest)
    (hreported : t.reported? = some result) (hplace : before.length + 1 = result.chip.toNat) :
    Attributed options
      (before ++ (credit result chip cy).1 :: later, (credit result chip cy).2) := by
  rcases credit_cases result chip cy with ⟨_, stats, f, hcredit⟩ | ⟨work, hslot, stats, f, hcredit⟩
  · rw [hcredit]
    exact h.of_chip rfl h.settled (fun hheld => hheld) (fun _ _ hheld => hheld) h.submissions
  · rw [hcredit]
    refine h.of_chip rfl h.settled (fun hheld => hheld) (fun _ _ hheld => hheld) ?_
    intro work' chip' nonce valid hmem
    rcases List.mem_cons.1 hmem with hnew | hold
    · -- The calls so far are the past at which the chip reported the nonce.
      have hid : result.chip = chip.id := UInt8.toNat_inj.1 (by rw [h.numbered.id_eq, hplace])
      have hheld := h.slots chip (List.mem_append_right _ (List.mem_cons_self ..)) _ _ hslot
      cases hnew
      exact ⟨cy.bus.calls, t, older, result, List.suffix_refl _, hlast, hframe, hreported, hid, rfl,
        hheld⟩
    · exact h.submissions work' chip' nonce valid hold

variable [Channel τ] {now : Nat} {round : Round}

theorem sendJob_nextJob {work : Work} {chip : Chip} {answer : Except ExchangeError Unit}
    (hs : Settled bus)
    (h : (sendJob ((nextJob options work chip).frame bus.generation.jobCrc)).runOn bus =
      (answer, after)) :
    (answer = .ok () ∧ after.generation = bus.generation ∧ bus.calls <:+ after.calls ∧
        Settled after ∧ after.sentJobs =
          ⟨jobFor bus.generation options chip.id (JobSlots.slotAt chip.slots.cursor) work,
            .accepted⟩ :: bus.sentJobs) ∨
      ((∃ cause, answer = .error cause) ∧ Kept bus after) := by
  have hslot : Job.firstByte (nextJob options work chip).slot &&& 0x0f = Opcode.sendJob.code :=
    (firstByte_slotAt chip.slots.cursor).1
  obtain ⟨hgen, hcalls, hsettled, ⟨hok, hjobs⟩ | ⟨hfail, hjobs⟩⟩ := sendJob_exchanged hslot hs h
  · exact .inl ⟨hok, hgen, hcalls, hsettled, hjobs⟩
  · refine .inr ⟨hfail, hgen, hcalls, hsettled, ?_⟩
    intro other slot
    rcases hjobs with hjobs | ⟨verdict, hverdict, hjobs⟩
    · rw [hjobs]
    · rw [hjobs]
      exact latestAccepted_cons_of_ne hverdict

theorem ChipStep.kept_or_sent {chip chip' : Chip} {cy cy' : Cycle τ}
    (h : ChipStep options now round chip cy chip' cy') (hs : Settled cy.bus) :
    (Kept cy.bus cy'.bus ∧ (chip'.slots = chip.slots ∨ chip'.slots = .empty)) ∨
      ∃ work, chip'.slots = chip.slots.reuse work ∧ cy'.bus.generation = cy.bus.generation ∧
        cy.bus.calls <:+ cy'.bus.calls ∧ Settled cy'.bus ∧ cy'.bus.sentJobs =
          ⟨jobFor cy.bus.generation options chip.id (JobSlots.slotAt chip.slots.cursor) work,
            .accepted⟩ :: cy.bus.sentJobs := by
  cases h with
  | measured _ hread => exact .inl ⟨(fetchRegister_jobless hread).kept hs, .inl rfl⟩
  | probed _ hread => exact .inl ⟨(fetchRegister_jobless hread).kept hs, .inl rfl⟩
  | recovered _ hread => exact .inl ⟨(fetchRegister_jobless hread).kept hs, .inl rfl⟩
  | missed _ hread | missedAgain _ hread =>
    refine .inl ⟨?_, fail_slots ..⟩
    rw [fail_bus]
    exact (fetchRegister_jobless hread).kept hs
  | @sent _ _ _ work queue _ bus _ _ _ _ hjob =>
    rcases sendJob_nextJob hs hjob with ⟨_, hsent⟩ | ⟨⟨cause, hfail⟩, _⟩
    · refine .inr ⟨work, rfl, ?_⟩
      simp only [count, retire_bus]
      exact hsent
    · cases hfail
  | unsent _ _ _ _ hjob =>
    -- A job that was not acknowledged may be on the wire, but it is not an accepted one.
    rcases sendJob_nextJob hs hjob with ⟨hok, _⟩ | ⟨_, hkept⟩
    · cases hok
    · refine .inl ⟨?_, fail_slots ..⟩
      rw [fail_bus]
      exact hkept

theorem ChipStep.attributed {before later : List Chip} {chip chip' : Chip} {cy cy' : Cycle τ}
    (hstep : ChipStep options now round chip cy chip' cy')
    (h : Attributed options (before ++ chip :: later, cy)) :
    Attributed options (before ++ chip' :: later, cy') := by
  rcases hstep.kept_or_sent h.settled with ⟨hkept, hslots⟩ | ⟨work, hslots, hgen, hcalls, hs, hjobs⟩
  · refine h.of_chip hstep.id_eq hkept.settled (·.kept hkept hstep.id_eq hslots)
      (fun other _ hother => hother.kept hkept rfl (.inl rfl)) ?_
    intro work chip nonce valid hmem
    exact (h.submissions work chip nonce valid (hstep.returned.mem_of_submitted hmem)).later
      hkept.generation hkept.calls
  · refine h.of_chip hstep.id_eq hs (·.of_sent hgen hjobs hstep.id_eq hslots)
      (fun other hne hother => hother.of_other_sent hgen hjobs hne) ?_
    intro work chip nonce valid hmem
    exact (h.submissions work chip nonce valid (hstep.returned.mem_of_submitted hmem)).later
      hgen hcalls

theorem Step.attributed {p q : List Chip × Cycle τ} (hstep : Step options now round p q)
    (h : Attributed options p) : Attributed options q := by
  cases hstep with
  | chip hchip => exact hchip.attributed h
  | listened hread _ _ => exact h.of_kept ((fetchResult_jobless hread).kept h.settled) rfl
  | spoilt hread => exact h.of_kept ((fetchResult_jobless hread).kept h.settled) rfl
  | dropped hread _ => exact h.of_kept ((fetchResult_jobless hread).kept h.settled) rfl
  | @credited before later chip cy result bus hread hplace hslot hactive =>
    obtain ⟨t, hframe, hreported, hex⟩ := fetchResult_exchanged hread
    have hkept := (fetchResult_jobless hread).kept h.settled
    have hread : Attributed options (before ++ chip :: later,
        count { cy with bus } fun r => { r with results := r.results + 1 }) := h.of_kept hkept rfl
    exact hread.credited hex.transmissions hframe hreported hplace

end Cycle

/-! ### Runs -/

namespace Service

variable [Channel τ] {s : Service τ}

def Attributed (s : Service τ) : Prop :=
  Cycle.Attributed s.chain.options (s.chain.chips, s.chain.cycle s.sink)

theorem Attributed.scan (h : Attributed s) (overview : Thermal.Overview) (now : Nat) :
    Attributed (s.after (.scan overview now)) := by
  have hscan := s.chain.scan_induction s.sink overview now (Cycle.Attributed s.chain.options)
    (fun _ p q hstep hp => hstep.attributed hp)
    (fun chips cy f hp => ⟨hp.numbered, hp.settled, hp.slots, hp.submissions⟩)
    ⟨h.numbered, h.settled, h.slots, h.submissions⟩
  show Cycle.Attributed (s.chain.scan s.sink overview now).chain.options _
  rw [Chain.scan_options]
  exact hscan

theorem Attributed.offer (h : Attributed s) (work : Work) : Attributed (s.after (.offer work)) := by
  rcases s.after_offer work with ⟨_, heq⟩ | ⟨_, heq⟩
  · rw [heq]
    exact h
  · rw [heq]
    exact ⟨h.numbered, h.settled, h.slots, h.submissions⟩

theorem Attributed.reclaim (h : Attributed s) : Attributed (s.after .reclaim) := by
  obtain ⟨bus, hjobless, hafter⟩ := s.after_reclaim
  have hkept : Kept s.chain.bus bus := hjobless.kept h.settled
  rw [hafter]
  refine ⟨h.numbered.of_ids_eq (ids_withoutJobs _), hkept.settled, ?_, ?_⟩
  · intro chip hmem slot work hwork
    obtain ⟨_, _, rfl⟩ := List.mem_map.1 hmem
    rw [JobSlots.get?_empty] at hwork
    cases hwork
  · intro work chip nonce valid hmem
    have hback := (Sink.Returned.refl s.sink).completeAll (jobsHeld s.chain.chips ++ s.chain.queue)
      .discarded
    exact (h.submissions work chip nonce valid (hback.mem_of_submitted hmem)).later
      hkept.generation hkept.calls

theorem Reachable.attributed (h : Reachable s) : Attributed s := by
  induction h with
  | @detected _ _ _ found hfound id options schedule power publishes judge =>
    obtain ⟨hnumbered, hslots, hsettled⟩ := Detection.detect_numbered hfound
    refine ⟨hnumbered, hsettled, ?_, ?_⟩
    · intro chip hmem slot work hwork
      rw [hslots chip hmem, JobSlots.get?_empty] at hwork
      cases hwork
    · intro work chip nonce valid hmem
      cases hmem
  | after _ request ih =>
    cases request with
    | offer work => exact ih.offer work
    | scan overview now => exact ih.scan overview now
    | reclaim => exact ih.reclaim

/-- Every slot holds the item of the latest job for it that was accepted, and every nonce was
submitted for the item of the latest job accepted for its slot when the chip reported it. This is
the latest job that the chip may have taken, unless that is a later one for another item whose
acknowledgement is missing. -/
theorem Reachable.slots_attributed (h : Reachable s) :
    (∀ chip ∈ s.chain.chips, ∀ slot work, chip.slots.get? slot = some work →
      latestAccepted s.chain.bus.sentJobs chip.id slot =
          some (jobFor s.chain.generation s.chain.options chip.id slot work) ∧
        ((latestTaken s.chain.bus.sentJobs chip.id slot).map SentJob.frame =
            some (jobFor s.chain.generation s.chain.options chip.id slot work) ↔
          ∀ job, latestTaken s.chain.bus.sentJobs chip.id slot = some job →
            job.verdict = .unanswered →
              job.frame = jobFor s.chain.generation s.chain.options chip.id slot work)) ∧
      ∀ work chip nonce valid, .submitted work chip nonce valid ∈ s.sink.events →
        ∃ past t older result, past <:+ s.chain.bus.calls ∧ transmissions past = t :: older ∧
          t.frame = resultRequest ∧ t.reported? = some result ∧ result.chip = chip ∧
          result.nonce = nonce ∧
          latestAccepted (jobsSent s.chain.generation past) chip result.slot =
              some (jobFor s.chain.generation s.chain.options chip result.slot work) ∧
            ((latestTaken (jobsSent s.chain.generation past) chip result.slot).map SentJob.frame =
                some (jobFor s.chain.generation s.chain.options chip result.slot work) ↔
              ∀ job, latestTaken (jobsSent s.chain.generation past) chip result.slot = some job →
                job.verdict = .unanswered →
                  job.frame =
                    jobFor s.chain.generation s.chain.options chip result.slot work) := by
  have ha := h.attributed
  constructor
  · intro chip hmem slot work hwork
    have hlatest := ha.slots chip hmem slot work hwork
    exact ⟨hlatest, latestTaken_frame_iff hlatest⟩
  · intro work chip nonce valid hmem
    obtain ⟨past, t, older, result, hpast, hlast, hframe, hreported, hid, hnonce, hlatest⟩ :=
      ha.submissions work chip nonce valid hmem
    exact ⟨past, t, older, result, hpast, hlast, hframe, hreported, hid, hnonce, hlatest,
      latestTaken_frame_iff hlatest⟩

def itemOf (number : UInt8) : Work := { KnownAnswer.work 0 with header := .replicate 76 number }

/-- Whether the latest job for slot 1 of some chip is for another item than the one in the slot, and
lacks its acknowledgement. -/
def isOvertaken (s : Service Script) (chip : Chip) : Bool :=
  (chip.slots.get? 1).any fun work =>
    (latestTaken s.chain.bus.sentJobs chip.id 1).any fun job =>
      job.verdict == .unanswered &&
        job.frame != jobFor s.chain.generation s.chain.options chip.id 1 work

def submits (number : UInt8) (nonce : UInt32) : SinkEvent → Bool
  | .submitted work _ found _ => found == nonce && work.header == .replicate 76 number
  | .completed _ _ => false

/-- The fifth job of a chip is taken, but its acknowledgement is missing: the slot keeps its first
item, and the nonce that the chip reports for the slot later is submitted for that one. -/
theorem slots_attributed_without_answer : ∃ s : Service Script, Reachable s ∧
    (∃ chip ∈ s.chain.chips, ∃ work, chip.slots.get? 1 = some work ∧
      latestAccepted s.chain.bus.sentJobs chip.id 1 =
          some (jobFor s.chain.generation s.chain.options chip.id 1 work) ∧
        (latestTaken s.chain.bus.sentJobs chip.id 1).map SentJob.frame ≠
          some (jobFor s.chain.generation s.chain.options chip.id 1 work)) ∧
      ∃ work chip valid, .submitted work chip 0x1234 valid ∈ s.sink.events ∧
        work.header = .replicate 76 1 := by
  let taken : List Bytes := [[], chipReply false, [], chipReply true]
  let unanswered : List Bytes := [[], chipReply false, [], []]
  let found : List Bytes := [FoundNonce.encode ⟨1, 1, 0x1234⟩, [], chipReply true]
  let replies := taken ++ taken ++ taken ++ taken ++ unanswered ++ [[], chipReply false] ++ found
  let requests : List Request :=
    [.offer (itemOf 1), .scan .empty 0, .offer (itemOf 2), .scan .empty 0, .offer (itemOf 3),
     .scan .empty 0, .offer (itemOf 4), .scan .empty 0, .offer (itemOf 5), .scan .empty 0,
     .scan .empty 30000, .scan .empty 30000]
  have hany : ((ofBus? (oneChip replies) 60000).any fun s =>
      (s.run requests).chain.chips.any (isOvertaken (s.run requests)) &&
        (s.run requests).sink.events.any (submits 1 0x1234)) = true := by
    decide +kernel
  obtain ⟨s, hs, hcheck⟩ := (Option.any_eq_true _ _).1 hany
  have hreach := (reachable_of_ofBus? hs).run requests
  obtain ⟨hslot, hevent⟩ := Bool.and_eq_true_iff.1 hcheck
  refine ⟨_, hreach, ?_, ?_⟩
  · obtain ⟨chip, hmem, hover⟩ := List.any_eq_true.1 hslot
    obtain ⟨work, hwork, hover⟩ := (Option.any_eq_true _ _).1 hover
    obtain ⟨job, hjob, hover⟩ := (Option.any_eq_true _ _).1 hover
    obtain ⟨hverdict, hframe⟩ := Bool.and_eq_true_iff.1 hover
    obtain ⟨hlatest, hiff⟩ := hreach.slots_attributed.1 chip hmem 1 work hwork
    refine ⟨chip, hmem, work, hwork, hlatest, ?_⟩
    intro htaken
    exact bne_iff_ne.1 hframe (hiff.1 htaken job hjob (beq_iff_eq.1 hverdict))
  · obtain ⟨event, hmem, hsubmitted⟩ := List.any_eq_true.1 hevent
    cases event with
    | submitted work chip nonce valid =>
      obtain ⟨hnonce, hheader⟩ := Bool.and_eq_true_iff.1 hsubmitted
      obtain rfl := beq_iff_eq.1 hnonce
      exact ⟨work, chip, valid, hmem, beq_iff_eq.1 hheader⟩
    | completed work status => cases hsubmitted

end Service

end HashBoard
