import HashBoard.Proofs.Chain.Course
import HashBoard.Proofs.Chain.JobRecord
import HashBoard.Proofs.Chain.Phases
import HashBoard.Proofs.Chain.ThermalPass

/-!
# Dispatch passes

In a pass each active chip is asked for its register, and one that reports room gets the item at the
head of the queue, for the slot under its cursor. No other phase of a scan writes a job.
-/

namespace HashBoard

open Bus Wire

namespace Bus

variable {τ : Type} {bus middle after : Bus τ}

/-! ### Job frames -/

/-- The job frames written, whether the channel took them or not, latest first. -/
def jobFrames (bus : Bus τ) : List Bytes :=
  ((transmissions bus.calls).map Transmission.frame).filter isJobFrame

theorem Exchanged.jobFrames_eq {ts : List Transmission} (h : Exchanged ts bus after) :
    after.jobFrames = (ts.map Transmission.frame).filter isJobFrame ++ bus.jobFrames := by
  rw [jobFrames, h.transmissions, List.map_append, List.filter_append]
  rfl

/-- Between two buses no job was written. -/
def JobFree (bus after : Bus τ) : Prop := after.jobFrames = bus.jobFrames

theorem JobFree.of_one {t : Transmission} {opcode : Opcode} {rest : Bytes}
    (hex : Exchanged [t] bus after) (ht : t.frame = opcode.code :: rest)
    (hopcode : opcode ≠ .sendJob) : JobFree bus after := by
  rw [JobFree, hex.jobFrames_eq, List.map_singleton, ht,
    List.filter_cons_of_neg (by rw [isJobFrame_code hopcode]; exact Bool.false_ne_true)]
  rfl

theorem JobFree.trans (h1 : JobFree bus middle) (h2 : JobFree middle after) : JobFree bus after :=
  Eq.trans h2 h1

variable [Channel τ]

theorem fetchRegister_jobFree {chip : UInt8} {answer : Except ExchangeError Register}
    (h : (fetchRegister chip).runOn bus = (answer, after)) : JobFree bus after := by
  obtain ⟨t, ht, _, hex⟩ := fetchRegister_exchanged h
  exact .of_one hex ht (by decide)

theorem fetchResult_jobFree {answer : Except ExchangeError (Option FoundNonce)}
    (h : fetchResult.runOn bus = (answer, after)) : JobFree bus after := by
  obtain ⟨t, ht, _, hex⟩ := fetchResult_exchanged h
  exact .of_one hex ht (by decide)

/-- A job frame is written first; register reads of the chip may follow. -/
theorem sendJob_transmissions {j : Job} {answer : Except ExchangeError Unit}
    (h : (sendJob (j.frame bus.generation.jobCrc)).runOn bus = (answer, after)) :
    ∃ (job : Transmission) (acks : List Transmission),
      job.frame = jobBytes bus.generation (j.frame bus.generation.jobCrc) ∧
        (∀ ack ∈ acks, ack.frame = readFrame j.chip) ∧ Exchanged (acks ++ [job]) bus after := by
  rw [sendJob, runOn_get_bind] at h
  rcases bind_cases h with ⟨u, middle, hs, h⟩ | ⟨cause, hs, rfl⟩
  · have hsent := send_ok_exchanged hs
    cases hr : bus.generation.jobReceipt with
    | none =>
      simp only [hr] at h
      obtain ⟨_, rfl⟩ := Prod.mk.inj h
      exact ⟨_, [], rfl, List.forall_mem_nil _, hsent⟩
    | waitBusy =>
      simp only [hr, chipOf_frame] at h
      have hack {register : Except ExchangeError Register} {last : Bus τ}
          (hf : (fetchRegister j.chip).runOn middle = (register, last)) :
          ∃ acks : List Transmission, (∀ ack ∈ acks, ack.frame = readFrame j.chip) ∧
            Exchanged (acks ++ [⟨jobBytes bus.generation (j.frame bus.generation.jobCrc), .ok (),
              []⟩]) bus last := by
        obtain ⟨t, ht, _, hex⟩ := fetchRegister_exchanged hf
        exact ⟨[t], by simpa only [List.mem_singleton, forall_eq] using ht, hsent.append hex⟩
      rcases bind_cases h with ⟨register, last, hf, h⟩ | ⟨cause, hf, rfl⟩
      · have hend : after = last := by
          split at h
          · exact (Prod.mk.inj h).2.symm
          · exact (Prod.mk.inj h).2.symm
        obtain ⟨acks, hacks, hex⟩ := hack hf
        rw [hend]
        exact ⟨_, acks, rfl, hacks, hex⟩
      · obtain ⟨acks, hacks, hex⟩ := hack hf
        exact ⟨_, acks, rfl, hacks, hex⟩
  · obtain ⟨wrote, _, hex⟩ := send_exchanged hs
    exact ⟨_, [], rfl, List.forall_mem_nil _, hex⟩

end Bus

namespace Cycle

variable {τ : Type}

/-! ### Phases without jobs -/

theorem fail_queue (cy : Cycle τ) (policy : Tolerance) (now : Nat) (chip : Chip) :
    (cy.fail policy now chip).2.queue = cy.queue := by
  rcases fail_cases cy policy now chip with ⟨_, f, h⟩ | ⟨_, f, h⟩
  · rw [h]
    rfl
  · rw [h]
    rfl

theorem visit_jobFree {f : Chip → Cycle τ → Chip × Cycle τ}
    (hf : ∀ chip cy, JobFree cy.bus (f chip cy).2.bus) (chips : List Chip) (cy : Cycle τ) :
    JobFree cy.bus (visit f chips cy).2.bus := by
  induction chips generalizing cy with
  | nil => rfl
  | cons chip rest ih => exact (hf chip cy).trans (ih (f chip cy).2)

variable [Channel τ]

theorem measure_jobFree (policy : Tolerance) (now : Nat) (chip : Chip) (cy : Cycle τ) :
    JobFree cy.bus (cy.measure policy now chip).2.2.bus := by
  unfold measure
  by_cases ha : chip.condition.isActive = true
  · rw [if_pos ha]
    cases hr : (fetchRegister chip.id).runOn cy.bus with
    | mk answer bus =>
      cases answer with
      | ok register => exact fetchRegister_jobFree hr
      | error cause =>
        simp only [fail_bus]
        exact fetchRegister_jobFree hr
  · rw [if_neg ha]
    rfl

theorem measureAll_jobFree (policy : Tolerance) (now : Nat) (chips : List Chip)
    (schedule : Thermal.Schedule) (cy : Cycle τ) :
    JobFree cy.bus (measureAll policy now chips schedule cy).2.2.bus := by
  induction chips generalizing schedule cy with
  | nil => rfl
  | cons chip rest ih => exact (measure_jobFree policy now chip cy).trans (ih ..)

theorem sample_jobFree (policy : Tolerance) (now : Nat) (chips : List Chip)
    (schedule : Thermal.Schedule) (cy : Cycle τ) :
    JobFree cy.bus (cy.sample policy now chips schedule).2.2.2.bus := by
  unfold sample
  cases schedule.due now with
  | none => rfl
  | some pass =>
    cases pass with
    | full => exact measureAll_jobFree policy now chips schedule cy
    | quick id =>
      cases hplace : chips[id.toNat - 1]? with
      | none =>
        simp only [hplace]
        rfl
      | some chip =>
        simp only [hplace]
        exact measure_jobFree policy now chip cy

theorem takeResults_jobFree (limit : Nat) (chips : List Chip) (cy : Cycle τ) :
    JobFree cy.bus (cy.takeResults limit chips).2.2.bus := by
  induction limit generalizing chips cy with
  | zero => rfl
  | succ limit ih =>
    unfold takeResults
    cases hr : fetchResult.runOn cy.bus with
    | mk answer bus =>
      have hread := fetchResult_jobFree hr
      cases answer with
      | ok got =>
        cases got with
        | none => exact hread
        | some result =>
          have hrest := ih (takeResult result chips { cy with bus }).1
            (takeResult result chips { cy with bus }).2
          rw [takeResult_bus] at hrest
          exact hread.trans hrest
      | error cause =>
        cases cause with
        | crc computed received => exact hread.trans (ih chips (countCrcError { cy with bus }))
        | _ => exact hread

theorem recheck_jobFree (options : DrivingOptions) (now : Nat) (chip : Chip) (cy : Cycle τ) :
    JobFree cy.bus (recheck options now chip cy).2.bus := by
  rcases recheck_cases options now chip cy with heq | hstep
  · rw [heq]
    rfl
  · generalize recheck options now chip cy = rechecked at hstep ⊢
    obtain ⟨chip', cy'⟩ := rechecked
    cases hstep with
    | recovered _ hread => exact fetchRegister_jobFree hread
    | missedAgain _ hread =>
      rw [fail_bus]
      exact fetchRegister_jobFree hread

theorem Move.generation {options : DrivingOptions} {now : Nat} {round : Round} {p q : Moment τ}
    (h : Move options now round p q) : q.2.bus.generation = p.2.bus.generation := by
  cases h with
  | noted chips cy f => rfl
  | step h =>
    rcases h.listens with ⟨_, _, _, _, _, _, rfl, rfl, hchip⟩ | hwrites
    · exact hchip.writesTo.generation
    · exact hwrites.generation

theorem Moves.numbered {options : DrivingOptions} {now : Nat} {round : Round} {p q : Moment τ}
    (h : Moves options now round p q) (hp : Numbered p.1) :
    Numbered q.1 ∧ q.2.bus.generation = p.2.bus.generation := by
  induction h with
  | refl => exact ⟨hp, rfl⟩
  | tail _ hlast ih => exact ⟨hlast.numbered ih.1, hlast.generation.trans ih.2⟩

/-! ### Turns -/

/-- What may be written while it is the turn of a chip, oldest first, with the queue before and
after: register reads alone; or one that finds room, then the job for the head of the queue. -/
inductive Turn (g : Generation) (options : DrivingOptions) (chip : Chip) :
    List Work → List Transmission → List Work → Prop
  | quiet {queue : List Work} {ts : List Transmission}
    (hreads : ∀ t ∈ ts, t.frame = readFrame chip.id) : Turn g options chip queue ts queue
  | given {work : Work} {queue : List Work} {t job : Transmission} {acks : List Transmission}
    {register : Register} (hactive : chip.condition.isActive = true)
    (hask : t.frame = readFrame chip.id) (hread : t.register? g = some register)
    (hroom : register.isBusy g.busyMask = false)
    (hjob : job.frame = jobFor g options chip.id (JobSlots.slotAt chip.slots.cursor) work)
    (hacks : ∀ ack ∈ acks, ack.frame = readFrame chip.id) :
    Turn g options chip (work :: queue) (t :: job :: acks) queue

/-- The turns of some chips, one after the other. -/
inductive Turns (g : Generation) (options : DrivingOptions) :
    List Chip → List Work → List Transmission → List Work → Prop
  | done (queue : List Work) : Turns g options [] queue [] queue
  | next {chip : Chip} {chips : List Chip} {queue queue' queue'' : List Work}
    {ts more : List Transmission} (hturn : Turn g options chip queue ts queue')
    (hrest : Turns g options chips queue' more queue'') :
    Turns g options (chip :: chips) queue (ts ++ more) queue''

theorem giveWork_written (options : DrivingOptions) (work : Work) (chip : Chip) (cy : Cycle τ) :
    (cy.giveWork options work chip).2.2.queue = cy.queue ∧
      ∃ (job : Transmission) (acks : List Transmission),
        job.frame = jobFor cy.bus.generation options chip.id
            (JobSlots.slotAt chip.slots.cursor) work ∧
          (∀ ack ∈ acks, ack.frame = readFrame chip.id) ∧
          Exchanged (acks ++ [job]) cy.bus (cy.giveWork options work chip).2.2.bus := by
  rw [giveWork_eq]
  cases hj : (sendJob ((nextJob options work chip).frame cy.bus.generation.jobCrc)).runOn cy.bus with
  | mk answer bus =>
    obtain ⟨job, acks, hjob, hacks, hex⟩ := sendJob_transmissions hj
    cases answer with
    | error cause => exact ⟨rfl, job, acks, hjob, hacks, hex⟩
    | ok u =>
      refine ⟨?_, job, acks, hjob, hacks, ?_⟩
      · cases chip.slots.current? <;> rfl
      · simp only [retire_bus]
        exact hex

theorem dispatchTo_turn (options : DrivingOptions) (now : Nat) (chip : Chip) (cy : Cycle τ) :
    ∃ ts, Exchanged ts.reverse cy.bus (dispatchTo options now chip cy).2.bus ∧
      Turn cy.bus.generation options chip cy.queue ts (dispatchTo options now chip cy).2.queue := by
  unfold dispatchTo
  by_cases ha : chip.condition.isActive = true
  · rw [if_pos ha]
    cases hr : (fetchRegister chip.id).runOn cy.bus with
    | mk answer bus =>
      obtain ⟨t, hask, hread, hex⟩ := fetchRegister_exchanged hr
      have hreads : ∀ u ∈ [t], u.frame = readFrame chip.id := by
        simpa only [List.mem_singleton, forall_eq] using hask
      cases answer with
      | error cause =>
        refine ⟨[t], ?_, ?_⟩
        · simp only [fail_bus]
          exact hex
        · simp only [fail_queue]
          exact .quiet hreads
      | ok register =>
        have hsuccess : chip.condition.afterSuccess = (.unchanged, chip.condition) := by
          rw [condition_eq_active ha]
          rfl
        simp only [hsuccess]
        by_cases hbusy : register.isBusy bus.generation.busyMask = true
        · rw [if_pos hbusy]
          exact ⟨[t], hex, .quiet hreads⟩
        · rw [if_neg hbusy]
          cases hqueue : cy.queue with
          | nil =>
            exact ⟨[t], hex, .quiet hreads⟩
          | cons work queue =>
            rw [hex.generation] at hbusy
            have hroom : register.isBusy cy.bus.generation.busyMask = false := by
              simpa only [Bool.not_eq_true] using hbusy
            simp only
            obtain ⟨hqueue, job, acks, hjob, hacks, hwrote⟩ := giveWork_written options work
              { chip with register := some register } { cy with bus, queue }
            simp only [hex.generation] at hjob
            refine ⟨t :: job :: acks.reverse, ?_, ?_⟩
            · rw [List.reverse_cons, List.reverse_cons, List.reverse_reverse]
              have hboth := hex.append hwrote
              generalize giveWork options work { chip with register := some register }
                { cy with bus, queue } = given at hboth ⊢
              obtain ⟨sent, chip', cy'⟩ := given
              cases sent with
              | ok u => exact hboth
              | error cause =>
                simp only [fail_bus]
                exact hboth
            · have hturn : Turn cy.bus.generation options chip (work :: queue)
                  (t :: job :: acks.reverse) queue :=
                .given ha hask hread hroom hjob fun ack hack => hacks ack (List.mem_reverse.1 hack)
              generalize giveWork options work { chip with register := some register }
                { cy with bus, queue } = given at hqueue ⊢
              obtain ⟨sent, chip', cy'⟩ := given
              cases sent with
              | ok u =>
                show Turn _ _ _ _ _ cy'.queue
                rw [show cy'.queue = queue from hqueue]
                exact hturn
              | error cause =>
                simp only [fail_queue]
                rw [show cy'.queue = queue from hqueue]
                exact hturn
  · rw [if_neg ha]
    exact ⟨[], ⟨rfl, rfl, List.suffix_refl _, rfl⟩, .quiet nofun⟩

theorem dispatch_turns (options : DrivingOptions) (now : Nat) (chips : List Chip) (cy : Cycle τ) :
    ∃ ts, Exchanged ts.reverse cy.bus (visit (dispatchTo options now) chips cy).2.bus ∧
      Turns cy.bus.generation options chips cy.queue ts
        (visit (dispatchTo options now) chips cy).2.queue := by
  induction chips generalizing cy with
  | nil => exact ⟨[], ⟨rfl, rfl, List.suffix_refl _, rfl⟩, .done _⟩
  | cons chip rest ih =>
    obtain ⟨ts, hex, hturn⟩ := dispatchTo_turn options now chip cy
    obtain ⟨more, hmore, hrest⟩ := ih (dispatchTo options now chip cy).2
    rw [hex.generation] at hrest
    refine ⟨ts ++ more, ?_, .next hturn hrest⟩
    rw [List.reverse_append]
    exact hex.append hmore

/-! ### What turns write -/

variable {g : Generation} {options : DrivingOptions} {chip : Chip} {chips : List Chip}
  {queue queue' : List Work} {ts : List Transmission}

theorem isJobFrame_jobFor (g : Generation) (options : DrivingOptions) (chip : UInt8) (place : Fin 4)
    (work : Work) : isJobFrame (jobFor g options chip (JobSlots.slotAt place) work) = true :=
  isJobFrame_jobBytes _ g (firstByte_slotAt place).1

theorem countP_of_reads {id : UInt8} {p : Transmission → Bool}
    (hreads : ∀ t ∈ ts, t.frame = readFrame id)
    (hp : ∀ t, p t = true → isJobFrame t.frame = true) : ts.countP p = 0 := by
  apply List.countP_eq_zero.2
  intro t ht hjob
  have hframe := hp t hjob
  rw [hreads t ht, isJobFrame_readFrame] at hframe
  cases hframe

theorem Turn.queue_eq (h : Turn g options chip queue ts queue') :
    queue' = queue.drop (ts.countP fun t => isJobFrame t.frame) := by
  cases h with
  | quiet hreads => rw [countP_of_reads hreads fun _ h => h, List.drop_zero]
  | given hactive hask hread hroom hjob hacks =>
    rw [List.countP_cons, List.countP_cons, countP_of_reads hacks fun _ h => h, hask, hjob,
      isJobFrame_readFrame, isJobFrame_jobFor]
    rfl

theorem Turns.queue_eq (h : Turns g options chips queue ts queue') :
    queue' = queue.drop (ts.countP fun t => isJobFrame t.frame) := by
  induction h with
  | done queue => rfl
  | next hturn _ ih => rw [ih, hturn.queue_eq, List.drop_drop, List.countP_append]

theorem Turn.jobs_to (h : Turn g options chip queue ts queue') (id : UInt8) :
    (ts.countP fun t => isJobFrame t.frame && Job.chipOf t.frame == id) ≤
      if chip.id == id then 1 else 0 := by
  have hnone {us : List Transmission} (hreads : ∀ t ∈ us, t.frame = readFrame chip.id) :
      (us.countP fun t => isJobFrame t.frame && Job.chipOf t.frame == id) = 0 :=
    countP_of_reads hreads fun t ht => (Bool.and_eq_true_iff.1 ht).1
  cases h with
  | quiet hreads =>
    rw [hnone hreads]
    exact Nat.zero_le _
  | given hactive hask hread hroom hjob hacks =>
    rw [List.countP_cons, List.countP_cons, hnone hacks, hask, hjob, isJobFrame_readFrame,
      isJobFrame_jobFor, jobFor, chipOf_jobBytes]
    simp only [Bool.true_and, Bool.false_and, Bool.false_eq_true, if_false, Nat.zero_add,
      Nat.add_zero, Nat.le_refl]

theorem Turns.jobs_to (h : Turns g options chips queue ts queue') (id : UInt8) :
    (ts.countP fun t => isJobFrame t.frame && Job.chipOf t.frame == id) ≤
      (chips.map Chip.id).count id := by
  induction h with
  | done queue => exact Nat.le_refl 0
  | next hturn _ ih =>
    rw [List.countP_append, List.map_cons, List.count_cons, Nat.add_comm]
    exact Nat.add_le_add ih (hturn.jobs_to id)

/-- What is written before a job in the turn of its chip is a register read that finds room. -/
theorem Turn.job (h : Turn g options chip queue ts queue') {earlier later : List Transmission}
    {job : Transmission} (hts : ts = earlier ++ job :: later)
    (hframe : isJobFrame job.frame = true) : chip.condition.isActive = true ∧
      ∃ ask register work, earlier = [ask] ∧ ask.frame = readFrame chip.id ∧
        ask.register? g = some register ∧ register.isBusy g.busyMask = false ∧
        queue.head? = some work ∧
        job.frame = jobFor g options chip.id (JobSlots.slotAt chip.slots.cursor) work := by
  have hread {t : Transmission} (ht : t.frame = readFrame chip.id) : t ≠ job := by
    rintro rfl
    rw [ht, isJobFrame_readFrame] at hframe
    cases hframe
  cases h with
  | quiet hreads =>
    have hmem : job ∈ ts := by
      rw [hts]
      exact List.mem_append_cons_self
    exact absurd rfl (hread (hreads job hmem))
  | @given work queue t job' acks register hactive hask hregister hroom hjob hacks =>
    match earlier, hts with
    | [], hts => exact absurd (List.cons.inj hts).1 (hread hask)
    | [ask], hts =>
      obtain ⟨rfl, hrest⟩ := List.cons.inj hts
      obtain ⟨rfl, _⟩ := List.cons.inj hrest
      exact ⟨hactive, t, register, work, rfl, hask, hregister, hroom, rfl, hjob⟩
    | _ :: _ :: earlier, hts =>
      have hmem : job ∈ acks := by
        rw [(List.cons.inj (List.cons.inj hts).2).2]
        exact List.mem_append_cons_self
      exact absurd rfl (hread (hacks job hmem))

/-- The chip that a job is for reported room right before, and the job is for the item at the head
of what the jobs before it left of the queue. -/
theorem Turns.job (h : Turns g options chips queue ts queue') {earlier later : List Transmission}
    {job : Transmission} (hts : ts = earlier ++ job :: later)
    (hframe : isJobFrame job.frame = true) : ∃ chip ∈ chips, chip.condition.isActive = true ∧
      ∃ before ask register work, earlier = before ++ [ask] ∧ ask.frame = readFrame chip.id ∧
        ask.register? g = some register ∧ register.isBusy g.busyMask = false ∧
        queue[earlier.countP fun t => isJobFrame t.frame]? = some work ∧
        job.frame = jobFor g options chip.id (JobSlots.slotAt chip.slots.cursor) work := by
  induction h generalizing earlier with
  | done queue => cases earlier <;> cases hts
  | @next chip chips queue queue' queue'' ts more hturn hrest ih =>
    rcases List.append_eq_append_iff.1 hts with ⟨rest, rfl, hmore⟩ | ⟨rest, hfirst, hrests⟩
    · -- The job is one of a later chip.
      obtain ⟨chip, hmem, hactive, before, ask, register, work, rfl, hask, hread, hroom, hhead,
        hjob⟩ := ih hmore
      refine ⟨chip, List.mem_cons_of_mem _ hmem, hactive, ts ++ before, ask, register, work,
        (List.append_assoc ..).symm, hask, hread, hroom, ?_, hjob⟩
      rw [hturn.queue_eq, List.getElem?_drop] at hhead
      rw [List.countP_append]
      exact hhead
    · cases rest with
      | nil =>
        -- A turn does not start with a job.
        have hfirst : more = [] ++ job :: later := hrests.symm
        obtain ⟨_, _, _, before, ask, _, _, hnone, _⟩ := ih hfirst
        cases before <;> cases hnone
      | cons first rest =>
        obtain ⟨rfl, rfl⟩ := List.cons.inj hrests
        obtain ⟨hactive, ask, register, work, rfl, hask, hread, hroom, hhead, hjob⟩ :=
          hturn.job hfirst hframe
        refine ⟨chip, List.mem_cons_self, hactive, [], ask, register, work, rfl, hask, hread, hroom,
          ?_, hjob⟩
        rw [List.countP_singleton, hask, isJobFrame_readFrame, if_neg Bool.false_ne_true,
          ← List.head?_eq_getElem?]
        exact hhead

end Cycle

/-! ### Scans -/

namespace Service

open HashBoard.Cycle

variable {τ : Type} [Channel τ] {s : Service τ}

/-- Where a scan writes a job, it is in its dispatch pass. -/
theorem scan_jobFrames (s : Service τ) (overview : Thermal.Overview) (now : Nat) :
    JobFree s.chain.bus (s.chain.scan s.sink overview now).chain.bus ∨
      JobFree s.chain.bus (s.chain.drained s.sink now).2.2.bus ∧
        JobFree (s.chain.dispatched s.sink now).2.bus
          (s.chain.scan s.sink overview now).chain.bus := by
  by_cases hcores : s.chain.numCores = 0
  · rw [s.chain.scan_of_numCores_eq_zero s.sink overview now hcores]
    exact .inl rfl
  · have hsampled : JobFree s.chain.bus (s.chain.sampled s.sink now).2.bus :=
      sample_jobFree s.chain.options.tolerance now s.chain.chips s.chain.schedule
        (s.chain.counted.cycle s.sink)
    have hdrained : JobFree s.chain.bus (s.chain.drained s.sink now).2.2.bus :=
      hsampled.trans (takeResults_jobFree ..)
    have hrechecked : JobFree (s.chain.dispatched s.sink now).2.bus
        (s.chain.rechecked s.sink now).2.bus := visit_jobFree (recheck_jobFree _ now) ..
    obtain ⟨p, hend, hcases⟩ := s.chain.scan_phases s.sink overview now hcores
    have hbus : (s.chain.scan s.sink overview now).chain.bus = p.2.bus :=
      congrArg (fun q : Moment τ => q.2.bus) hend
    rw [hbus]
    rcases hcases with ⟨cause, _, rfl, _⟩ | ⟨_, rfl, _⟩
    · exact .inl hdrained
    · exact .inr ⟨hdrained, hrechecked⟩

/-- The slot under the cursor is always found, filled and given back. A scan writes jobs in its
dispatch pass only: at most one for each chip, right after a register read in which the chip, an
active one, reports room, and for the item at the head of the queue and the slot under the cursor.
And on every run, until a chip gives up its jobs, those that it accepts go to its slots in turn, and
each consumes the item of the fourth job before it. -/
theorem Reachable.dispatch_disciplined (h : Reachable s) :
    (∀ (t : JobSlots Work) (work : Work),
      t.release.2.firstFree? = some (JobSlots.slotAt t.cursor) ∧
        (t.release.2.put (JobSlots.slotAt t.cursor) work).1 = .ok () ∧
        ∀ previous, t.release.1 = some previous → (t.release.2.giveBack previous).1 = .ok ()) ∧
    (∀ overview now,
      let scanned := s.chain.scan s.sink overview now
      let drained := (s.chain.drained s.sink now).2
      let dispatched := s.chain.dispatched s.sink now
      scanned.chain.bus.jobFrames = s.chain.bus.jobFrames ∨
      ∃ ts, transmissions dispatched.2.bus.calls =
            ts.reverse ++ transmissions drained.2.bus.calls ∧
          scanned.chain.bus.jobFrames =
            ((ts.map Transmission.frame).filter isJobFrame).reverse ++ s.chain.bus.jobFrames ∧
          dispatched.2.queue = drained.2.queue.drop (ts.countP fun t => isJobFrame t.frame) ∧
          (∀ id, (ts.countP fun t => isJobFrame t.frame && Job.chipOf t.frame == id) ≤ 1) ∧
          ∀ earlier job later, ts = earlier ++ job :: later → isJobFrame job.frame = true →
            ∃ chip ∈ drained.1, chip.condition.isActive = true ∧
              ∃ before ask register work, earlier = before ++ [ask] ∧
                ask.frame = readFrame chip.id ∧
                ask.register? s.chain.generation = some register ∧
                register.isBusy s.chain.generation.busyMask = false ∧
                drained.2.queue[earlier.countP fun t => isJobFrame t.frame]? = some work ∧
                job.frame = jobFor s.chain.generation s.chain.options chip.id
                  (JobSlots.slotAt chip.slots.cursor) work) ∧
    ∃ held : UInt8 → List Work, ∀ requests, ∃ record,
      Recorded (s.run requests).chain.options held s.moment record (s.run requests).moment ∧
        record.countP Entry.isReclaimed = requests.countP Request.isReclaim := by
  refine ⟨?_, ?_, h.recorded⟩
  · intro t work
    refine ⟨t.firstFree?_release, congrArg Prod.fst (t.put_release work), ?_⟩
    intro previous hprevious
    exact congrArg Prod.fst (t.giveBack_release hprevious)
  · intro overview now scanned drained dispatched
    obtain ⟨hnum, hgeneration⟩ : Numbered drained.1 ∧
        drained.2.bus.generation = s.chain.generation :=
      (s.chain.drained_moves s.sink now).numbered h.sound.numbered
    rcases scan_jobFrames s overview now with hnone | ⟨hbefore, hafter⟩
    · exact .inl hnone
    · obtain ⟨ts, hex, hturns⟩ :=
        dispatch_turns s.chain.options now drained.1 drained.2
      rw [hgeneration] at hturns
      refine .inr ⟨ts, hex.transmissions, ?_, hturns.queue_eq, ?_, ?_⟩
      · have hpass : dispatched.2.bus.jobFrames = _ := hex.jobFrames_eq
        rw [List.map_reverse, List.filter_reverse] at hpass
        rw [← hbefore, ← hpass]
        exact hafter
      · intro id
        exact Nat.le_trans (hturns.jobs_to id) (List.nodup_iff_count_le_one.1 hnum.nodup id)
      · intro earlier job later hts hframe
        exact hturns.job hts hframe

/-- Five jobs of a chip go to its slots 1, 2, 3, 4 and 1, and the last of them consumes the item of
the first. -/
theorem dispatch_disciplined_of_five_jobs : ∃ s : Service Script, Reachable s ∧
    ∃ requests, ∃ held record,
      Recorded (s.run requests).chain.options held s.moment record (s.run requests).moment ∧
        (s.run requests).chain.bus.acceptedFrames.map Job.slotOf = [1, 4, 3, 2, 1] ∧
        (consumedIn (s.run requests).sink.events).map Work.header = [.replicate 76 1] := by
  let taken : List Bytes := [[], chipReply false, [], chipReply true]
  let replies := taken ++ taken ++ taken ++ taken ++ taken
  let requests : List Request :=
    [.offer (itemOf 1), .scan .empty 0, .offer (itemOf 2), .scan .empty 0, .offer (itemOf 3),
     .scan .empty 0, .offer (itemOf 4), .scan .empty 0, .offer (itemOf 5), .scan .empty 0]
  have hany : ((ofBus? (oneChip replies) 60000).any fun s =>
      decide ((s.run requests).chain.bus.acceptedFrames.map Job.slotOf = [1, 4, 3, 2, 1] ∧
        (consumedIn (s.run requests).sink.events).map Work.header = [.replicate 76 1])) = true := by
    decide +kernel
  obtain ⟨s, hs, hcheck⟩ := (Option.any_eq_true _ _).1 hany
  obtain ⟨hslots, hconsumed⟩ := of_decide_eq_true hcheck
  obtain ⟨_, _, held, hrecorded⟩ := (reachable_of_ofBus? hs).dispatch_disciplined
  obtain ⟨record, hrecord, _⟩ := hrecorded requests
  exact ⟨s, reachable_of_ofBus? hs, requests, held, record, hrecord, hslots, hconsumed⟩

end Service

end HashBoard
