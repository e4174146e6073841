import HashBoard.Proofs.Bus.Transcript

/-!
# The jobs on the wire

Which job frames a channel took, read off the transcript, and what the transmission after each says
of it on generations that acknowledge jobs. The main statement is that sending a job adds its frame
to the accepted ones exactly when the exchange succeeds, and that no other exchange adds a job.
-/

namespace HashBoard.Bus

open Wire

/-! ### Verdicts -/

inductive JobVerdict where
  | accepted
  /-- A complete register read after it reports room in the queue. -/
  | refused
  /-- No complete register read follows it. -/
  | unanswered
  deriving DecidableEq

/-- What the next transmission says of a job frame. -/
def JobVerdict.of (g : Generation) (frame : Bytes) (next : Option Transmission) : JobVerdict :=
  match g.jobReceipt with
  | .none => accepted
  | .waitBusy =>
    match (next.filter fun t => t.frame = readFrame (Job.chipOf frame)).bind (·.register? g) with
    | some register => if register.isBusy g.busyMask then accepted else refused
    | none => unanswered

structure SentJob where
  frame : Bytes
  verdict : JobVerdict
  deriving DecidableEq

def isJobFrame (frame : Bytes) : Bool := frame.headD 0 &&& 0x0f == Opcode.sendJob.code

def Transmission.isJob (t : Transmission) : Bool := t.answer.isOk && isJobFrame t.frame

/-- The jobs among some transmissions, latest first, when `next` is the transmission after them. -/
def jobsAmong (g : Generation) : Option Transmission → List Transmission → List SentJob
  | _, [] => []
  | next, t :: older =>
    if t.isJob then ⟨t.frame, .of g t.frame next⟩ :: jobsAmong g (some t) older
    else jobsAmong g (some t) older

def jobsSent (g : Generation) (calls : List Call) : List SentJob :=
  jobsAmong g none (transmissions calls)

def sentJobs {τ : Type} (bus : Bus τ) : List SentJob := jobsSent bus.generation bus.calls

/-- No job still waits for its acknowledgement. -/
def Settled {τ : Type} (bus : Bus τ) : Prop :=
  bus.generation.jobReceipt = .waitBusy → ∀ t ∈ (transmissions bus.calls).head?, t.isJob = false

theorem isJob_eq_false {t : Transmission} (h : isJobFrame t.frame = false) : t.isJob = false := by
  rw [Transmission.isJob, h, Bool.and_false]

theorem jobsAmong_cons_of_not_isJob {g : Generation} {next : Option Transmission}
    {t : Transmission} {older : List Transmission} (h : t.isJob = false) :
    jobsAmong g next (t :: older) = jobsAmong g (some t) older := by
  rw [jobsAmong, h, if_neg Bool.false_ne_true]

theorem jobsAmong_next {g : Generation} {ts : List Transmission} (first second : Option Transmission)
    (h : g.jobReceipt = .waitBusy → ∀ t ∈ ts.head?, t.isJob = false) :
    jobsAmong g first ts = jobsAmong g second ts := by
  cases ts with
  | nil => rfl
  | cons t older =>
    cases hr : g.jobReceipt with
    | none =>
      have hof (next : Option Transmission) : JobVerdict.of g t.frame next = .accepted := by
        simp only [JobVerdict.of, hr]
      rw [jobsAmong, jobsAmong, hof, hof]
    | waitBusy =>
      have ht : t.isJob = false := h hr t rfl
      rw [jobsAmong_cons_of_not_isJob ht, jobsAmong_cons_of_not_isJob ht]

/-! ### Other exchanges -/

variable {τ : Type} {bus middle after : Bus τ} {t : Transmission} {ts : List Transmission}

theorem jobsAmong_append_of_not_isJob {g : Generation} {older : List Transmission}
    (next : Option Transmission) (hts : ∀ t ∈ ts, t.isJob = false)
    (hold : g.jobReceipt = .waitBusy → ∀ t ∈ older.head?, t.isJob = false) :
    jobsAmong g next (ts ++ older) = jobsAmong g none older := by
  induction ts generalizing next with
  | nil => exact jobsAmong_next next none hold
  | cons t ts ih =>
    rw [List.cons_append, jobsAmong_cons_of_not_isJob (hts t (List.mem_cons_self ..))]
    exact ih (some t) fun u hu => hts u (List.mem_cons_of_mem _ hu)

theorem settled_of_exchanged (ht : t.isJob = false) (hex : Exchanged (t :: ts) bus after) :
    Settled after := by
  intro _ u hu
  rw [hex.transmissions] at hu
  obtain rfl := Option.some.inj hu
  exact ht

def Jobless {τ : Type} (bus after : Bus τ) : Prop :=
  ∃ ts, Exchanged ts bus after ∧ ∀ t ∈ ts, t.isJob = false

namespace Jobless

theorem refl (bus : Bus τ) : Jobless bus bus :=
  ⟨[], ⟨rfl, rfl, List.suffix_refl _, rfl⟩, fun _ ht => nomatch ht⟩

theorem of_one (hex : Exchanged [t] bus after) (ht : t.isJob = false) : Jobless bus after :=
  ⟨[t], hex, fun u hu => by rw [List.mem_singleton.1 hu, ht]⟩

theorem trans (h1 : Jobless bus middle) (h2 : Jobless middle after) : Jobless bus after := by
  obtain ⟨first, hex1, hfirst⟩ := h1
  obtain ⟨second, hex2, hsecond⟩ := h2
  refine ⟨second ++ first, hex1.append hex2, ?_⟩
  intro t ht
  rcases List.mem_append.1 ht with ht | ht
  · exact hsecond t ht
  · exact hfirst t ht

theorem generation (h : Jobless bus after) : after.generation = bus.generation := by
  obtain ⟨_, hex, _⟩ := h
  exact hex.generation

theorem calls (h : Jobless bus after) : bus.calls <:+ after.calls := by
  obtain ⟨_, hex, _⟩ := h
  exact hex.calls

theorem sentJobs (h : Jobless bus after) (hs : Settled bus) : after.sentJobs = bus.sentJobs := by
  obtain ⟨ts, hex, hts⟩ := h
  rw [Bus.sentJobs, Bus.sentJobs, jobsSent, jobsSent, hex.generation, hex.transmissions]
  exact jobsAmong_append_of_not_isJob none hts hs

theorem settled (h : Jobless bus after) (hs : Settled bus) : Settled after := by
  obtain ⟨ts, hex, hts⟩ := h
  cases ts with
  | nil =>
    intro hwait
    rw [hex.transmissions]
    rw [hex.generation] at hwait
    exact hs hwait
  | cons t ts => exact settled_of_exchanged (hts t (List.mem_cons_self ..)) hex

end Jobless

/-! ### Job frames -/

theorem frame_eq_cons (j : Job) (g : Generation) :
    ∃ rest, jobBytes g (j.frame g.jobCrc) = Job.firstByte j.slot :: j.chip :: rest := by
  cases hc : g.jobCrc with
  | true => exact ⟨_, rfl⟩
  | false => exact ⟨_, rfl⟩

theorem isJobFrame_jobBytes (j : Job) (g : Generation)
    (hslot : Job.firstByte j.slot &&& 0x0f = Opcode.sendJob.code) :
    isJobFrame (jobBytes g (j.frame g.jobCrc)) = true := by
  obtain ⟨rest, hr⟩ := frame_eq_cons j g
  rw [hr, isJobFrame, List.headD_cons, hslot]
  rfl

theorem chipOf_jobBytes (j : Job) (g : Generation) :
    Job.chipOf (jobBytes g (j.frame g.jobCrc)) = j.chip := by
  obtain ⟨rest, hr⟩ := frame_eq_cons j g
  rw [hr]
  rfl

theorem chipOf_frame (j : Job) (crc : Bool) : Job.chipOf (j.frame crc) = j.chip := by
  cases crc with
  | true => rfl
  | false => rfl

theorem slotOf_jobBytes (j : Job) (g : Generation) :
    Job.slotOf (jobBytes g (j.frame g.jobCrc)) = Job.firstByte j.slot >>> 4 := by
  obtain ⟨rest, hr⟩ := frame_eq_cons j g
  rw [hr]
  rfl

/-! ### Sending a job -/

theorem isJobFrame_code {opcode : Opcode} (h : opcode ≠ .sendJob) (rest : Bytes) :
    isJobFrame (opcode.code :: rest) = false := by
  rw [isJobFrame, List.headD_cons]
  revert h
  cases opcode <;> decide

theorem isJobFrame_readFrame (chip : UInt8) : isJobFrame (readFrame chip) = false :=
  isJobFrame_code (by decide) _

theorem sentJobs_of_job {frame : Bytes} (next : Option Transmission)
    (hjob : isJobFrame frame = true) (hs : Settled bus)
    (hnext : ∀ t ∈ next, isJobFrame t.frame = false)
    (hex : Exchanged (next.toList ++ [⟨frame, .ok (), []⟩]) bus after) :
    after.sentJobs = ⟨frame, .of bus.generation frame next⟩ :: bus.sentJobs := by
  have hone (n : Option Transmission) :
      jobsAmong bus.generation n (⟨frame, .ok (), []⟩ :: transmissions bus.calls) =
        ⟨frame, .of bus.generation frame n⟩ :: bus.sentJobs := by
    have ht : Transmission.isJob ⟨frame, .ok (), []⟩ = true := hjob
    rw [jobsAmong, if_pos ht, jobsAmong_next _ none hs]
    rfl
  rw [sentJobs, jobsSent, hex.generation, hex.transmissions]
  cases next with
  | none => exact hone none
  | some t =>
    have ht : t.isJob = false := isJob_eq_false (hnext t rfl)
    show jobsAmong bus.generation none (t :: ⟨frame, .ok (), []⟩ :: transmissions bus.calls) = _
    rw [jobsAmong_cons_of_not_isJob ht]
    exact hone (some t)

theorem sentJobs_of_acknowledgement {frame : Bytes} {t : Transmission}
    (hjob : isJobFrame frame = true) (hs : Settled bus)
    (hr : bus.generation.jobReceipt = .waitBusy) (ht : t.frame = readFrame (Job.chipOf frame))
    (hex : Exchanged [t, ⟨frame, .ok (), []⟩] bus after) :
    after.sentJobs = ⟨frame, match t.register? bus.generation with
      | some register => if register.isBusy bus.generation.busyMask then .accepted else .refused
      | none => .unanswered⟩ :: bus.sentJobs := by
  have hnext : ∀ u ∈ some t, isJobFrame u.frame = false := by
    intro u hu
    obtain rfl := Option.some.inj hu
    rw [ht]
    exact isJobFrame_readFrame _
  rw [sentJobs_of_job (some t) hjob hs hnext hex, JobVerdict.of, hr]
  simp only [Option.filter_some, ht, decide_true, if_true, Option.bind_some]

variable [Channel τ]

theorem fetchRegister_jobless {chip : UInt8} {answer : Except ExchangeError Register}
    (h : (fetchRegister chip).runOn bus = (answer, after)) : Jobless bus after := by
  obtain ⟨t, ht, _, hex⟩ := fetchRegister_exchanged h
  exact .of_one hex (isJob_eq_false (by rw [ht]; exact isJobFrame_readFrame chip))

theorem fetchResult_jobless {answer : Except ExchangeError (Option FoundNonce)}
    (h : fetchResult.runOn bus = (answer, after)) : Jobless bus after := by
  obtain ⟨t, ht, _, hex⟩ := fetchResult_exchanged h
  exact .of_one hex (isJob_eq_false (by rw [ht]; exact isJobFrame_code (by decide) _))

theorem emptyJobQueue_jobless {address : UInt8} {answer : Except ExchangeError Unit}
    (h : (emptyJobQueue address).runOn bus = (answer, after)) : Jobless bus after := by
  obtain ⟨t, ht, hex⟩ := emptyJobQueue_exchanged h
  have hreset : t.isJob = false := isJob_eq_false (by rw [ht]; exact isJobFrame_code (by decide) _)
  rcases hex with hex | ⟨r, hr, hex⟩
  · exact .of_one hex hreset
  · have hprobe : r.isJob = false := isJob_eq_false (by rw [hr]; exact isJobFrame_readFrame _)
    refine ⟨[r, t], hex, fun u hu => ?_⟩
    rcases List.mem_cons.1 hu with rfl | hu
    · exact hprobe
    · rw [List.mem_singleton.1 hu, hreset]

theorem fetchRegister_after_job {j : Job} {middle : Bus τ} {answer : Except ExchangeError Register}
    (hslot : Job.firstByte j.slot &&& 0x0f = Opcode.sendJob.code) (hs : Settled bus)
    (hreceipt : bus.generation.jobReceipt = .waitBusy)
    (hsent : Exchanged [⟨jobBytes bus.generation (j.frame bus.generation.jobCrc), .ok (), []⟩] bus
      middle)
    (h : (fetchRegister (Job.chipOf (j.frame bus.generation.jobCrc))).runOn middle =
      (answer, after)) :
    after.generation = bus.generation ∧ bus.calls <:+ after.calls ∧ Settled after ∧
      after.sentJobs = ⟨jobBytes bus.generation (j.frame bus.generation.jobCrc),
        match answer.toOption with
        | some register => if register.isBusy bus.generation.busyMask then .accepted else .refused
        | none => .unanswered⟩ :: bus.sentJobs := by
  obtain ⟨t, ht, hreg, hex⟩ := fetchRegister_exchanged h
  have hboth := hsent.append hex
  rw [hsent.generation] at hreg
  rw [chipOf_frame, ← chipOf_jobBytes j bus.generation] at ht
  have hprobe : t.isJob = false := isJob_eq_false (by rw [ht]; exact isJobFrame_readFrame _)
  refine ⟨hboth.generation, hboth.calls, settled_of_exchanged hprobe hboth, ?_⟩
  rw [← hreg]
  exact sentJobs_of_acknowledgement (isJobFrame_jobBytes j bus.generation hslot) hs hreceipt ht hboth

/-- A job is among the accepted ones exactly when sending it succeeds. -/
theorem sendJob_exchanged {j : Job} {answer : Except ExchangeError Unit}
    (hslot : Job.firstByte j.slot &&& 0x0f = Opcode.sendJob.code) (hs : Settled bus)
    (h : (sendJob (j.frame bus.generation.jobCrc)).runOn bus = (answer, after)) :
    after.generation = bus.generation ∧ bus.calls <:+ after.calls ∧ Settled after ∧
      ((answer = .ok () ∧ after.sentJobs =
          ⟨jobBytes bus.generation (j.frame bus.generation.jobCrc), .accepted⟩ :: bus.sentJobs) ∨
        (∃ cause, answer = .error cause) ∧
          (after.sentJobs = bus.sentJobs ∨ ∃ verdict, verdict ≠ .accepted ∧ after.sentJobs =
            ⟨jobBytes bus.generation (j.frame bus.generation.jobCrc), verdict⟩ :: bus.sentJobs)) := by
  have hjob := isJobFrame_jobBytes j bus.generation hslot
  rw [sendJob, runOn_get_bind] at h
  rcases bind_cases h with ⟨u, middle, hw, h⟩ | ⟨cause, hw, rfl⟩
  · have hsent := send_ok_exchanged hw
    cases hr : bus.generation.jobReceipt with
    | none =>
      rw [hr] at h
      obtain ⟨rfl, rfl⟩ := Prod.mk.inj h
      refine ⟨hsent.generation, hsent.calls, ?_, .inl ⟨rfl, ?_⟩⟩
      · intro hwait
        rw [hsent.generation, hr] at hwait
        cases hwait
      · rw [sentJobs_of_job none hjob hs (fun t ht => nomatch ht) hsent, JobVerdict.of, hr]
    | waitBusy =>
      rw [hr] at h
      rcases bind_cases h with ⟨register, last, hf, h⟩ | ⟨cause, hf, rfl⟩
      · obtain ⟨hgen, hcalls, hsettled, hjobs⟩ := fetchRegister_after_job hslot hs hr hsent hf
        by_cases hbusy : register.isBusy bus.generation.busyMask = true
        · rw [if_pos hbusy] at h
          obtain ⟨rfl, rfl⟩ := Prod.mk.inj h
          refine ⟨hgen, hcalls, hsettled, .inl ⟨rfl, ?_⟩⟩
          rw [hjobs]
          simp only [Except.toOption, hbusy, if_true]
        · rw [if_neg hbusy] at h
          obtain ⟨rfl, rfl⟩ := Prod.mk.inj h
          refine ⟨hgen, hcalls, hsettled, .inr ⟨⟨_, rfl⟩, .inr ⟨.refused, nofun, ?_⟩⟩⟩
          rw [hjobs]
          simp only [Except.toOption, hbusy]
          rfl
      · obtain ⟨hgen, hcalls, hsettled, hjobs⟩ := fetchRegister_after_job hslot hs hr hsent hf
        exact ⟨hgen, hcalls, hsettled, .inr ⟨⟨_, rfl⟩, .inr ⟨.unanswered, nofun, hjobs⟩⟩⟩
  · obtain ⟨wrote, hwrote, hex⟩ := send_exchanged hw
    cases wrote with
    | ok u => cases hwrote
    | error failure =>
      -- The channel did not take the frame, so it counts for no job.
      have ht : Transmission.isJob
          ⟨jobBytes bus.generation (j.frame bus.generation.jobCrc), .error failure, []⟩ = false := rfl
      have hjobless : Jobless bus after := .of_one hex ht
      exact ⟨hex.generation, hex.calls, hjobless.settled hs,
        .inr ⟨⟨_, rfl⟩, .inl (hjobless.sentJobs hs)⟩⟩

end HashBoard.Bus
