import HashBoard.Proofs.Bus.FirstFailure
import HashBoard.Proofs.Bus.Transcript

/-!
# One attempt for each command

Every command writes its own frame once and then reads what a poll and one response may take. Only
an emptied job queue and a job that is to be acknowledged lead to a second frame, which reads a
register, and only once the first exchange has brought what it should. The first call that fails is
the last one, and its error is the answer.
-/

namespace HashBoard.Bus

open Wire

/-! ### The commands -/

/-- The commands of a bus, by what they answer. -/
inductive Command : Type → Type where
  | reset (address : UInt8) : Command Unit
  | emptyJobQueue (address : UInt8) : Command Unit
  | startSelfTest (address : UInt8) : Command UInt8
  | collectSelfTest (address : UInt8) : Command Unit
  | fixSelfTest (address : UInt8) : Command Unit
  | storeRegister (address : UInt8) (register : Register) : Command Unit
  | storeSecondary (address : UInt8) (register : Register) : Command Unit
  | fetchRegister (chip : UInt8) : Command Register
  | sendJob (frame : Bytes) : Command Unit
  | fetchResult : Command (Option FoundNonce)

def Command.exchange {τ α : Type} [Channel τ] : Command α → Exchange τ α
  | .reset address => Bus.reset address
  | .emptyJobQueue address => Bus.emptyJobQueue address
  | .startSelfTest address => Bus.startSelfTest address
  | .collectSelfTest address => Bus.collectSelfTest address
  | .fixSelfTest address => Bus.fixSelfTest address
  | .storeRegister address register => Bus.storeRegister address register
  | .storeSecondary address register => Bus.storeSecondary address register
  | .fetchRegister chip => Bus.fetchRegister chip
  | .sendJob frame => Bus.sendJob frame
  | .fetchResult => Bus.fetchResult

/-- The frame by which a command is known. -/
def Command.frame {α : Type} (g : Generation) : Command α → Bytes
  | .reset address => [Opcode.reset.code, address, 0, 0]
  | .emptyJobQueue address => queueResetFrame address
  | .startSelfTest address => [Opcode.startSelfTest.code, address, 0, 0]
  | .collectSelfTest address => [Opcode.collectSelfTest.code, address, 0, 0]
  | .fixSelfTest address => [Opcode.fixSelfTest.code, address, 0, 0]
  | .storeRegister address register => register.storeFrame .writeReg address
  | .storeSecondary address register => register.storeFrame .writeSecReg address
  | .fetchRegister chip => readFrame chip
  | .sendJob frame => jobBytes g frame
  | .fetchResult => resultRequest

/-- The length of the response to that frame; a job has none. -/
def Command.responseLength? {α : Type} (g : Generation) : Command α → Option Nat
  | .reset _ | .emptyJobQueue _ | .startSelfTest _ | .collectSelfTest _ | .fixSelfTest _ =>
    some acknowledgementLength
  | .storeRegister _ _ => some g.regLen
  | .storeSecondary _ _ => some (g.regLen + secondaryExtra)
  | .fetchRegister _ => some (2 + g.regLen)
  | .sendJob _ => none
  | .fetchResult => some resultFrameLength

/-- The bytes that the exchange of its own frame may read. -/
def Command.readBound {α : Type} (g : Generation) (limits : PollLimits) (c : Command α) : Nat :=
  (c.responseLength? g).elim 0 (pollBound limits)

/-- The chip whose register a command reads in the end. -/
def Command.probe? {α : Type} (g : Generation) : Command α → Option UInt8
  | .emptyJobQueue address => some (if address = broadcast then 1 else address)
  | .sendJob frame => if g.jobReceipt = .waitBusy then some (Job.chipOf frame) else none
  | _ => none

/-- What has to be heard before that register is read. -/
def Command.echo? {α : Type} : Command α → Option Opcode
  | .emptyJobQueue _ => some .reset
  | _ => none

/-! ### Exchanges -/

def Call.heard? : Call → Option (Except ChannelError Bytes)
  | wrote _ _ => none
  | read _ answer => some answer

theorem filterMap_heard? {τ : Type} {bus after : Bus τ} {reads : List Call}
    {heard : List (Except ChannelError Bytes)}
    (hmade : Made reads bus after) (hears : Hears heard bus after) :
    reads.filterMap Call.heard? = heard := by
  obtain ⟨counts, hlength, hcalls⟩ := hears.calls
  rw [hmade.unique ⟨hears.generation, hears.limits, hcalls⟩]
  clear hcalls hmade hears
  induction heard generalizing counts with
  | nil => rw [List.zipWith_nil_right, List.filterMap_nil]
  | cons answer heard ih =>
    cases counts with
    | nil => cases hlength
    | cons count counts =>
      rw [List.zipWith_cons_cons, List.filterMap_cons]
      exact congrArg (answer :: ·) (ih counts (Nat.succ.inj hlength))

/-- A frame is written, taken or not, and behind it there are only reads. -/
def OneExchange (frame : Bytes) (bytes : Nat) (calls : List Call) : Prop :=
  ∃ answer reads, calls = .wrote frame answer :: reads ∧ AllReads bytes reads

theorem OneExchange.append {frame : Bytes} {m n : Nat} {calls reads : List Call}
    (h : OneExchange frame m calls) (hreads : AllReads n reads) :
    OneExchange frame (m + n) (calls ++ reads) := by
  obtain ⟨answer, before, rfl, hbefore⟩ := h
  exact ⟨answer, before ++ reads, rfl, hbefore.append hreads⟩

/-- The echo that is waited for, if any, was heard complete. -/
def EchoHeard (g : Generation) (echo? : Option Opcode) (calls : List Call) : Prop :=
  ∀ opcode ∈ echo?, ∃ response, response? (fun first _ => g.echoRule.accepts first opcode.code)
    acknowledgementLength (calls.filterMap Call.heard?) = some response

/-- Every call succeeded, and the echo was heard. -/
structure Succeeded (g : Generation) (echo? : Option Opcode) (calls : List Call) : Prop where
  all : ∀ call ∈ calls, call.failure? = none
  echo : EchoHeard g echo? calls

/-- The calls of a command: its own exchange, and the register read that may follow it. -/
def Command.Attempt {α : Type} (c : Command α) (g : Generation) (limits : PollLimits)
    (calls : List Call) : Prop :=
  ∃ first second, calls = first ++ second ∧
    OneExchange (c.frame g) (c.readBound g limits) first ∧
    (second = [] ∨ ∃ chip, c.probe? g = some chip ∧ Succeeded g c.echo? first ∧
      OneExchange (readFrame chip) (pollBound limits (2 + g.regLen)) second)

theorem Command.Attempt.single {α : Type} {c : Command α} {g : Generation} {limits : PollLimits}
    {calls : List Call} (h : OneExchange (c.frame g) (c.readBound g limits) calls) :
    c.Attempt g limits calls :=
  ⟨calls, [], (List.append_nil calls).symm, h, .inl rfl⟩

variable {τ α β : Type} {bus middle after : Bus τ}

/-- The exchange writes one frame, reads at most so many bytes, and answers honestly. -/
def Once (frame : Bytes) (bytes : Nat) (x : Exchange τ α) (bus : Bus τ) : Prop :=
  Performs (OneExchange frame bytes) x bus

theorem Once.bind {frame : Bytes} {m n : Nat} {x : Exchange τ α} {f : α → Exchange τ β}
    (hx : Once frame m x bus)
    (hf : ∀ a middle, x.runOn bus = (.ok a, middle) → OnlyReads n (f a) middle) :
    Once frame (m + n) (x >>= f) bus := by
  refine Performs.bind hx (fun calls hfirst => ?_) fun first a middle hfirst hrun _ => ?_
  · obtain ⟨answer, reads, hcalls, hreads⟩ := hfirst
    exact ⟨answer, reads, hcalls, hreads.mono (Nat.le_add_right m n)⟩
  · exact Performs.mono (hf a middle hrun) fun _ => hfirst.append

/-- A command makes the attempt that it should, and its answer is true to that. -/
def Attempted (c : Command α) (x : Exchange τ α) (bus : Bus τ) : Prop :=
  Performs (c.Attempt bus.generation bus.limits) x bus

theorem Once.attempted (c : Command α) {x : Exchange τ α}
    (h : Once (c.frame bus.generation) (c.readBound bus.generation bus.limits) x bus) :
    Attempted c x bus :=
  Performs.mono h fun _ => .single

/-- An exchange that is followed by a register read, once it has succeeded. -/
theorem Once.attempted_with_probe (c : Command α) {opening : Exchange τ β} {rest : β → Exchange τ α}
    {chip : UInt8}
    (hopening : Once (c.frame bus.generation) (c.readBound bus.generation bus.limits) opening bus)
    (hchip : c.probe? bus.generation = some chip)
    (hecho : ∀ b middle calls, opening.runOn bus = (.ok b, middle) → Made calls bus middle →
      EchoHeard bus.generation c.echo? calls)
    (hrest : ∀ b (middle : Bus τ), middle.generation = bus.generation → middle.limits = bus.limits →
      Once (readFrame chip) (pollBound bus.limits (2 + bus.generation.regLen)) (rest b) middle) :
    Attempted c (opening >>= rest) bus := by
  refine Performs.bind hopening (fun _ => .single) fun first b middle hown hrun hanswered => ?_
  obtain ⟨hmade, hhonest⟩ := hanswered
  have hsucceeded : Succeeded bus.generation c.echo? first :=
    ⟨hhonest.succeeded, hecho b middle first hrun hmade⟩
  exact Performs.mono (hrest b middle hmade.generation hmade.limits) fun second hprobe =>
    ⟨first, second, rfl, hown, .inr ⟨chip, hchip, hsucceeded, hprobe⟩⟩

/-! ### One exchange -/

variable [Channel τ]

theorem send_once (frame : Bytes) (bus : Bus τ) : Once frame 0 (send frame) bus :=
  ⟨_, send_performed frame bus, _, [], rfl, nofun, Nat.le_refl 0⟩

/-- What follows a frame that was taken runs with the generation and the limits it was sent with. -/
theorem send_bind_once {frame : Bytes} {n : Nat} {f : Unit → Exchange τ α} {bus : Bus τ}
    (hf : ∀ middle : Bus τ, middle.generation = bus.generation → middle.limits = bus.limits →
      OnlyReads n (f ()) middle) : Once frame n (send frame >>= f) bus := by
  have honce := (send_once frame bus).bind (n := n) (f := f) fun _ middle hrun =>
    hf middle (send_ok_exchanged hrun).generation (send_ok_exchanged hrun).limits
  rwa [Nat.zero_add] at honce

theorem acknowledged_once (opcode : Opcode) (address : UInt8) (bus : Bus τ) :
    Once [opcode.code, address, 0, 0] (pollBound bus.limits acknowledgementLength)
      (acknowledged opcode address) bus := by
  apply send_bind_once
  intro middle _ hlimits
  rw [← hlimits]
  exact (expect_onlyReads _ _ middle).discard

theorem startSelfTest_once (address : UInt8) (bus : Bus τ) :
    Once [Opcode.startSelfTest.code, address, 0, 0] (pollBound bus.limits acknowledgementLength)
      (startSelfTest address) bus := by
  apply send_bind_once
  intro middle _ hlimits
  rw [← hlimits]
  exact (expect_onlyReads _ _ middle).bind fun response last _ => .pure _ last

/-- A register that is stored is echoed with so many bytes more than it has. -/
theorem stored_once (opcode : Opcode) (extra : Nat) (address : UInt8) (register : Register)
    (bus : Bus τ) : Once (register.storeFrame opcode address)
      (pollBound bus.limits (bus.generation.regLen + extra))
      (stored opcode extra address register) bus := by
  apply send_bind_once
  intro middle hgeneration hlimits
  rw [← hlimits, ← hgeneration]
  exact .get_bind (expect_onlyReads _ _ middle).discard

theorem fetchRegister_once (chip : UInt8) (bus : Bus τ) :
    Once (readFrame chip) (pollBound bus.limits (2 + bus.generation.regLen))
      (fetchRegister chip) bus := by
  apply send_bind_once
  intro middle hgeneration hlimits
  rw [← hlimits, ← hgeneration]
  refine .get_bind ((poll_onlyReads _ _ _ middle).bind (n := 0) fun got last _ => ?_)
  cases got with
  | none => exact .throw rfl last
  | some response =>
    simp only
    cases Register.ofBytes? (response.drop 2) with
    | none => exact .throw rfl last
    | some register => exact .pure register last

theorem fetchResult_once (bus : Bus τ) :
    Once resultRequest (pollBound bus.limits resultFrameLength) fetchResult bus := by
  apply send_bind_once
  intro middle _ hlimits
  rw [← hlimits]
  refine (poll_onlyReads _ _ _ middle).bind (n := 0) fun got last _ => ?_
  cases got with
  | none => exact .pure none last
  | some response =>
    simp only
    rcases FoundNonce.decode_cases (Bytes.toVector 10 response) with
      ⟨_, result, hdecode⟩ | ⟨_, computed, received, hdecode⟩
    · rw [hdecode]
      exact .pure (some result) last
    · rw [hdecode]
      exact .throw rfl last

/-! ### A second exchange -/

/-- An echo that was waited for successfully is among what was heard. -/
theorem expect_echo {opcode : Opcode} {length : Nat} {response : Bytes} {reads : List Call}
    (h : (expect opcode length).runOn bus = (.ok response, after)) (hmade : Made reads bus after) :
    response? (fun first _ => bus.generation.echoRule.accepts first opcode.code) length
      (reads.filterMap Call.heard?) = some response := by
  rw [expect, runOn_get_bind] at h
  rcases bind_cases h with ⟨got, middle, hpoll, h⟩ | ⟨cause, hpoll, hcause⟩
  · obtain ⟨heard, hears, hresponse, _⟩ := poll_hears hpoll
    cases got with
    | none => cases (Prod.mk.inj h).1
    | some found =>
      obtain ⟨hfound, rfl⟩ := Prod.mk.inj h
      rw [filterMap_heard? hmade hears, hresponse, ← Except.ok.inj hfound]
      rfl
  · cases hcause

/-- The verdict on a register costs no call. -/
theorem probe_once (chip : UInt8) {judge : Register → Exchange τ α} (bus : Bus τ)
    (h : ∀ register bus, OnlyReads 0 (judge register) bus) :
    Once (readFrame chip) (pollBound bus.limits (2 + bus.generation.regLen))
      (fetchRegister chip >>= judge) bus :=
  (fetchRegister_once chip bus).bind fun register middle _ => h register middle

/-- Behind a reset of the queue that was acknowledged, the acknowledgement is what was heard. -/
theorem queueReset_echo {address : UInt8} {u : PUnit} {calls : List Call}
    (h : (send (queueResetFrame address) >>= fun _ =>
      discard (expect .reset acknowledgementLength)).runOn bus = (.ok u, after))
    (hmade : Made calls bus after) : EchoHeard bus.generation (some .reset) calls := by
  rintro opcode ⟨⟩
  rcases bind_cases h with ⟨v, sent, hsend, hecho⟩ | ⟨cause, hsend, hcause⟩
  · have hwrote := (send_performed (queueResetFrame address) bus).made
    obtain ⟨reads, hreads, _⟩ := expect_onlyReads .reset acknowledgementLength sent
    rw [runOn_discard] at hecho
    cases hrun : (expect .reset acknowledgementLength).runOn sent with
    | mk answer ended =>
      rw [hrun] at hecho
      cases answer with
      | error cause => cases (Prod.mk.inj hecho).1
      | ok response =>
        obtain rfl : ended = after := (Prod.mk.inj hecho).2
        have hmore := hreads.made
        rw [hrun] at hmore
        rw [hsend] at hwrote
        rw [hmade.unique (hwrote.append hmore), ← (send_ok_exchanged hsend).generation]
        have hheard := expect_echo hrun hmore
        exact ⟨response, hheard⟩
  · cases hcause

theorem emptyJobQueue_attempted (address : UInt8) (bus : Bus τ) :
    Attempted (.emptyJobQueue address) (emptyJobQueue address) bus := by
  -- the reset and its echo are one exchange, the register read is the other
  rw [emptyJobQueue, ← bind_assoc]
  refine Once.attempted_with_probe (.emptyJobQueue address) ?_ rfl ?_ ?_
  · refine send_bind_once fun middle _ hlimits => ?_
    rw [← hlimits]
    exact (expect_onlyReads .reset acknowledgementLength middle).discard
  · intro u middle calls hrun hmade
    exact queueReset_echo hrun hmade
  · intro _ middle hgeneration hlimits
    rw [← hgeneration, ← hlimits]
    refine probe_once _ middle fun register bus => .get_bind ?_
    split
    · exact .throw rfl bus
    · exact .pure () bus

theorem sendJob_attempted (frame : Bytes) (bus : Bus τ) :
    Attempted (.sendJob frame) (sendJob frame) bus := by
  rw [Attempted, Performs, sendJob, runOn_get_bind]
  have hsend := send_once (jobBytes bus.generation frame) bus
  cases hreceipt : bus.generation.jobReceipt with
  | none =>
    refine Once.attempted (.sendJob frame) (send_bind_once fun middle _ _ => ?_)
    exact .pure () middle
  | waitBusy =>
    refine Once.attempted_with_probe (.sendJob frame) hsend (if_pos hreceipt) (by nofun) ?_
    intro _ middle hgeneration hlimits
    rw [← hgeneration, ← hlimits]
    refine probe_once (Job.chipOf frame) middle fun register bus => ?_
    split
    · exact .pure () bus
    · exact .throw rfl bus

/-- Whatever the channel answers, a command writes its own frame once and reads no more than a poll
and one response; a second frame reads a register, after an exchange that succeeded; and the first
call that fails is the last one made, and the error of the command. -/
theorem command_attempted_once {α : Type} (c : Command α) (bus : Bus τ) :
    Attempted c c.exchange bus := by
  cases c with
  | reset address => exact (acknowledged_once .reset address bus).attempted (.reset address)
  | emptyJobQueue address => exact emptyJobQueue_attempted address bus
  | startSelfTest address =>
    exact (startSelfTest_once address bus).attempted (.startSelfTest address)
  | collectSelfTest address =>
    exact (acknowledged_once .collectSelfTest address bus).attempted (.collectSelfTest address)
  | fixSelfTest address =>
    exact (acknowledged_once .fixSelfTest address bus).attempted (.fixSelfTest address)
  | storeRegister address register =>
    exact (stored_once .writeReg 0 address register bus).attempted
      (.storeRegister address register)
  | storeSecondary address register =>
    exact (stored_once .writeSecReg secondaryExtra address register bus).attempted
      (.storeSecondary address register)
  | fetchRegister chip => exact (fetchRegister_once chip bus).attempted (.fetchRegister chip)
  | sendJob frame => exact sendJob_attempted frame bus
  | fetchResult => exact (fetchResult_once bus).attempted .fetchResult

end HashBoard.Bus
