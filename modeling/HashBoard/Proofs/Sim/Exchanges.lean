import HashBoard.Proofs.Bus.SentJobs
import HashBoard.Proofs.Sim.Replies

/-!
# Exchanges with simulated chips

A simulated chip that ignores no reads answers every exchange; one that does lets a poll come back
empty, and has one read less to ignore after it. No exchange changes the cores of a chip, and none
but a register read changes how many reads it still ignores.
-/

namespace HashBoard

open Bus Wire

/-- Its cores and the reads that it still ignores. -/
def SimulatedChip.profile (chip : SimulatedChip) : UInt8 × Nat := (chip.cores, chip.failingReads)

/-! ### Registers -/

theorem Wire.Register.ofBytes?_fit {n : Nat} (h : 12 ≤ n) (register : Register) :
    Register.ofBytes? (Bytes.fit n register.toBytes) = some register := by
  have hlong : 12 ≤ (Bytes.fit n register.toBytes).length := by
    rw [Bytes.length_fit]
    exact h
  have hsame : Bytes.fit n register.toBytes = register.toBytes ++ List.replicate (n - 12) 0 := by
    unfold Bytes.fit
    rw [List.take_of_length_le (by rw [register.length_toBytes]; exact h), register.length_toBytes]
  have hbytes : Bytes.toVector 12 (Bytes.fit n register.toBytes) = register.bytes := by
    apply Vector.toList_inj.1
    rw [Bytes.toList_fitted, hsame, Bytes.fit, List.take_left' register.length_toBytes,
      ← hsame, Bytes.length_fit, Nat.sub_eq_zero_of_le h, List.replicate_zero, List.append_nil]
    rfl
  rw [Register.ofBytes?, if_pos hlong, hbytes]

theorem or_and_self (a b : UInt8) : (a ||| b) &&& b = b := by
  apply UInt8.toBitVec_inj.1
  ext i
  simp only [UInt8.toBitVec_and, UInt8.toBitVec_or, BitVec.getElem_and, BitVec.getElem_or]
  exact Bool.and_eq_right_iff_imp.2 fun hb => Bool.or_eq_true_iff.2 (.inr hb)

namespace SimulatedChain

theorem coreNumber_registerBlock (g : Generation) (chip : SimulatedChip) :
    (registerBlock g chip).coreNumber = chip.cores :=
  Vector.getElem_set_self Register.coresPlace.isLt

theorem isBusy_registerBlock {g : Generation} (hmask : g.busyMask ≠ 0) {chip : SimulatedChip}
    (h : chip.busy = true) : (registerBlock g chip).isBusy g.busyMask = true := by
  have hstatus (base : Vector UInt8 12) (status : UInt8) :
      ((base.set Register.statusPlace.val status Register.statusPlace.isLt).set
        Register.coresPlace.val chip.cores Register.coresPlace.isLt).get Register.statusPlace =
          status :=
    (Vector.getElem_set_ne _ _ (by decide)).trans (Vector.getElem_set_self _)
  unfold registerBlock Register.isBusy
  simp only [h, if_true, hstatus, or_and_self]
  exact bne_iff_ne.2 hmask

/-! ### What exchanges keep -/

def profiles (s : SimulatedChain) : List (UInt8 × Nat) := s.chips.map SimulatedChip.profile

/-- Nothing happened by which a later exchange would fail. -/
structure Alike (s s' : SimulatedChain) : Prop where
  generation : s'.generation = s.generation
  failingWrites : s'.failingWrites = s.failingWrites
  results : s'.results = s.results
  dropJobs : s'.dropJobs = s.dropJobs
  profiles : s'.profiles = s.profiles

variable {s s' s'' : SimulatedChain}

theorem Alike.refl (s : SimulatedChain) : Alike s s := ⟨rfl, rfl, rfl, rfl, rfl⟩

theorem Alike.trans (h1 : Alike s s') (h2 : Alike s' s'') : Alike s s'' where
  generation := h2.generation.trans h1.generation
  failingWrites := h2.failingWrites.trans h1.failingWrites
  results := h2.results.trans h1.results
  dropJobs := h2.dropJobs.trans h1.dropJobs
  profiles := h2.profiles.trans h1.profiles

/-! ### Chips -/

theorem chip?_of_place {address : UInt8} {place : Nat} (h : address.toNat = place + 1) :
    s.chip? address = s.chips[place]? := by
  have hne : address ≠ broadcast := by
    intro hzero
    rw [hzero] at h
    cases h
  rw [chip?, if_neg hne, h, Nat.add_sub_cancel]

theorem modifyAddressed_of_place {address : UInt8} {place : Nat} (h : address.toNat = place + 1)
    (f : SimulatedChip → SimulatedChip) :
    s.modifyAddressed address f = { s with chips := s.chips.modify place f } := by
  have hne : address ≠ broadcast := by
    intro hzero
    rw [hzero] at h
    cases h
  rw [modifyAddressed, if_neg hne, h, Nat.add_sub_cancel]

theorem modifyAddressed_alike (s : SimulatedChain) (address : UInt8)
    {f : SimulatedChip → SimulatedChip} (hf : ∀ chip, (f chip).profile = chip.profile) :
    Alike s (s.modifyAddressed address f) := by
  have hsame : SimulatedChip.profile ∘ f = SimulatedChip.profile := funext hf
  unfold modifyAddressed
  split
  · refine ⟨rfl, rfl, rfl, rfl, ?_⟩
    simp only [profiles, List.map_map, hsame]
  · refine ⟨rfl, rfl, rfl, rfl, List.ext_getElem? fun place => ?_⟩
    simp only [profiles, List.getElem?_map, List.getElem?_modify]
    cases s.chips[place]? with
    | none => rfl
    | some chip =>
      simp only [Option.map_some]
      split
      · exact congrArg some (hf chip)
      · rfl

/-! ### Frames -/

theorem replyWith_alike (bytes : Bytes) : Alike s (s.replyWith bytes) := ⟨rfl, rfl, rfl, rfl, rfl⟩

theorem takeReset_alike (first address : UInt8) (frame : Bytes) :
    Alike s (s.takeReset first address frame) := by
  have hidle (s : SimulatedChain) :
      Alike s (s.modifyAddressed address fun c => { c with busy := false }) :=
    modifyAddressed_alike s address fun _ => rfl
  have harmed : Alike s { s with armed := s.armed || address == broadcast } :=
    ⟨rfl, rfl, rfl, rfl, rfl⟩
  refine .trans ?_ (replyWith_alike _)
  split
  · split
    · exact .refl s
    · exact hidle s
  · exact harmed.trans (hidle _)

theorem takeRegisterWrite_alike (opcode : Opcode) (frame : Bytes) :
    Alike s (s.takeRegisterWrite opcode frame) := by
  unfold takeRegisterWrite
  split
  · exact ⟨rfl, rfl, rfl, rfl, rfl⟩
  · exact ⟨rfl, rfl, rfl, rfl, rfl⟩

/-- A sealed register write is taken, and its first twelve bytes come back. -/
theorem takeRegisterWrite_of_sealed (opcode : Opcode) {frame : Bytes}
    (hlength : 14 ≤ frame.length) (hsealed : isSealed (frame.take 14) = true) :
    s.takeRegisterWrite opcode frame =
      replyWith { s with registerWrites := (opcode.code, frame) :: s.registerWrites }
        (Bytes.fit (s.generation.regLen + if opcode = .writeReg then 0 else 4) (frame.take 12)) := by
  have hlong : decide (frame.length < 14) = false := decide_eq_false (Nat.not_lt.2 hlength)
  unfold takeRegisterWrite
  rw [hlong, hsealed]
  rfl

theorem takeJob_alike (first address : UInt8) (frame : Bytes) :
    Alike s (s.takeJob first address frame) := by
  have htaken : Alike s (s.modifyAddressed address fun c =>
      { c with busy := true, lastJobSlot := some (first >>> 4),
               jobsReceived := c.jobsReceived + 1 }) :=
    modifyAddressed_alike s address fun _ => rfl
  unfold takeJob
  simp only
  by_cases hbad : frame.length < bareJobLength + (if s.generation.jobCrc then jobChecksumLength else 0)
      || (s.generation.jobCrc && !isSealed (frame.take
        (bareJobLength + if s.generation.jobCrc then jobChecksumLength else 0)))
  · rw [if_pos hbad]
    exact ⟨rfl, rfl, rfl, rfl, rfl⟩
  · rw [if_neg hbad]
    by_cases hlost : s.dropJobs
    · rw [if_pos hlost]
      exact .refl s
    · rw [if_neg hlost]
      cases s.chip? address with
      | none => exact .refl s
      | some chip => exact htaken

/-- Without a checksum, any frame that is long enough is taken as a job. -/
theorem takeJob_of_bare {first address : UInt8} {frame : Bytes} {chip : SimulatedChip}
    (hcrc : s.generation.jobCrc = false) (hlength : bareJobLength ≤ frame.length)
    (hdrop : s.dropJobs = false) (hchip : s.chip? address = some chip) :
    s.takeJob first address frame = s.modifyAddressed address fun c =>
      { c with busy := true, lastJobSlot := some (first >>> 4),
               jobsReceived := c.jobsReceived + 1 } := by
  have hlong : decide (frame.length < bareJobLength + 0) = false :=
    decide_eq_false (Nat.not_lt.2 hlength)
  unfold takeJob
  simp only [hcrc, Bool.false_eq_true, if_false, hlong, Bool.false_and, Bool.or_self, hdrop, hchip]

theorem answerResultRead_of_none (h : s.results = []) : s.answerResultRead = s := by
  rw [answerResultRead, h]

theorem answerRegisterRead_of_answering {address : UInt8} {chip : SimulatedChip}
    (h : s.chip? address = some chip) (hreads : chip.failingReads = 0) :
    s.answerRegisterRead address =
      { s with registerReads := s.registerReads + 1 }.replyWith (Bytes.fit (2 + s.generation.regLen)
        (Opcode.readRegResp.code :: address :: (registerBlock s.generation chip).toBytes)) := by
  rw [answerRegisterRead, h]
  simp only [hreads, Nat.lt_irrefl, if_false]

theorem answerRegisterRead_of_ignoring {address : UInt8} {chip : SimulatedChip}
    (h : s.chip? address = some chip) (hreads : 0 < chip.failingReads) :
    s.answerRegisterRead address =
      s.modifyAddressed address fun c => { c with failingReads := c.failingReads - 1 } := by
  rw [answerRegisterRead, h]
  simp only [if_pos hreads]

theorem answerRegisterRead_alike (h : ∀ profile ∈ s.profiles, profile.2 = 0) (address : UInt8) :
    Alike s (s.answerRegisterRead address) := by
  cases hchip : s.chip? address with
  | none =>
    rw [answerRegisterRead, hchip]
    exact .refl s
  | some chip =>
    have hmem : chip ∈ s.chips := by
      unfold chip? at hchip
      split at hchip
      · cases hchip
      · exact List.mem_of_getElem? hchip
    rw [answerRegisterRead_of_answering hchip (h _ (List.mem_map_of_mem hmem))]
    exact ⟨rfl, rfl, rfl, rfl, rfl⟩

/-- While no chip ignores a read, no frame at all makes one fail. -/
theorem obey_alike (hresults : s.results = []) (hreads : ∀ profile ∈ s.profiles, profile.2 = 0)
    (frame : Bytes) : Alike s (s.obey frame) := by
  have hcleared : Alike s { s with reply := [] } := ⟨rfl, rfl, rfl, rfl, rfl⟩
  refine hcleared.trans ?_
  unfold obey
  match frame with
  | [] => exact .refl _
  | [_] => exact .refl _
  | first :: address :: rest =>
    simp only
    cases Opcode.ofFirstByte? first with
    | none => exact .refl _
    | some opcode =>
      cases opcode with
      | reset => exact takeReset_alike ..
      | startSelfTest => exact ⟨rfl, rfl, rfl, rfl, rfl⟩
      | collectSelfTest => exact replyWith_alike _
      | fixSelfTest => exact replyWith_alike _
      | writeReg => exact takeRegisterWrite_alike ..
      | writeSecReg => exact takeRegisterWrite_alike ..
      | readReg => exact answerRegisterRead_alike (s := { s with reply := [] }) hreads address
      | sendJob => exact takeJob_alike ..
      | fetchResult =>
        simp only [answerResultRead_of_none (s := { s with reply := [] }) hresults]
        exact .refl _
      | readRegResp => exact .refl _

end SimulatedChain

/-! ### Attentive buses -/

open SimulatedChain

variable {bus middle after : Bus SimulatedChain}

/-- The bus after a frame that the chips obey. -/
def Serving.obeyed (bus : Bus SimulatedChain) (frame : Bytes) : Bus SimulatedChain :=
  { bus with
    channel := { bus.channel with writes := frame :: bus.channel.writes }.obey frame
    calls := .wrote frame (.ok ()) :: bus.calls }

/-- What the chips see of a frame: the reply to the one before it is lost. -/
def Serving.noting (s : SimulatedChain) (frame : Bytes) : SimulatedChain :=
  { s with writes := frame :: s.writes, reply := [] }

theorem Serving.noting_alike (s : SimulatedChain) (frame : Bytes) : Alike s (noting s frame) :=
  ⟨rfl, rfl, rfl, rfl, rfl⟩

theorem Serving.runOn_send (h : bus.channel.failingWrites = 0) (frame : Bytes) :
    (send frame).runOn bus = (.ok (), obeyed bus frame) := by
  have hnone : ¬0 < bus.channel.failingWrites := by
    rw [h]
    exact Nat.lt_irrefl 0
  have hwrite : Channel.write frame bus.channel = (.ok (), (obeyed bus frame).channel) :=
    if_neg hnone
  rw [Bus.runOn_send, hwrite]
  rfl

theorem EchoRule.accepts_code (rule : EchoRule) {opcode : Opcode} (h : opcode ≠ .readRegResp) :
    rule.accepts opcode.code opcode.code = true ∧ rule.accepts 0 opcode.code = false := by
  revert h
  cases rule <;> cases opcode <;> decide

/-- A bus that takes every frame and on which a poll finds every reply. -/
structure Attentive (bus : Bus SimulatedChain) : Prop where
  generation : bus.channel.generation = bus.generation
  failingWrites : bus.channel.failingWrites = 0
  patient : 0 < bus.limits.timeout
  room : 6 ≤ bus.limits.maxBytes

namespace Attentive

open Serving

theorem runOn_send (h : Attentive bus) (frame : Bytes) :
    (send frame).runOn bus = (.ok (), obeyed bus frame) :=
  Serving.runOn_send h.failingWrites frame

theorem expect_of_reply (h : Attentive bus) {frame rest : Bytes} {opcode : Opcode}
    {address : UInt8} (length : Nat) (hopcode : opcode ≠ .readRegResp)
    (hreply : (obeyed bus frame).channel.reply =
      List.replicate filler 0 ++ opcode.code :: address :: rest)
    (hlength : rest.length = length - 2) : ∃ after,
    (expect opcode length).runOn (obeyed bus frame) =
        (.ok (opcode.code :: address :: rest), after) ∧ Listened (obeyed bus frame) after := by
  obtain ⟨hecho, hzero⟩ := bus.generation.echoRule.accepts_code hopcode
  obtain ⟨after, hlistened, hpoll⟩ := poll_of_reply opcode.code
    (fun first _ => bus.generation.echoRule.accepts first opcode.code) length (obeyed bus frame)
    h.patient h.room hreply hzero hecho hlength
  refine ⟨after, ?_, hlistened⟩
  rw [expect, runOn_get_bind]
  exact runOn_bind_of_ok hpoll _

theorem discard_expect_of_reply (h : Attentive bus) {frame rest : Bytes} {opcode : Opcode}
    {address : UInt8} (length : Nat) (hopcode : opcode ≠ .readRegResp)
    (hreply : (obeyed bus frame).channel.reply =
      List.replicate filler 0 ++ opcode.code :: address :: rest)
    (hlength : rest.length = length - 2) : ∃ after,
    (discard (expect opcode length)).runOn (obeyed bus frame) = (.ok ⟨⟩, after) ∧
      Listened (obeyed bus frame) after := by
  obtain ⟨after, hexpect, hlistened⟩ := h.expect_of_reply length hopcode hreply hlength
  refine ⟨after, ?_, hlistened⟩
  rw [runOn_discard, hexpect]
  rfl

/-- The self-test counts the chips when it is the first one after a reset of all. -/
theorem startSelfTest_answer (h : Attentive bus) : ∃ after,
    (startSelfTest broadcast).runOn bus =
        (.ok (if bus.channel.armed then UInt8.ofNat bus.channel.chips.length else 0), after) ∧
      Listened (obeyed bus [Opcode.startSelfTest.code, broadcast, 0, 0]) after := by
  have hreply : (obeyed bus [Opcode.startSelfTest.code, broadcast, 0, 0]).channel.reply =
      List.replicate filler 0 ++ Opcode.startSelfTest.code :: broadcast ::
        [0, if bus.channel.armed then UInt8.ofNat bus.channel.chips.length else 0] := rfl
  obtain ⟨after, hexpect, hlistened⟩ :=
    h.expect_of_reply acknowledgementLength (by decide) hreply rfl
  refine ⟨after, ?_, hlistened⟩
  exact (runOn_bind_of_ok (h.runOn_send _) _).trans (runOn_bind_of_ok hexpect _)

theorem obeyed_read (h : Attentive bus) {address : UInt8} {chip : SimulatedChip}
    (hchip : bus.channel.chip? address = some chip) (hreads : chip.failingReads = 0) :
    (obeyed bus (readFrame address)).channel =
      { noting bus.channel (readFrame address) with
          registerReads := bus.channel.registerReads + 1 }.replyWith
        (Opcode.readRegResp.code :: address ::
          Bytes.fit bus.generation.regLen (registerBlock bus.generation chip).toBytes) := by
  have hresponse : Bytes.fit (2 + bus.channel.generation.regLen) (Opcode.readRegResp.code ::
        address :: (registerBlock bus.channel.generation chip).toBytes) =
      Opcode.readRegResp.code :: address ::
        Bytes.fit bus.generation.regLen (registerBlock bus.generation chip).toBytes := by
    rw [h.generation, Nat.add_comm 2, Bytes.fit_succ_cons, Bytes.fit_succ_cons]
  rw [← hresponse]
  exact answerRegisterRead_of_answering (s := noting bus.channel (readFrame address)) hchip hreads

/-- A register read gives the register block, of which a longer response holds the first bytes. -/
theorem fetchRegister_of_reading (h : Attentive bus) (hwide : 12 ≤ bus.generation.regLen)
    {address : UInt8} {chip : SimulatedChip} (hchip : bus.channel.chip? address = some chip)
    (hreads : chip.failingReads = 0) : ∃ after,
    (fetchRegister address).runOn bus = (.ok (registerBlock bus.generation chip), after) ∧
      Listened (obeyed bus (readFrame address)) after := by
  have hsend : (command .readReg address []).runOn bus =
      (.ok (), obeyed bus (readFrame address)) := h.runOn_send (readFrame address)
  have hreply : (obeyed bus (readFrame address)).channel.reply = List.replicate filler 0 ++
      Opcode.readRegResp.code :: address ::
        Bytes.fit bus.generation.regLen (registerBlock bus.generation chip).toBytes := by
    rw [h.obeyed_read hchip hreads]
    rfl
  obtain ⟨after, hlistened, hpoll⟩ := poll_of_reply Opcode.readRegResp.code
    (fun first _ => first == Opcode.readRegResp.code) (2 + bus.generation.regLen)
    (obeyed bus (readFrame address)) h.patient h.room hreply rfl rfl
    (by rw [Bytes.length_fit, Nat.add_sub_cancel_left])
  refine ⟨after, ?_, hlistened⟩
  refine (runOn_bind_of_ok hsend _).trans ((runOn_bind_of_ok hpoll _).trans ?_)
  simp only [List.drop_succ_cons, List.drop_zero, Register.ofBytes?_fit hwide]
  rfl

end Attentive

/-! ### Buses in service -/

theorem Generation.regLen_of_mem {g : Generation} (h : g ∈ Generation.all) :
    g.regLen = registerLength := by
  rcases List.mem_cons.1 h with rfl | h
  · rfl
  · rw [List.mem_singleton.1 h]
    rfl

theorem Generation.brokenCores_pos {g : Generation} (h : g ∈ Generation.all) :
    0 < g.brokenCores.toNat := by
  rcases List.mem_cons.1 h with rfl | h
  · decide
  · rw [List.mem_singleton.1 h]
    decide

/-- A simulated chain that loses nothing, behind a bus on which a poll finds every reply. -/
structure Serving (bus : Bus SimulatedChain) : Prop where
  known : bus.generation ∈ Generation.all
  generation : bus.channel.generation = bus.generation
  failingWrites : bus.channel.failingWrites = 0
  results : bus.channel.results = []
  dropJobs : bus.channel.dropJobs = false
  patient : 0 < bus.limits.timeout
  room : 6 ≤ bus.limits.maxBytes

/-- From one bus to another the chips kept their cores and the reads that they ignore. -/
structure Undisturbed (bus after : Bus SimulatedChain) : Prop where
  generation : after.generation = bus.generation
  limits : after.limits = bus.limits
  channel : Alike bus.channel after.channel

theorem Undisturbed.trans (h1 : Undisturbed bus middle) (h2 : Undisturbed middle after) :
    Undisturbed bus after :=
  ⟨h2.generation.trans h1.generation, h2.limits.trans h1.limits, h1.channel.trans h2.channel⟩

theorem Listened.undisturbed (h : Listened bus after) : Undisturbed bus after := by
  obtain ⟨_, _, _, rfl⟩ := h
  exact ⟨rfl, rfl, rfl, rfl, rfl, rfl, rfl⟩

theorem Listened.chips_eq (h : Listened bus after) : after.channel.chips = bus.channel.chips := by
  obtain ⟨_, _, _, rfl⟩ := h
  rfl

theorem Undisturbed.serving (h : Undisturbed bus after) (hs : Serving bus) : Serving after where
  known := by rw [h.generation]; exact hs.known
  generation := (h.channel.generation.trans hs.generation).trans h.generation.symm
  failingWrites := h.channel.failingWrites.trans hs.failingWrites
  results := h.channel.results.trans hs.results
  dropJobs := h.channel.dropJobs.trans hs.dropJobs
  patient := by rw [h.limits]; exact hs.patient
  room := by rw [h.limits]; exact hs.room

theorem Serving.attentive (h : Serving bus) : Attentive bus :=
  ⟨h.generation, h.failingWrites, h.patient, h.room⟩

namespace Serving

/-! ### Results -/

theorem fetchResult_of_empty (hwrites : bus.channel.failingWrites = 0)
    (htime : 0 < bus.limits.timeout) (hresults : bus.channel.results = []) : ∃ after,
    fetchResult.runOn bus = (.ok none, after) ∧ Undisturbed bus after := by
  have hsend : (command .fetchResult broadcast []).runOn bus =
      (.ok (), obeyed bus resultRequest) := runOn_send hwrites resultRequest
  have hobey : (obeyed bus resultRequest).channel = noting bus.channel resultRequest :=
    answerResultRead_of_none (s := noting bus.channel resultRequest) hresults
  obtain ⟨after, hlistened, hpoll⟩ := poll_of_silence Opcode.fetchResult.code
    FoundNonce.startsResult resultFrameLength (obeyed bus resultRequest) htime
    (by rw [hobey]; rfl) rfl
  have hasked : Undisturbed bus (obeyed bus resultRequest) := by
    refine ⟨rfl, rfl, ?_⟩
    rw [hobey]
    exact noting_alike ..
  refine ⟨after, ?_, hasked.trans hlistened.undisturbed⟩
  rw [fetchResult, runOn_bind_of_ok hsend, runOn_bind_of_ok hpoll]
  rfl

theorem fetchResult_none (h : Serving bus) : ∃ after,
    fetchResult.runOn bus = (.ok none, after) ∧ Undisturbed bus after :=
  fetchResult_of_empty h.failingWrites h.patient h.results

/-! ### Registers -/

theorem fetchRegister_of_reading (h : Serving bus) {address : UInt8} {chip : SimulatedChip}
    (hchip : bus.channel.chip? address = some chip) (hreads : chip.failingReads = 0) : ∃ after,
    (fetchRegister address).runOn bus = (.ok (registerBlock bus.generation chip), after) ∧
      Undisturbed bus after ∧ after.channel.chips = bus.channel.chips := by
  have hwide : 12 ≤ bus.generation.regLen := Nat.le_of_eq (Generation.regLen_of_mem h.known).symm
  obtain ⟨after, hread, hlistened⟩ := h.attentive.fetchRegister_of_reading hwide hchip hreads
  have hobey := h.attentive.obeyed_read hchip hreads
  have hasked : Undisturbed bus (obeyed bus (readFrame address)) := by
    refine ⟨rfl, rfl, ?_⟩
    rw [hobey]
    exact ⟨rfl, rfl, rfl, rfl, rfl⟩
  refine ⟨after, hread, hasked.trans hlistened.undisturbed, ?_⟩
  rw [hlistened.chips_eq, hobey]
  rfl

theorem fetchRegister_of_ignoring (h : Serving bus) {address : UInt8} {place : Nat}
    {chip : SimulatedChip} (haddress : address.toNat = place + 1)
    (hchip : bus.channel.chips[place]? = some chip) (hreads : 0 < chip.failingReads) :
    ∃ cause after, (fetchRegister address).runOn bus = (.error cause, after) ∧ Serving after ∧
      after.channel.profiles =
        bus.channel.profiles.set place (chip.cores, chip.failingReads - 1) := by
  have hsend : (command .readReg address []).runOn bus =
      (.ok (), obeyed bus (readFrame address)) := h.attentive.runOn_send (readFrame address)
  have hfound : (noting bus.channel (readFrame address)).chip? address = some chip :=
    (chip?_of_place haddress).trans hchip
  have hobey : (obeyed bus (readFrame address)).channel =
      { noting bus.channel (readFrame address) with
        chips := bus.channel.chips.modify place
          fun c => { c with failingReads := c.failingReads - 1 } } :=
    (answerRegisterRead_of_ignoring hfound hreads).trans (modifyAddressed_of_place haddress _)
  have hserving : Serving (obeyed bus (readFrame address)) := by
    refine ⟨h.known, ?_, ?_, ?_, ?_, h.patient, h.room⟩
    · rw [hobey]
      exact h.generation
    · rw [hobey]
      exact h.failingWrites
    · rw [hobey]
      exact h.results
    · rw [hobey]
      exact h.dropJobs
  obtain ⟨after, hlistened, hpoll⟩ := poll_of_silence Opcode.readRegResp.code
    (fun first _ => first == Opcode.readRegResp.code) (2 + bus.generation.regLen)
    (obeyed bus (readFrame address)) h.patient (by rw [hobey]; rfl) rfl
  refine ⟨_, after, (runOn_bind_of_ok hsend _).trans (runOn_bind_of_ok hpoll _),
    hlistened.undisturbed.serving hserving, ?_⟩
  rw [hlistened.undisturbed.channel.profiles, hobey]
  refine List.ext_getElem? fun other => ?_
  simp only [profiles, List.getElem?_map, List.getElem?_modify, List.getElem?_set, List.length_map]
  by_cases hother : place = other
  · subst hother
    have hlt := (List.getElem?_eq_some_iff.1 hchip).1
    simp only [hchip, if_true, hlt]
    rfl
  · simp only [if_neg hother]
    cases bus.channel.chips[other]? with
    | none => rfl
    | some chip => rfl

/-! ### Jobs -/

theorem obey_job {s : SimulatedChain} {first address : UInt8} {rest : Bytes}
    (h : Opcode.ofFirstByte? first = some .sendJob) : s.obey (first :: address :: rest) =
      { s with reply := [] }.takeJob first address (first :: address :: rest) := by
  unfold obey
  simp only [h]

theorem obeyed_job (bus : Bus SimulatedChain) {j : Job}
    (hslot : Opcode.ofFirstByte? (Job.firstByte j.slot) = some .sendJob) :
    (obeyed bus (jobBytes bus.generation (j.frame bus.generation.jobCrc))).channel =
      (noting bus.channel (jobBytes bus.generation (j.frame bus.generation.jobCrc))).takeJob
        (Job.firstByte j.slot) j.chip
        (jobBytes bus.generation (j.frame bus.generation.jobCrc)) := by
  obtain ⟨rest, hframe⟩ := frame_eq_cons j bus.generation
  rw [hframe]
  exact obey_job hslot

theorem generation_of_waitBusy (h : Serving bus)
    (hreceipt : bus.generation.jobReceipt = .waitBusy) : bus.generation = .a4 := by
  rcases List.mem_cons.1 h.known with heq | hmem
  · rw [heq] at hreceipt
    cases hreceipt
  · exact List.mem_singleton.1 hmem

/-- A chip of the generation without job checksums is busy with the job that it was sent. -/
theorem busy_of_job (h : Serving bus) {j : Job} {place : Nat} {chip : SimulatedChip}
    (hgeneration : bus.generation = .a4)
    (hslot : Opcode.ofFirstByte? (Job.firstByte j.slot) = some .sendJob)
    (haddress : j.chip.toNat = place + 1) (hchip : bus.channel.chips[place]? = some chip) :
    (obeyed bus (jobBytes bus.generation (j.frame bus.generation.jobCrc))).channel.chips[place]? =
      some { chip with
        busy := true
        lastJobSlot := some (Job.firstByte j.slot >>> 4)
        jobsReceived := chip.jobsReceived + 1 } := by
  have hobey := obeyed_job bus hslot
  generalize hbytes : jobBytes bus.generation (j.frame bus.generation.jobCrc) = frame at hobey
  have hlong : bareJobLength ≤ frame.length := by
    rw [← hbytes, jobBytes, List.length_append, Job.length_frame, hgeneration]
    exact Nat.le_refl _
  have hcrc : (noting bus.channel frame).generation.jobCrc = false := by
    show bus.channel.generation.jobCrc = false
    rw [h.generation, hgeneration]
    rfl
  have hfound : (noting bus.channel frame).chip? j.chip = some chip :=
    (chip?_of_place haddress).trans hchip
  rw [takeJob_of_bare hcrc hlong h.dropJobs hfound, modifyAddressed_of_place haddress] at hobey
  rw [hobey]
  simp only [noting, List.getElem?_modify, hchip, if_true]
  rfl

/-- A job is taken, and acknowledged where that is wanted, unless the chip ignores the read. -/
theorem sendJob_cases (h : Serving bus) {j : Job} {place : Nat} {chip : SimulatedChip}
    (hslot : Opcode.ofFirstByte? (Job.firstByte j.slot) = some .sendJob)
    (haddress : j.chip.toNat = place + 1) (hchip : bus.channel.chips[place]? = some chip) :
    (∃ after, (sendJob (j.frame bus.generation.jobCrc)).runOn bus = (.ok (), after) ∧
        Undisturbed bus after) ∨
      0 < chip.failingReads ∧ ∃ cause after,
        (sendJob (j.frame bus.generation.jobCrc)).runOn bus = (.error cause, after) ∧
          Serving after ∧ after.channel.profiles =
            bus.channel.profiles.set place (chip.cores, chip.failingReads - 1) := by
  have hsent : Undisturbed bus
      (obeyed bus (jobBytes bus.generation (j.frame bus.generation.jobCrc))) := by
    refine ⟨rfl, rfl, ?_⟩
    rw [obeyed_job bus hslot]
    exact (noting_alike ..).trans (takeJob_alike ..)
  rw [sendJob, runOn_get_bind, runOn_bind_of_ok (h.attentive.runOn_send _)]
  cases hreceipt : bus.generation.jobReceipt with
  | none => exact .inl ⟨_, rfl, hsent⟩
  | waitBusy =>
    have hgeneration := h.generation_of_waitBusy hreceipt
    have hbusy := h.busy_of_job hgeneration hslot haddress hchip
    have hserving := hsent.serving h
    simp only [chipOf_frame]
    rcases Nat.eq_zero_or_pos chip.failingReads with hreads | hreads
    · obtain ⟨after, hread, hundisturbed, _⟩ := hserving.fetchRegister_of_reading
        ((chip?_of_place haddress).trans hbusy) hreads
      have hmask : bus.generation.busyMask ≠ 0 := by
        rw [hgeneration]
        decide
      refine .inl ⟨after, ?_, hsent.trans hundisturbed⟩
      rw [runOn_bind_of_ok hread]
      exact (congrArg (Exchange.runOn · after) (if_pos (isBusy_registerBlock hmask rfl))).trans rfl
    · obtain ⟨cause, after, hread, hafter, hprofiles⟩ :=
        hserving.fetchRegister_of_ignoring haddress hbusy hreads
      refine .inr ⟨hreads, cause, after, runOn_bind_of_error hread _, hafter, ?_⟩
      rw [hprofiles, hsent.channel.profiles]

/-! ### The self-test -/

/-- The self-test counts no more chips than there are. -/
theorem startSelfTest_count (h : Serving bus) {count : UInt8}
    (hcount : (startSelfTest broadcast).runOn bus = (.ok count, after)) :
    count.toNat ≤ bus.channel.chips.length := by
  obtain ⟨last, hanswer, _⟩ := h.attentive.startSelfTest_answer
  rw [hanswer] at hcount
  obtain rfl := Except.ok.inj (Prod.mk.inj hcount).1
  split
  · rw [UInt8.toNat_ofNat']
    exact Nat.mod_le ..
  · exact Nat.zero_le _

end Serving

end HashBoard
