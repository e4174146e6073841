import HashBoard.Proofs.Sim.Exchanges
import HashBoard.Proofs.Wire.ChecksumErrors

/-!
# The result queue

The results that wait in a simulated chain are read in the order in which they were queued. A frame
that is intact gives the slot, the chip and the nonce that went into it; one whose last byte is
inverted gives both checksums and leaves the frames behind it alone; and an empty queue answers that
there is nothing, however often it is asked.
-/

namespace HashBoard

open Bus Wire

namespace Wire.FoundNonce

/-! ### Result frames -/

/-- A result that a frame can carry: a chip that is not the broadcast address, a slot of four
bits. -/
structure Reportable (r : FoundNonce) : Prop where
  chip : r.chip ≠ 0
  slot : r.slot < 16

def firstByte (r : FoundNonce) : UInt8 := (r.slot <<< 4) ||| Opcode.fetchResult.code

/-- A result frame ahead of its checksum. -/
def body (r : FoundNonce) : Bytes := r.firstByte :: r.chip :: (Bytes.ofBE32 r.nonce ++ [0, 0])

theorem slot_facts : ∀ k : Fin 16,
    ((UInt8.ofNat k <<< 4) ||| Opcode.fetchResult.code) >>> 4 = UInt8.ofNat k ∧
      ((UInt8.ofNat k <<< 4) ||| Opcode.fetchResult.code) &&& 0x0f = Opcode.fetchResult.code := by
  decide

theorem firstByte_facts {r : FoundNonce} (h : r.slot < 16) :
    r.firstByte >>> 4 = r.slot ∧ r.firstByte &&& 0x0f = Opcode.fetchResult.code := by
  have hslot := slot_facts ⟨r.slot.toNat, h⟩
  simp only [UInt8.ofNat_toNat] at hslot
  exact hslot

theorem Reportable.startsResult {r : FoundNonce} (h : r.Reportable) :
    startsResult r.firstByte r.chip = true := by
  rw [FoundNonce.startsResult, (firstByte_facts h.slot).2, beq_self_eq_true, Bool.true_and]
  exact bne_iff_ne.2 h.chip

/-- Behind the body of a result, its own checksum decodes to it, and any other is an error that
names both. -/
theorem decode_body {r : FoundNonce} (h : r.slot < 16) (crc : UInt16) :
    FoundNonce.decode (Bytes.toVector 10 (r.body ++ Bytes.ofBE16 crc)) =
      if frameChecksum r.body = crc then .ok r else .error (.crc (frameChecksum r.body) crc) := by
  have hbytes : (Bytes.toVector 10 (r.body ++ Bytes.ofBE16 crc)).toList =
      r.body ++ [(crc >>> 8).toUInt8, crc.toUInt8] := rfl
  have hcrc := Bytes.be16_ofBE16 crc
  rw [FoundNonce.decode, hbytes, isSealed_append_pair, hcrc]
  by_cases hsum : frameChecksum r.body = crc
  · rw [if_pos hsum, if_pos (beq_iff_eq.2 hsum)]
    have hfields : (⟨r.firstByte >>> 4, r.chip, Bytes.be32 (r.nonce >>> 24).toUInt8
        (r.nonce >>> 16).toUInt8 (r.nonce >>> 8).toUInt8 r.nonce.toUInt8⟩ : FoundNonce) = r := by
      rw [Bytes.be32_ofBE32, (firstByte_facts h).1]
    exact congrArg Except.ok hfields
  · rw [if_neg hsum, if_neg (mt beq_iff_eq.1 hsum)]
    exact congrArg (Except.error ∘ ExchangeError.crc (frameChecksum r.body)) hcrc

end Wire.FoundNonce

/-! ### Queued results -/

/-- A result that waits to be read, in a frame that is intact or whose last byte is inverted. -/
inductive QueuedResult where
  | intact (result : FoundNonce)
  | inverted (result : FoundNonce)

namespace QueuedResult

def result : QueuedResult → FoundNonce
  | intact result | inverted result => result

/-- The checksum that is sent. -/
def crc : QueuedResult → UInt16
  | intact result => frameChecksum result.body
  | inverted result => frameChecksum result.body ^^^ 0x00ff

def frame (q : QueuedResult) : Bytes := q.result.body ++ Bytes.ofBE16 q.crc

/-- What the read that gets it answers. -/
def answer : QueuedResult → Except ExchangeError (Option FoundNonce)
  | intact result => .ok (some result)
  | inverted result =>
    .error (.crc (frameChecksum result.body) (frameChecksum result.body ^^^ 0x00ff))

theorem decode_frame {q : QueuedResult} (h : q.result.slot < 16) :
    (FoundNonce.decode (Bytes.toVector 10 q.frame)).map some = q.answer := by
  rw [frame, FoundNonce.decode_body h]
  cases q with
  | intact r => exact congrArg (Except.map some) (if_pos rfl)
  | inverted r =>
    refine congrArg (Except.map some) (if_neg fun hsame => ?_)
    have hzero : frameChecksum r.body ^^^ 0 = frameChecksum r.body ^^^ 0x00ff :=
      UInt16.xor_zero.trans hsame
    cases (UInt16.xor_right_inj _).1 hzero

end QueuedResult

theorem ofBE16_xor_low (w : UInt16) :
    Bytes.ofBE16 (w ^^^ 0x00ff) = [(w >>> 8).toUInt8, w.toUInt8 ^^^ 0xff] := by
  have hhigh : ((0x00ff : UInt16) >>> 8).toUInt8 = 0 := rfl
  have hlow : (0x00ff : UInt16).toUInt8 = 0xff := rfl
  rw [Bytes.ofBE16, UInt16.shiftRight_xor, UInt16.toUInt8_xor, UInt16.toUInt8_xor, hhigh, hlow,
    UInt8.xor_zero]

namespace SimulatedChain

def enqueue (s : SimulatedChain) : QueuedResult → SimulatedChain
  | .intact result => s.queueResult result
  | .inverted result => s.queueCorruptResult result

theorem enqueue_eq (s : SimulatedChain) (q : QueuedResult) :
    s.enqueue q = { s with results := s.results ++ [q.frame] } := by
  cases q with
  | intact result => rfl
  | inverted result =>
    have hframe : (QueuedResult.inverted result).frame =
        result.encode.modify (resultFrameLength - 1) (· ^^^ 0xff) :=
      congrArg (result.body ++ ·) (ofBE16_xor_low (frameChecksum result.body))
    rw [hframe]
    rfl

theorem foldl_enqueue (s : SimulatedChain) (queue : List QueuedResult) :
    queue.foldl enqueue s = { s with results := s.results ++ queue.map QueuedResult.frame } := by
  induction queue generalizing s with
  | nil => rw [List.foldl_nil, List.map_nil, List.append_nil]
  | cons q queue ih =>
    rw [List.foldl_cons, ih, enqueue_eq, List.map_cons]
    simp only [List.append_assoc, List.singleton_append]

end SimulatedChain

/-! ### Reads -/

open SimulatedChain Serving

/-- A bus that takes every frame and whose polls get as far as a reply. -/
structure Responsive (bus : Bus SimulatedChain) : Prop where
  failingWrites : bus.channel.failingWrites = 0
  patient : 0 < bus.limits.timeout
  room : 6 ≤ bus.limits.maxBytes

variable {bus : Bus SimulatedChain}

theorem Undisturbed.responsive {after : Bus SimulatedChain} (h : Undisturbed bus after)
    (hbus : Responsive bus) : Responsive after where
  failingWrites := h.channel.failingWrites.trans hbus.failingWrites
  patient := by rw [h.limits]; exact hbus.patient
  room := by rw [h.limits]; exact hbus.room

theorem obeyed_resultRequest {q : QueuedResult} {rest : List Bytes}
    (hresults : bus.channel.results = q.frame :: rest) :
    (obeyed bus resultRequest).channel =
      { noting bus.channel resultRequest with results := rest }.replyWith q.frame := by
  have hanswer : (obeyed bus resultRequest).channel =
      (noting bus.channel resultRequest).answerResultRead := rfl
  have hwaiting : (noting bus.channel resultRequest).results = q.frame :: rest := hresults
  rw [hanswer, answerResultRead, hwaiting]

/-- A read takes one frame from the queue, whatever the frame is like. -/
theorem fetchResult_of_queued (h : Responsive bus) {q : QueuedResult} {rest : List Bytes}
    (hq : q.result.Reportable) (hresults : bus.channel.results = q.frame :: rest) : ∃ after,
    fetchResult.runOn bus = (q.answer, after) ∧ Responsive after ∧
      after.channel.results = rest := by
  have hsend : (command .fetchResult broadcast []).runOn bus =
      (.ok (), obeyed bus resultRequest) := runOn_send h.failingWrites resultRequest
  have hobey := obeyed_resultRequest hresults
  have hframe : q.frame = q.result.firstByte :: q.result.chip ::
      (Bytes.ofBE32 q.result.nonce ++ [0, 0] ++ Bytes.ofBE16 q.crc) := rfl
  have hreply : (obeyed bus resultRequest).channel.reply =
      List.replicate filler 0 ++ q.frame := by
    rw [hobey]
    rfl
  obtain ⟨after, hlistened, hpoll⟩ := poll_of_reply Opcode.fetchResult.code
    FoundNonce.startsResult resultFrameLength (obeyed bus resultRequest) h.patient h.room
    (hframe ▸ hreply) rfl hq.startsResult rfl
  have hresponsive : Responsive (obeyed bus resultRequest) := by
    refine ⟨?_, h.patient, h.room⟩
    rw [hobey]
    exact h.failingWrites
  refine ⟨after, ?_, hlistened.undisturbed.responsive hresponsive, ?_⟩
  · rw [← hframe] at hpoll
    rw [fetchResult, runOn_bind_of_ok hsend, runOn_bind_of_ok hpoll,
      ← QueuedResult.decode_frame hq.slot]
    simp only
    cases FoundNonce.decode (Bytes.toVector 10 q.frame) with
    | ok result => rfl
    | error cause => rfl
  · rw [hlistened.undisturbed.channel.results, hobey]
    rfl

/-- The answers of so many reads of the result queue, one after the other. -/
def resultsRead {τ : Type} [Channel τ] :
    Nat → Bus τ → List (Except ExchangeError (Option FoundNonce))
  | 0, _ => []
  | reads + 1, bus => (fetchResult.runOn bus).1 :: resultsRead reads (fetchResult.runOn bus).2

theorem resultsRead_of_empty (h : Responsive bus) (hresults : bus.channel.results = [])
    (reads : Nat) : resultsRead reads bus = List.replicate reads (.ok none) := by
  induction reads generalizing bus with
  | zero => rfl
  | succ reads ih =>
    obtain ⟨after, hnone, hundisturbed⟩ := fetchResult_of_empty h.failingWrites h.patient hresults
    rw [resultsRead, hnone, List.replicate_succ,
      ih (hundisturbed.responsive h) (hundisturbed.channel.results.trans hresults)]

theorem resultsRead_of_queued (h : Responsive bus) {queue : List QueuedResult}
    (hqueue : ∀ q ∈ queue, q.result.Reportable)
    (hresults : bus.channel.results = queue.map QueuedResult.frame) (idle : Nat) :
    resultsRead (queue.length + idle) bus =
      queue.map QueuedResult.answer ++ List.replicate idle (.ok none) := by
  induction queue generalizing bus with
  | nil =>
    rw [List.length_nil, Nat.zero_add]
    exact resultsRead_of_empty h hresults idle
  | cons q queue ih =>
    obtain ⟨hq, hrest⟩ := List.forall_mem_cons.1 hqueue
    obtain ⟨after, hanswer, hresponsive, hleft⟩ := fetchResult_of_queued h hq hresults
    rw [List.length_cons, Nat.succ_add, resultsRead, hanswer, ih hresponsive hrest hleft]
    rfl

/-- Whatever results wait in a chain, they are read in their order, each as its slot, chip and
nonce or, from an inverted frame, as a wrong checksum; and every read after the last one answers
that there is none. -/
theorem results_read_in_order (bus : Bus SimulatedChain) (h : Responsive bus)
    (hempty : bus.channel.results = []) (queue : List QueuedResult)
    (hqueue : ∀ q ∈ queue, q.result.Reportable) (idle : Nat) :
    resultsRead (queue.length + idle)
        { bus with channel := queue.foldl SimulatedChain.enqueue bus.channel } =
      queue.map QueuedResult.answer ++ List.replicate idle (.ok none) := by
  refine resultsRead_of_queued ?_ hqueue ?_ idle
  · rw [foldl_enqueue]
    exact ⟨h.failingWrites, h.patient, h.room⟩
  · rw [foldl_enqueue, hempty]
    rfl

/-- A bus of one simulated chip whose polls end at the first pair behind the filler. -/
def oneChipBus : Bus SimulatedChain := Bus.start (.ofCores .a6 [55]) .a6 ⟨6, 1⟩

/-- Three results of which the one in the middle is inverted, and two reads more. -/
theorem results_read_in_order_around_inverted :
    resultsRead 5 { oneChipBus with
        channel := ((oneChipBus.channel.queueResult ⟨1, 1, 0x1234⟩).queueCorruptResult
          ⟨2, 255, 0x01986d55⟩).queueResult ⟨15, 2, 0xdeadbeef⟩ } =
      [.ok (some ⟨1, 1, 0x1234⟩), .error (.crc 0xc406 0xc4f9), .ok (some ⟨15, 2, 0xdeadbeef⟩),
        .ok none, .ok none] := by
  have hqueue : ∀ q ∈ [QueuedResult.intact ⟨1, 1, 0x1234⟩, .inverted ⟨2, 255, 0x01986d55⟩,
      .intact ⟨15, 2, 0xdeadbeef⟩], q.result.Reportable := by
    rintro _ (_ | ⟨_, _ | ⟨_, _ | ⟨_, ⟨⟩⟩⟩⟩)
    · exact ⟨by decide, by decide⟩
    · exact ⟨by decide, by decide⟩
    · exact ⟨by decide, by decide⟩
  have hsum : (QueuedResult.inverted ⟨2, 255, 0x01986d55⟩).answer =
      .error (.crc 0xc406 0xc4f9) := by
    have hcrc : frameChecksum (FoundNonce.body ⟨2, 255, 0x01986d55⟩) = 0xc406 := by
      decide +kernel
    rw [QueuedResult.answer, hcrc]
    rfl
  refine (results_read_in_order oneChipBus ⟨rfl, by decide, by decide⟩ rfl _ hqueue 2).trans ?_
  simp only [List.map_cons, List.map_nil, hsum]
  rfl

end HashBoard
