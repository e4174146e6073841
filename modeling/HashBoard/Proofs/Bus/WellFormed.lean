import HashBoard.Proofs.Bus.Addresses
import HashBoard.Proofs.Bus.Calls

/-!
# Well-formed frames

What the chips of a generation can take: frames of an even length that name a command and either
all chips or one of those driven, with a checksum where chips expect one. Each frame that a command
builds is of this kind.
-/

namespace HashBoard.Bus

open Wire

/-- A frame for the chips of a generation, of which those at the given addresses are driven. The
numbers are bytes on the wire: 314 for the longest frame, 16 for a register write, 90 for a job and
92 for a job with its checksum. -/
structure WellFormed (g : Generation) (driven : List UInt8) (frame : Bytes) : Prop where
  even : frame.length % 2 = 0
  bounded : frame.length ≤ 314
  heading : ∃ first address rest, frame = first :: address :: rest ∧
    (∃ opcode : Opcode, first &&& 0x0f = opcode.code) ∧ (address = broadcast ∨ address ∈ driven)
  registerWrite : frame.headD 0 &&& 0x0f = Opcode.writeReg.code ∨
      frame.headD 0 &&& 0x0f = Opcode.writeSecReg.code →
    frame.length = 16 ∧ isSealed (frame.take 14) = true
  job : frame.headD 0 &&& 0x0f = Opcode.sendJob.code →
    (1 ≤ (frame.headD 0 >>> 4).toNat ∧ (frame.headD 0 >>> 4).toNat ≤ 4) ∧
      if g.jobCrc then
        frame.length = 102 ∧ isSealed (frame.take 92) = true ∧ frame.drop 92 = List.replicate 10 0
      else frame.length = 90

namespace WellFormed

variable {g : Generation} {driven : List UInt8} {address : UInt8}

/-- A frame that neither writes a register nor sends a job needs no checksum. -/
theorem of_plain {opcode : Opcode} {rest : Bytes}
    (hplain : opcode ∈ [.startSelfTest, .fixSelfTest, .reset, .fetchResult, .readReg,
      .collectSelfTest])
    (heven : rest.length % 2 = 0) (hbounded : rest.length ≤ 312)
    (haddress : address = broadcast ∨ address ∈ driven) :
    WellFormed g driven (opcode.code :: address :: rest) := by
  have hnibble : opcode.code &&& 0x0f = opcode.code ∧ opcode.code ≠ Opcode.writeReg.code ∧
      opcode.code ≠ Opcode.writeSecReg.code ∧ opcode.code ≠ Opcode.sendJob.code := by
    revert hplain
    cases opcode <;> decide
  obtain ⟨hcode, hwrite, hsecondary, hjob⟩ := hnibble
  refine ⟨?_, ?_, ⟨_, _, rest, rfl, ⟨opcode, hcode⟩, haddress⟩, ?_, ?_⟩
  · simp only [List.length_cons]
    omega
  · simp only [List.length_cons]
    omega
  · rw [List.headD_cons, hcode]
    rintro (h | h)
    · exact absurd h hwrite
    · exact absurd h hsecondary
  · rw [List.headD_cons, hcode]
    intro h
    exact absurd h hjob

theorem readFrame (haddress : address = broadcast ∨ address ∈ driven) :
    WellFormed g driven (readFrame address) :=
  of_plain (by decide) rfl (Nat.zero_le _) haddress

theorem resultRequest : WellFormed g driven resultRequest :=
  of_plain (by decide) rfl (Nat.zero_le _) (.inl rfl)

theorem queueResetFrame (haddress : address = broadcast ∨ address ∈ driven) :
    WellFormed g driven (queueResetFrame address) :=
  of_plain (by decide) rfl (by decide) haddress

/-- A register write carries its checksum ahead of two zero bytes. -/
theorem storeFrame {opcode : Opcode} (hwrite : opcode = .writeReg ∨ opcode = .writeSecReg)
    (register : Register) (haddress : address = broadcast ∨ address ∈ driven) :
    WellFormed g driven (register.storeFrame opcode address) := by
  have hlength : (register.storeFrame opcode address).length = 16 :=
    register.length_storeFrame opcode address
  have hhead : (register.storeFrame opcode address).headD 0 = opcode.code := rfl
  have hcode : opcode.code &&& 0x0f = opcode.code ∧ opcode.code ≠ Opcode.sendJob.code := by
    rcases hwrite with rfl | rfl
    · decide
    · decide
  refine ⟨?_, ?_, ⟨_, _, _, rfl, ⟨opcode, hcode.1⟩, haddress⟩, fun _ => ⟨hlength, ?_⟩, ?_⟩
  · rw [hlength]
  · rw [hlength]
    decide
  · exact register.isSealed_storeFrame opcode address
  · rw [hhead, hcode.1]
    intro h
    exact absurd h hcode.2

/-- A job is sealed where its generation wants that, and followed by ten zero bytes there. -/
theorem jobBytes (hg : g ∈ Generation.all) {j : Job}
    (hcode : Job.firstByte j.slot &&& 0x0f = Opcode.sendJob.code)
    (hslot : 1 ≤ (Job.firstByte j.slot >>> 4).toNat ∧ (Job.firstByte j.slot >>> 4).toNat ≤ 4)
    (hchip : j.chip ∈ driven) : WellFormed g driven (jobBytes g (j.frame g.jobCrc)) := by
  obtain ⟨rest, hframe⟩ := frame_eq_cons j g
  have hbody := j.length_frame g.jobCrc
  have hform : if g.jobCrc then
      (Bus.jobBytes g (j.frame g.jobCrc)).length = 102 ∧
        isSealed ((Bus.jobBytes g (j.frame g.jobCrc)).take 92) = true ∧
        (Bus.jobBytes g (j.frame g.jobCrc)).drop 92 = List.replicate 10 0
      else (Bus.jobBytes g (j.frame g.jobCrc)).length = 90 := by
    rcases List.mem_cons.1 hg with rfl | hg
    · have hlength : (j.frame true).length = 92 := hbody
      refine ⟨?_, ?_, List.drop_left' hlength⟩
      · exact List.length_append.trans (congrArg (· + 10) hlength)
      · have htake : (Bus.jobBytes .a6 (j.frame true)).take 92 = sealed j.body :=
          List.take_left' hlength
        exact (congrArg isSealed htake).trans (isSealed_sealed _)
    · obtain rfl := List.mem_singleton.1 hg
      exact List.length_append.trans hbody
  have hlength : (Bus.jobBytes g (j.frame g.jobCrc)).length = 102 ∨
      (Bus.jobBytes g (j.frame g.jobCrc)).length = 90 := by
    split at hform
    · exact .inl hform.1
    · exact .inr hform
  rw [hframe] at hlength hform ⊢
  refine ⟨?_, ?_, ⟨_, _, rest, rfl, ⟨.sendJob, hcode⟩, .inr hchip⟩, ?_, fun _ => ⟨hslot, hform⟩⟩
  · rcases hlength with h | h
    · rw [h]
    · rw [h]
  · rcases hlength with h | h
    · rw [h]
      decide
    · rw [h]
      decide
  · rw [List.headD_cons, hcode]
    rintro (h | h)
    · cases h
    · cases h

end WellFormed

/-! ### All frames -/

/-- All frames written to a bus, latest first. -/
def frames {τ : Type} (bus : Bus τ) : List Bytes := bus.calls.filterMap Call.frame?

theorem Calls.frames {τ : Type} [Channel τ] {P : Bytes → Prop} {bus after : Bus τ}
    (h : Calls P bus after) (hbus : ∀ frame ∈ bus.frames, P frame) :
    ∀ frame ∈ after.frames, P frame := by
  induction h with
  | refl => exact hbus
  | tail _ hlast ih =>
    cases hlast with
    | wrote hframe =>
      intro frame hmem
      rcases List.mem_cons.1 hmem with rfl | hmem
      · exact hframe
      · exact ih frame hmem
    | read _ => exact ih
    | ticked => exact ih

end HashBoard.Bus
