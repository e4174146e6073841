import HashBoard.Capture.Label
import HashBoard.Proofs.Bus.ByteStreams
import HashBoard.Proofs.Bus.ResultFrames
import HashBoard.Sim.Script

/-!
# Labels of results

The dissector passes over filler up to the first pair of bytes that is not zero; the driver polls up
to the first pair that starts a result. When the first pair that is not zero starts a result that is
complete, both have found the same frame, and what the dissector says of it is what the driver gets
to hear when the bytes of the transfer are played to it.
-/

namespace HashBoard.Capture

open Wire Bus

/-! ### The two scanners -/

theorem seek_thenSilence_pair (accepts : UInt8 → UInt8 → Bool) (rounds : Nat) (a b : UInt8)
    (rest : Bytes) : seek accepts (rounds + 1) (thenSilence (a :: b :: rest)) =
      if accepts a b then some (thenSilence (a :: b :: rest))
      else seek accepts rounds (thenSilence rest) := rfl

theorem seek_afterFiller {bytes rest : Bytes} {first second : UInt8} {rounds : Nat}
    (hbytes : afterFiller bytes = first :: second :: rest)
    (hstarts : FoundNonce.startsResult first second = true) (hrounds : bytes.length ≤ 2 * rounds) :
    seek FoundNonce.startsResult rounds (thenSilence bytes) =
      some (thenSilence (first :: second :: rest)) := by
  fun_induction afterFiller bytes generalizing rounds with
  | case1 a b tail hzero ih =>
    obtain ⟨rfl, rfl⟩ := hzero
    obtain ⟨rounds, rfl⟩ : ∃ fewer, rounds = fewer + 1 :=
      ⟨rounds - 1, by simp only [List.length_cons] at hrounds; omega⟩
    rw [seek_thenSilence_pair, if_neg (by decide)]
    exact ih hbytes (by simp only [List.length_cons] at hrounds; omega)
  | case2 a b tail hzero =>
    obtain ⟨rfl, rfl, rfl⟩ : a = first ∧ b = second ∧ tail = rest := by simpa using hbytes
    obtain ⟨rounds, rfl⟩ : ∃ fewer, rounds = fewer + 1 :=
      ⟨rounds - 1, by simp only [List.length_cons] at hrounds; omega⟩
    rw [seek_thenSilence_pair, if_pos hstarts]
  | case3 => cases hbytes
  | case4 a hzero => simp at hbytes
  | case5 => cases hbytes

theorem seek_of_zeros {bytes : Bytes} (h : ∀ b ∈ bytes, b = 0) (rounds : Nat) :
    seek FoundNonce.startsResult rounds (thenSilence bytes) = none := by
  rw [thenSilence_of_zeros h]
  induction rounds with
  | zero => rfl
  | succ rounds ih =>
    rw [seek, if_neg (by decide), Stream'.drop_const]
    exact ih

theorem afterFiller_of_zeros {bytes : Bytes} (h : ∀ b ∈ bytes, b = 0) : afterFiller bytes = [] := by
  fun_induction afterFiller bytes with
  | case1 a b rest _ ih =>
    exact ih fun c hc => h c (List.mem_cons_of_mem _ (List.mem_cons_of_mem _ hc))
  | case2 a b rest hsome =>
    exact absurd ⟨h a List.mem_cons_self, h b (List.mem_cons_of_mem _ List.mem_cons_self)⟩ hsome
  | case3 => rfl
  | case4 a hsome => exact absurd (h a List.mem_cons_self) hsome
  | case5 => rfl

/-! ### Labels with a check -/

/-- Only what starts like a result is checked. -/
theorem labelResponse_of_checked {bytes : Bytes} (h : (labelResponse bytes).2 ≠ .notChecked) :
    ∃ first second rest, afterFiller bytes = first :: second :: rest ∧
      FoundNonce.startsResult first second = true ∧
      labelResponse bytes = labelResult first second (first :: second :: rest) := by
  unfold labelResponse at h ⊢
  cases hbytes : afterFiller bytes with
  | nil => simp [hbytes] at h
  | cons first tail =>
    simp only [hbytes] at h ⊢
    split at h
    · split at h
      · exact absurd rfl h
      · exact absurd rfl h
    · rename_i hregister
      split at h
      · rename_i hresult
        have hstarts : FoundNonce.startsResult first (tail.headD 0) = true :=
          (Bool.and_eq_true_iff.1 hresult).1
        cases tail with
        | nil => simp [FoundNonce.startsResult] at hstarts
        | cons second rest =>
          refine ⟨first, second, rest, rfl, hstarts, ?_⟩
          rw [if_neg hregister, if_pos hresult]
          rfl
      · exact absurd rfl h

theorem toVector_take_thenSilence (frame : Bytes) :
    Bytes.toVector 10 ((thenSilence frame).take resultFrameLength) = Bytes.toVector 10 frame := by
  have hlength : (Bytes.fit resultFrameLength frame).length = 10 := Bytes.length_fit _ _
  apply Vector.toList_inj.1
  rw [take_thenSilence, Bytes.toList_fitted, Bytes.fit_of_length hlength]
  rfl

theorem labelResult_cases (first second : UInt8) (frame : Bytes) :
    (∃ found, FoundNonce.decode (Bytes.toVector 10 frame) = .ok found ∧
        labelResult first second frame = (.result found, .valid)) ∨
      ∃ computed received,
        FoundNonce.decode (Bytes.toVector 10 frame) = .error (.crc computed received) ∧
          labelResult first second frame =
            (.badResult second (first >>> 4) (.crc computed received), .invalid) := by
  unfold labelResult FoundNonce.decode
  cases isSealed (Bytes.toVector 10 frame).toList with
  | true => exact .inl ⟨_, rfl, rfl⟩
  | false => exact .inr ⟨_, _, rfl, rfl⟩

/-- What a response is labelled as is what the driver hears when the bytes of the transfer are
played to it, with zeros behind them, after its request for results: a result called valid is the
answer, one called invalid is the same checksum error, and only zeros are filler and no result. -/
theorem fetchResult_of_label {τ : Type} [Channel τ] (time : Float) (bytes : Bytes) (bus : Bus τ)
    {begun ended : Nat} (htime : ended < begun + bus.limits.timeout)
    (hbound : bytes.length ≤ bus.limits.maxBytes)
    (hsent : (Channel.write resultRequest bus.channel).1 = .ok ())
    (hplays : Plays begun ended (Channel.write resultRequest bus.channel).2 (thenSilence bytes)) :
    let labelled := label ⟨time, .miso, bytes⟩
    let answer := (fetchResult.runOn bus).1
    (labelled.2 = .valid → ∃ found, labelled.1 = .result found ∧ answer = .ok (some found)) ∧
      (labelled.2 = .invalid → ∃ chip slot computed received,
        labelled.1 = .badResult chip slot (.crc computed received) ∧
          answer = .error (.crc computed received)) ∧
      ((∀ b ∈ bytes, b = 0) → labelled = (.filler, .notChecked) ∧ answer = .ok none) := by
  intro labelled answer
  have hanswer := fetchResult_plays htime hsent hplays
  have hchecked (hcheck : labelled.2 ≠ .notChecked) :
      (∃ found, labelled = (.result found, .valid) ∧ answer = .ok (some found)) ∨
        ∃ chip slot computed received,
          labelled = (.badResult chip slot (.crc computed received), .invalid) ∧
            answer = .error (.crc computed received) := by
    obtain ⟨first, second, rest, hbytes, hstarts, hlabel⟩ := labelResponse_of_checked hcheck
    have hrounds : bytes.length ≤ 2 * ((bus.limits.maxBytes + 1) / 2) := by omega
    rw [seek_afterFiller hbytes hstarts hrounds] at hanswer
    simp only [toVector_take_thenSilence] at hanswer
    rcases labelResult_cases first second (first :: second :: rest) with
      ⟨found, hdecode, hresult⟩ | ⟨computed, received, hdecode, hresult⟩
    · rw [hdecode] at hanswer
      exact .inl ⟨found, hlabel.trans hresult, hanswer⟩
    · rw [hdecode] at hanswer
      exact .inr ⟨second, first >>> 4, computed, received, hlabel.trans hresult, hanswer⟩
  refine ⟨?_, ?_, ?_⟩
  · intro hvalid
    rcases hchecked (by rw [hvalid]; decide) with
      ⟨found, hlabel, hfound⟩ | ⟨chip, slot, computed, received, hlabel, _⟩
    · exact ⟨found, congrArg Prod.fst hlabel, hfound⟩
    · rw [hlabel] at hvalid
      cases hvalid
  · intro hinvalid
    rcases hchecked (by rw [hinvalid]; decide) with
      ⟨found, hlabel, _⟩ | ⟨chip, slot, computed, received, hlabel, herror⟩
    · rw [hlabel] at hinvalid
      cases hinvalid
    · exact ⟨chip, slot, computed, received, congrArg Prod.fst hlabel, herror⟩
  · intro hzeros
    rw [seek_of_zeros hzeros] at hanswer
    refine ⟨?_, hanswer⟩
    show labelResponse bytes = _
    rw [labelResponse, afterFiller_of_zeros hzeros]

/-! ### A scripted chain -/

/-- The bus of a chain that answers the next request with the given bytes. -/
def busOf (bytes : Bytes) : Bus Script :=
  Bus.start (Script.start [bytes] [] []) .a6 ⟨16, 1⟩

/-- A result of chip 1 behind filler whose last byte may be damaged. -/
def oneResult (last : UInt8) : Bytes :=
  [0, 0, 0, 0, 0x18, 0x01, 0x00, 0x00, 0x12, 0x34, 0x00, 0x00, 0xf3, last]

/-- A whole result, a damaged one and mere filler: their labels and what the driver hears. -/
theorem fetchResult_of_label_behind_filler :
    ((label ⟨0, .miso, oneResult 0xb7⟩).2 = .valid ∧
        (fetchResult.runOn (busOf (oneResult 0xb7))).1 = .ok (some ⟨1, 1, 0x1234⟩)) ∧
      ((label ⟨0, .miso, oneResult 0xb6⟩).2 = .invalid ∧ ∃ computed received,
        (fetchResult.runOn (busOf (oneResult 0xb6))).1 = .error (.crc computed received)) ∧
      label ⟨0, .miso, List.replicate 14 0⟩ = (.filler, .notChecked) ∧
      (fetchResult.runOn (busOf (List.replicate 14 0))).1 = .ok none := by
  have heard (bytes : Bytes) (hlength : bytes.length ≤ 16) :=
    fetchResult_of_label 0 bytes (busOf bytes) Nat.zero_lt_one hlength rfl
      (plays_waiting rfl)
  have hvalid : (label ⟨0, .miso, oneResult 0xb7⟩).2 = .valid := by decide +kernel
  have hinvalid : (label ⟨0, .miso, oneResult 0xb6⟩).2 = .invalid := by decide +kernel
  refine ⟨⟨hvalid, ?_⟩, ⟨hinvalid, ?_⟩, ?_⟩
  · obtain ⟨found, hlabel, hanswer⟩ := (heard (oneResult 0xb7) (by decide)).1 hvalid
    have hframe : (match (label ⟨0, .miso, oneResult 0xb7⟩).1 with
        | .result found => found == ⟨1, 1, 0x1234⟩
        | _ => false) = true := by decide +kernel
    rw [hlabel] at hframe
    rw [hanswer, beq_iff_eq.1 hframe]
  · obtain ⟨chip, slot, computed, received, _, hanswer⟩ :=
      (heard (oneResult 0xb6) (by decide)).2.1 hinvalid
    exact ⟨computed, received, hanswer⟩
  · exact (heard (List.replicate 14 0) (by decide)).2.2 fun _ => List.eq_of_mem_replicate

end HashBoard.Capture
