import HashBoard.Proofs.Bus.Addresses

/-!
# Result frames heard

The result frames that a bus has heard complete, whatever their checksum says. Only a request for
results adds one, and its answer is what the frame decodes to.
-/

namespace HashBoard.Bus

open Wire

/-! ### Complete frames -/

theorem length_of_response? {accepts : UInt8 → UInt8 → Bool} {length : Nat}
    {heard : List (Except ChannelError Bytes)} {response : Bytes} (hlen : 2 ≤ length)
    (h : response? accepts length heard = some response) : response.length = length := by
  fun_induction response? accepts length heard with
  | case1 a b rest _ hfull =>
    obtain rfl := Option.some.inj h
    rw [List.length_cons, List.length_cons, hfull]
    omega
  | case2 a b rest _ _ => cases h
  | case3 a b rest _ ih => exact ih h
  | case4 heard _ => cases h

theorem toList_toVector {frame : Bytes} {n : Nat} (h : frame.length = n) :
    (Bytes.toVector n frame).toList = frame := by
  rw [Bytes.toList_fitted, Bytes.fit_of_length h]

theorem decode_cases {frame : Bytes} (hlen : frame.length = 10) :
    (isSealed frame = true ∧
        ∃ result, FoundNonce.decode (Bytes.toVector 10 frame) = .ok result) ∨
      (isSealed frame = false ∧ ∃ computed received,
        FoundNonce.decode (Bytes.toVector 10 frame) = .error (.crc computed received)) := by
  have hcases := FoundNonce.decode_cases (Bytes.toVector 10 frame)
  rwa [toList_toVector hlen] at hcases

/-! ### What a bus has heard -/

variable {τ : Type} {bus after : Bus τ}

/-- The result frames heard complete, latest first. -/
def resultFrames (bus : Bus τ) : List Bytes :=
  (transmissions bus.calls).filterMap fun t =>
    if t.frame = resultRequest then t.resultFrame? else none

theorem WritesTo.resultFrames_eq {chip : UInt8} (h : WritesTo chip bus after)
    (hchip : chip ≠ broadcast) : after.resultFrames = bus.resultFrames := by
  obtain ⟨ts, hex, hts⟩ := h
  have hnone : (ts.filterMap fun t =>
      if t.frame = resultRequest then t.resultFrame? else none) = [] := by
    apply List.filterMap_eq_nil_iff.2
    intro t ht
    have hother : t.frame ≠ resultRequest := by
      intro heq
      have hself : isAddressedTo broadcast t.frame = true := by
        rw [heq]
        exact isAddressedTo_cons _ _
      have hchip := isAddressedTo_eq_false hself hchip
      rw [hts t ht] at hchip
      cases hchip
    rw [if_neg hother]
  rw [resultFrames, hex.transmissions, List.filterMap_append, hnone, List.nil_append]
  rfl

variable [Channel τ]

/-- Either a complete frame was heard and the answer is what it decodes to, or none was heard and
neither a result nor a wrong checksum is answered. -/
theorem fetchResult_heard {answer : Except ExchangeError (Option FoundNonce)}
    (h : fetchResult.runOn bus = (answer, after)) :
    (∃ frame : Bytes, frame.length = resultFrameLength ∧
        after.resultFrames = frame :: bus.resultFrames ∧
        answer = (FoundNonce.decode (Bytes.toVector 10 frame)).map some) ∨
      (after.resultFrames = bus.resultFrames ∧ answer.toOption.join = none ∧
        ∀ cause, answer = .error cause → isChecksumError cause = false) := by
  obtain ⟨t, hframe, hex, hanswer⟩ := fetchResult_answer h
  have hheard : after.resultFrames = t.resultFrame?.toList ++ bus.resultFrames := by
    rw [resultFrames, hex.transmissions, List.singleton_append, List.filterMap_cons, if_pos hframe]
    cases t.resultFrame? with
    | none => rfl
    | some frame => rfl
  cases hf : t.resultFrame? with
  | none =>
    rw [hf] at hheard hanswer
    exact .inr ⟨hheard, hanswer⟩
  | some frame =>
    rw [hf] at hheard hanswer
    exact .inl ⟨frame, length_of_response? (by decide) hf, hheard, hanswer⟩

end HashBoard.Bus
