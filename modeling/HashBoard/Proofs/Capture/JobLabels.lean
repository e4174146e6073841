import HashBoard.Capture.Label
import HashBoard.Proofs.Wire.ChecksumErrors

/-!
# Labels of job frames

What the dissector says of a job frame that the driver has sent, with its checksum or without, and
of one that was damaged on the way.

A job with a checksum of zero reads like one without a checksum that is followed by filler, and is
taken for that. Every other one is called valid, and no damage to a single byte behind the first
leaves it valid.
-/

namespace HashBoard.Wire

/-! ### What a job frame starts with -/

section FirstByte

variable {slot : UInt8}

theorem firstByte_facts : ∀ k : Fin 16,
    Job.firstByte (UInt8.ofNat k) ≠ 0 ∧ Job.firstByte (UInt8.ofNat k) >>> 4 = UInt8.ofNat k ∧
      Opcode.ofFirstByte? (Job.firstByte (UInt8.ofNat k)) = some .sendJob := by decide

theorem Job.firstByte_cases (h : slot < 16) :
    Job.firstByte slot ≠ 0 ∧ Job.firstByte slot >>> 4 = slot ∧
      Opcode.ofFirstByte? (Job.firstByte slot) = some .sendJob := by
  have hslot := firstByte_facts ⟨slot.toNat, h⟩
  simp only [UInt8.ofNat_toNat] at hslot
  exact hslot

end FirstByte

end HashBoard.Wire

namespace HashBoard.Capture

open Wire

/-! ### Commands that send a job -/

section Commands

variable {slot : UInt8}

theorem labelCommand_firstByte (h : slot < 16) (chip : UInt8) (rest : Bytes) :
    labelCommand (Job.firstByte slot :: chip :: rest) =
      labelJob chip slot (Job.firstByte slot :: chip :: rest) := by
  obtain ⟨hzero, hslot, hopcode⟩ := Job.firstByte_cases h
  have hall : (Job.firstByte slot :: chip :: rest).all (· == 0) = false := by
    rw [List.all_cons, beq_eq_false_iff_ne.2 hzero, Bool.false_and]
  rw [labelCommand, hall, if_neg Bool.false_ne_true]
  simp only [hopcode, hslot]

theorem labelJob_of_le {chip : UInt8} {bytes : Bytes} (h : bareJobLength ≤ bytes.length) :
    labelJob chip slot bytes =
      (.job chip slot (wordAt bytes nonceStartOffset) (wordAt bytes nonceEndOffset),
        jobCheck bytes) :=
  if_neg (Nat.not_lt_of_le h)

/-- The check does not depend on the chip that the second byte names. -/
theorem labelCommand_check {bytes : Bytes} (h : slot < 16)
    (hfirst : bytes[0]? = some (Job.firstByte slot)) (hlen : bareJobLength ≤ bytes.length) :
    (labelCommand bytes).2 = jobCheck bytes := by
  match bytes, hfirst, hlen with
  | [_], _, hlen => exact absurd (Nat.le_of_succ_le_succ hlen) (Nat.not_succ_le_zero _)
  | first :: chip :: rest, hfirst, hlen =>
    obtain rfl := Option.some.inj hfirst
    rw [labelCommand_firstByte h, labelJob_of_le hlen]

end Commands

/-! ### Words at their offsets -/

theorem wordAt_append (before : Bytes) (w : UInt32) (rest : Bytes) :
    wordAt (before ++ (Bytes.ofLE32 w ++ rest)) before.length = w := by
  have hbyte : ∀ k, (before ++ (Bytes.ofLE32 w ++ rest)).getD (before.length + k) 0 =
      (Bytes.ofLE32 w ++ rest).getD k 0 := by
    intro k
    rw [List.getD_eq_getElem?_getD, List.getD_eq_getElem?_getD,
      List.getElem?_append_right (Nat.le_add_right _ _), Nat.add_sub_cancel_left]
  have hfirst := hbyte 0
  rw [Nat.add_zero] at hfirst
  rw [wordAt, hbyte, hbyte, hbyte, hfirst]
  exact Bytes.be32_ofBE32 w

section Frames

variable (j : Job) (rest : Bytes)

theorem wordAt_nonceStart : wordAt (j.body ++ rest) nonceStartOffset = j.spec.nonceStart := by
  have hlen : (Job.firstByte j.slot :: j.chip ::
      (j.spec.header.toList.take 64).reverse).length = nonceStartOffset := by
    rw [List.length_cons, List.length_cons, List.length_reverse, List.length_take,
      Vector.length_toList]
    rfl
  have hword := wordAt_append
    (Job.firstByte j.slot :: j.chip :: (j.spec.header.toList.take 64).reverse) j.spec.nonceStart
    ((j.spec.header.toList.drop 64).reverse ++ j.spec.difficulty.bytes.toList.reverse ++
      Bytes.ofLE32 j.spec.nonceEnd ++ rest)
  rw [hlen] at hword
  simp only [Job.body, List.cons_append, List.append_assoc] at hword ⊢
  exact hword

theorem wordAt_nonceEnd : wordAt (j.body ++ rest) nonceEndOffset = j.spec.nonceEnd := by
  have hlen : (Job.firstByte j.slot :: j.chip ::
      ((j.spec.header.toList.take 64).reverse ++ Bytes.ofLE32 j.spec.nonceStart ++
        (j.spec.header.toList.drop 64).reverse ++
        j.spec.difficulty.bytes.toList.reverse)).length = nonceEndOffset := by
    simp only [List.length_cons, List.length_append, List.length_reverse, List.length_take,
      List.length_drop, Vector.length_toList, Bytes.length_ofLE32]
    rfl
  have hword := wordAt_append (Job.firstByte j.slot :: j.chip ::
      ((j.spec.header.toList.take 64).reverse ++ Bytes.ofLE32 j.spec.nonceStart ++
        (j.spec.header.toList.drop 64).reverse ++
        j.spec.difficulty.bytes.toList.reverse)) j.spec.nonceEnd rest
  rw [hlen] at hword
  simp only [Job.body, List.cons_append, List.append_assoc] at hword ⊢
  exact hword

theorem labelCommand_body (hslot : j.slot < 16) :
    labelCommand (j.body ++ rest) =
      (.job j.chip j.slot j.spec.nonceStart j.spec.nonceEnd, jobCheck (j.body ++ rest)) := by
  have hlen : bareJobLength ≤ (j.body ++ rest).length := by
    rw [List.length_append, j.length_body]
    exact Nat.le_add_right _ _
  have hlabel : labelCommand (j.body ++ rest) = labelJob j.chip j.slot (j.body ++ rest) :=
    labelCommand_firstByte hslot _ _
  rw [hlabel, labelJob_of_le hlen, wordAt_nonceStart, wordAt_nonceEnd]

end Frames

/-! ### Checks -/

theorem jobCheck_append {frame : Bytes} (hlen : frame.length = bareJobLength + jobChecksumLength)
    (rest : Bytes) :
    jobCheck (frame ++ rest) =
      if frame.drop bareJobLength = [0, 0] then .notChecked else Check.ofFrame frame := by
  have henough : bareJobLength + jobChecksumLength ≤ (frame ++ rest).length := by
    rw [List.length_append, hlen]
    exact Nat.le_add_right _ _
  have htake : (frame ++ rest).take (bareJobLength + jobChecksumLength) = frame := by
    rw [← hlen, List.take_left]
  have hchecksum : ((frame ++ rest).drop bareJobLength).take jobChecksumLength =
      frame.drop bareJobLength := by
    have hbehind : (frame.drop bareJobLength).length = jobChecksumLength := by
      rw [List.length_drop, hlen, Nat.add_sub_cancel_left]
    rw [List.drop_append_of_le_length (by omega), ← hbehind, List.take_left]
  simp only [jobCheck, htake, hchecksum, decide_eq_true henough, Bool.true_and, bne_iff_ne, ne_eq,
    ite_not]

theorem jobCheck_bare {body : Bytes} (hlen : body.length = bareJobLength) (n : Nat) :
    jobCheck (body ++ List.replicate n 0) = .notChecked := by
  have hshort : ∀ k < jobChecksumLength, jobCheck (body ++ List.replicate k 0) = .notChecked := by
    intro k hk
    have hless : ¬bareJobLength + jobChecksumLength ≤ (body ++ List.replicate k 0).length := by
      rw [List.length_append, hlen, List.length_replicate]
      omega
    simp only [jobCheck, decide_eq_false hless, Bool.false_and, Bool.false_eq_true, if_false]
  match n with
  | 0 => exact hshort 0 (by decide)
  | 1 => exact hshort 1 (by decide)
  | n + 2 =>
    have hzeros : body ++ List.replicate (n + 2) 0 = body ++ [0, 0] ++ List.replicate n 0 := by
      rw [List.append_assoc]
      rfl
    have hwhole : (body ++ [0, 0]).length = bareJobLength + jobChecksumLength := by
      rw [List.length_append, hlen]
      rfl
    rw [hzeros, jobCheck_append hwhole, ← hlen, List.drop_left]
    rfl

theorem ofBE16_eq_zero_iff (w : UInt16) : Bytes.ofBE16 w = [0, 0] ↔ w = 0 := by
  constructor
  · intro h
    obtain ⟨hhi, htail⟩ := List.cons.inj h
    obtain ⟨hlo, _⟩ := List.cons.inj htail
    rw [← Bytes.be16_ofBE16 w, hhi, hlo]
    rfl
  · intro h
    rw [h]
    rfl

theorem jobCheck_sealed {body : Bytes} (hlen : body.length = bareJobLength) (rest : Bytes) :
    jobCheck (sealed body ++ rest) =
      if frameChecksum body = 0 then .notChecked else .valid := by
  have hwhole : (sealed body).length = bareJobLength + jobChecksumLength := by
    rw [length_sealed, hlen]
    rfl
  have hbehind : (sealed body).drop bareJobLength = Bytes.ofBE16 (frameChecksum body) := by
    rw [sealed, ← hlen, List.drop_left]
  have hvalid : Check.ofFrame (sealed body) = .valid := if_pos (isSealed_sealed body)
  simp only [jobCheck_append hwhole, hbehind, hvalid, ofBE16_eq_zero_iff]

/-- A checksum that was damaged into zero hides the damage, but does not make the frame valid. -/
theorem jobCheck_damaged {body : Bytes} (hlen : body.length = bareJobLength) (rest : Bytes)
    {i : Nat} {old byte : UInt8} (hold : (sealed body)[i]? = some old) (hne : byte ≠ old) :
    jobCheck ((sealed body).set i byte ++ rest) ≠ .valid := by
  have hwhole : ((sealed body).set i byte).length = bareJobLength + jobChecksumLength := by
    rw [List.length_set, length_sealed, hlen]
    rfl
  rw [jobCheck_append hwhole, Check.ofFrame, isSealed_sealed_set hold hne]
  split
  · exact nofun
  · exact nofun

/-! ### Whole frames -/

variable {j : Job}

theorem labelCommand_frame (hslot : j.slot < 16) (n : Nat) :
    labelCommand (j.frame true ++ List.replicate n 0) =
      (.job j.chip j.slot j.spec.nonceStart j.spec.nonceEnd,
        if frameChecksum j.body = 0 then .notChecked else .valid) := by
  have hframe : j.frame true ++ List.replicate n 0 =
      j.body ++ (Bytes.ofBE16 (frameChecksum j.body) ++ List.replicate n 0) :=
    List.append_assoc _ _ _
  rw [hframe, labelCommand_body j _ hslot, ← hframe]
  exact congrArg _ (jobCheck_sealed j.length_body _)

theorem labelCommand_bareFrame (hslot : j.slot < 16) (n : Nat) :
    labelCommand (j.frame false ++ List.replicate n 0) =
      (.job j.chip j.slot j.spec.nonceStart j.spec.nonceEnd, .notChecked) := by
  have hcheck := jobCheck_bare j.length_body n
  rw [← hcheck]
  exact labelCommand_body j _ hslot

theorem labelCommand_damaged (hslot : j.slot < 16) (n : Nat) {i : Nat} {old byte : UInt8}
    (hi : i ≠ 0) (hold : (j.frame true)[i]? = some old) (hne : byte ≠ old) :
    (labelCommand ((j.frame true).set i byte ++ List.replicate n 0)).2 ≠ .valid := by
  have hlen : bareJobLength ≤ ((j.frame true).set i byte ++ List.replicate n 0).length := by
    rw [List.length_append, List.length_set, j.length_frame]
    omega
  have hfirst : ((j.frame true).set i byte ++ List.replicate n 0)[0]? =
      some (Job.firstByte j.slot) := by
    rw [List.getElem?_append_left (by rw [List.length_set, j.length_frame]; decide),
      List.getElem?_set_ne hi]
    rfl
  rw [labelCommand_check hslot hfirst hlen]
  exact jobCheck_damaged j.length_body _ hold hne

/-- What a job for one chip is shown as. -/
def sentJobText (j : Job) : String :=
  let low := hexText 8 j.spec.nonceStart.toNat
  let high := hexText 8 j.spec.nonceEnd.toNat
  s!"write_job chip {j.chip.toNat} slot {j.slot.toNat} nonces {low}..={high}"

theorem text_job (hchip : j.chip ≠ broadcast) :
    (Label.job j.chip j.slot j.spec.nonceStart j.spec.nonceEnd).text = sentJobText j := by
  have haddressee : addressee j.chip = s!"chip {j.chip.toNat}" := if_neg hchip
  have hhead : "write_job chip " = "write_job " ++ "chip " := rfl
  unfold Label.text Label.jobText sentJobText
  dsimp only
  rewrite [haddressee, hhead]
  simp only [toString, String.append_assoc]

/-- Any amount of filler may follow the frame. -/
theorem label_jobFrame (hchip : j.chip ≠ broadcast) (hslot : j.slot < 16) (time : Float) (n : Nat) :
    let shown := Label.job j.chip j.slot j.spec.nonceStart j.spec.nonceEnd
    let transfer : Bytes → Transfer := fun frame => ⟨time, .mosi, frame ++ List.replicate n 0⟩
    label (transfer (j.frame true)) =
        (shown, if frameChecksum j.body = 0 then .notChecked else .valid) ∧
      (∀ i byte, 0 < i → i < 92 → (j.frame true)[i]? ≠ some byte →
        (label (transfer ((j.frame true).set i byte))).2 ≠ .valid) ∧
      label (transfer (j.frame false)) = (shown, .notChecked) ∧
      shown.text = sentJobText j := by
  refine ⟨labelCommand_frame hslot n, ?_, labelCommand_bareFrame hslot n,
    text_job hchip⟩
  intro i byte hpos hi hdiffers
  obtain ⟨old, hold⟩ : ∃ old, (j.frame true)[i]? = some old :=
    ⟨_, List.getElem?_eq_getElem (by rw [j.length_frame]; exact hi)⟩
  have hne : byte ≠ old := by
    rintro rfl
    exact hdiffers hold
  exact labelCommand_damaged hslot n (Nat.ne_of_gt hpos) hold hne

/-- The job of a header of zeros for all nonces from `first` on. -/
def zeroHeaderJob (first : UInt32) : Job :=
  ⟨1, 1, ⟨Vector.replicate 76 0, first, 0xffffffff,
    Difficulty.table.get (Difficulty.fallbackIndex 1)⟩⟩

theorem label_zeroHeaderJob :
    label ⟨0, .mosi, (zeroHeaderJob 0).frame true ++ List.replicate 10 0⟩ =
      (.job 1 1 0 0xffffffff, .valid) := by
  have hchecksum : frameChecksum (zeroHeaderJob 0).body ≠ 0 := by decide +kernel
  have hlabel := (label_jobFrame (j := zeroHeaderJob 0) (by decide) (by decide) 0 10).1
  rw [if_neg hchecksum] at hlabel
  exact hlabel

theorem label_job_with_zero_checksum :
    ¬∀ (j : Job) (time : Float) (n : Nat), j.chip ≠ broadcast → j.slot < 16 →
      (label ⟨time, .mosi, j.frame true ++ List.replicate n 0⟩).2 = .valid := by
  intro hvalid
  have hchecksum : frameChecksum (zeroHeaderJob 26916).body = 0 := by decide +kernel
  have hcheck := hvalid (zeroHeaderJob 26916) 0 0 (by decide) (by decide)
  have hlabel := labelCommand_frame (j := zeroHeaderJob 26916) (by decide) 0
  rw [if_pos hchecksum] at hlabel
  rw [label, hlabel] at hcheck
  cases hcheck

end HashBoard.Capture
