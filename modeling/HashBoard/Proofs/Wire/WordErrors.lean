import HashBoard.Proofs.Wire.BitwiseChecksum
import HashBoard.Wire.FoundNonce
import HashBoard.Wire.Job
import HashBoard.Wire.Register
import Mathlib.Data.List.Basic

/-!
# Errors inside one word

Two bytes shift the register sixteen times, and no shift loses anything: the register after a word
shows the word that went in. A frame of an even length is sealed exactly when its own checksum,
trailer included, is zero, so no two sealed frames differ in one aligned word only. Zero words
behind a sealed frame leave it sealed, which makes this true of a whole register write and of a job
with the zeros clocked after it.
-/

namespace HashBoard.Wire

/-! ### Words -/

theorem shiftOut_eq_zero {crc : UInt16} (h : shiftOut crc = 0) : crc = 0 := by
  have hcrc : crc.toNat < 65536 := crc.toNat_lt
  have hhalf : (crc >>> 1).toNat = crc.toNat / 2 := rfl
  unfold shiftOut at h
  split at h
  next hodd =>
    -- The highest bit of the polynomial is one, and that of a shifted register is not.
    have hpolynomial : crc >>> 1 = 0xA001 := UInt16.xor_eq_zero_iff.1 h
    have hlarge : crc.toNat / 2 = 0xA001 := by
      rw [← hhalf, hpolynomial]
      rfl
    omega
  next heven =>
    have hzero : crc.toNat / 2 = 0 := by
      rw [← hhalf, h]
      rfl
    rw [and_one_eq_one_iff] at heven
    apply UInt16.toNat_inj.1
    show crc.toNat = 0
    omega

theorem shiftOut_injective : Function.Injective shiftOut := by
  intro crc crc' h
  apply UInt16.xor_eq_zero_iff.1
  apply shiftOut_eq_zero
  rw [shiftOut_xor, h, UInt16.xor_self]

theorem toNat_shiftLeft_eight (byte : UInt8) : (byte.toUInt16 <<< 8).toNat = byte.toNat * 256 := by
  have hbyte : byte.toNat < 256 := byte.toNat_lt
  have hshift : (byte.toUInt16 <<< 8).toNat = byte.toNat <<< 8 % 65536 := rfl
  rw [hshift, Nat.shiftLeft_eq]
  omega

theorem be16_eq_xor (hi lo : UInt8) :
    Bytes.be16 hi lo = lo.toUInt16 ^^^ hi.toUInt16 <<< 8 := by
  have hlo : lo.toNat < 2 ^ 8 := lo.toNat_lt
  have hword : (lo.toUInt16 ^^^ hi.toUInt16 <<< 8).toNat = lo.toNat ^^^ hi.toNat * 2 ^ 8 := by
    rw [UInt16.toNat_xor, toNat_shiftLeft_eight, UInt8.toNat_toUInt16]
    rfl
  have hmod : (lo.toNat ^^^ hi.toNat * 2 ^ 8) % 2 ^ 8 = lo.toNat := by
    rw [Nat.xor_mod_two_pow, Nat.mul_mod_left, Nat.xor_zero, Nat.mod_eq_of_lt hlo]
  have hdiv : (lo.toNat ^^^ hi.toNat * 2 ^ 8) / 2 ^ 8 = hi.toNat := by
    rw [Nat.xor_div_two_pow, Nat.div_eq_of_lt hlo, Nat.zero_xor,
      Nat.mul_div_cancel _ (Nat.two_pow_pos 8)]
  apply UInt16.toNat_inj.1
  rw [Bytes.toNat_be16, hword]
  omega

/-- Two bytes are sixteen shifts of the register with the word in it. -/
theorem crcByte_crcByte (crc : UInt16) (lo hi : UInt8) :
    crcByte (crcByte crc lo) hi = shiftOut^[16] (crc ^^^ Bytes.be16 hi lo) := by
  have hclear : 2 ^ 8 ∣ (hi.toUInt16 <<< 8).toNat := by
    rw [toNat_shiftLeft_eight]
    exact Nat.dvd_mul_left ..
  have hhigh : hi.toUInt16 = shiftOut^[8] (hi.toUInt16 <<< 8) := by
    apply UInt16.toNat_inj.1
    rw [toNat_iterate_shiftOut 8 hclear, toNat_shiftLeft_eight, UInt8.toNat_toUInt16]
    exact (Nat.mul_div_cancel _ (Nat.two_pow_pos 8)).symm
  calc crcByte (crcByte crc lo) hi
      = shiftOut^[8] (shiftOut^[8] (crc ^^^ lo.toUInt16) ^^^ hi.toUInt16) := by
        rw [crcByte_eq_bitwiseByte, crcByte_eq_bitwiseByte]
        rfl
    _ = shiftOut^[8] (shiftOut^[8] (crc ^^^ lo.toUInt16 ^^^ hi.toUInt16 <<< 8)) := by
        rw [iterate_shiftOut_xor 8 (crc ^^^ lo.toUInt16), ← hhigh]
    _ = shiftOut^[16] (crc ^^^ Bytes.be16 hi lo) := by
        rw [be16_eq_xor, ← UInt16.xor_assoc, ← Function.iterate_add_apply]

theorem crcByte_crcByte_inj {crc : UInt16} {lo hi lo' hi' : UInt8}
    (h : crcByte (crcByte crc lo) hi = crcByte (crcByte crc lo') hi') : hi = hi' ∧ lo = lo' := by
  rw [crcByte_crcByte, crcByte_crcByte] at h
  exact Bytes.be16_inj ((UInt16.xor_right_inj _).1 (shiftOut_injective.iterate 16 h))

theorem iterate_shiftOut_eq_zero_iff {bits : Nat} {crc : UInt16} :
    shiftOut^[bits] crc = 0 ↔ crc = 0 := by
  have hzero : shiftOut^[bits] 0 = 0 := Function.iterate_fixed rfl bits
  exact ⟨fun h => shiftOut_injective.iterate bits (h.trans hzero.symm), fun h => h ▸ hzero⟩

/-! ### Frames as words -/

theorem swapPairs_append {first : Bytes} (heven : first.length % 2 = 0) (second : Bytes) :
    swapPairs (first ++ second) = swapPairs first ++ swapPairs second := by
  fun_induction swapPairs first with
  | case1 a b rest ih =>
    have hrest : rest.length % 2 = 0 := by
      simp only [List.length_cons] at heven
      omega
    rw [List.cons_append, List.cons_append, swapPairs, ih hrest]
    rfl
  | case2 rest h =>
    rcases rest with _ | ⟨a, _ | ⟨b, tail⟩⟩
    · rfl
    · cases heven
    · exact absurd rfl (h a b tail)

theorem frameChecksum_append_pair {bytes : Bytes} (heven : bytes.length % 2 = 0) (a b : UInt8) :
    frameChecksum (bytes ++ [a, b]) = shiftOut^[16] (frameChecksum bytes ^^^ Bytes.be16 a b) := by
  rw [frameChecksum, swapPairs_append heven, checksum, List.foldl_append]
  exact crcByte_crcByte ..

theorem exists_append_pair {frame : Bytes} (h : 2 ≤ frame.length) :
    ∃ bytes a b, frame = bytes ++ [a, b] := by
  have hlast : (frame.drop (frame.length - 2)).length = 2 := by
    rw [List.length_drop]
    omega
  obtain ⟨a, b, hpair⟩ := List.length_eq_two.1 hlast
  exact ⟨frame.take (frame.length - 2), a, b, by rw [← hpair, List.take_append_drop]⟩

/-- A frame is sealed when the checksum of all of it is zero. -/
theorem isSealed_iff_frameChecksum {frame : Bytes} (heven : frame.length % 2 = 0)
    (htwo : 2 ≤ frame.length) : isSealed frame = true ↔ frameChecksum frame = 0 := by
  obtain ⟨bytes, a, b, rfl⟩ := exists_append_pair htwo
  have hbytes : bytes.length % 2 = 0 := by
    simp only [List.length_append, List.length_cons, List.length_nil] at heven
    omega
  rw [isSealed_append_pair, frameChecksum_append_pair hbytes, iterate_shiftOut_eq_zero_iff,
    UInt16.xor_eq_zero_iff, beq_iff_eq]

theorem two_le_of_isSealed {frame : Bytes} (h : isSealed frame = true) : 2 ≤ frame.length :=
  of_decide_eq_true (Bool.and_eq_true_iff.1 h).1

/-! ### Errors -/

/-- The second string has the length of the first and differs from it, but only in the two bytes
of one word. -/
structure DiffersInWord (word : Nat) (bytes bytes' : Bytes) : Prop where
  length : bytes'.length = bytes.length
  differs : bytes' ≠ bytes
  elsewhere : ∀ place, place / 2 ≠ word → bytes'[place]? = bytes[place]?

/-- What is the same ahead of the word and behind it. -/
theorem DiffersInWord.exists_append {word : Nat} {bytes bytes' : Bytes}
    (h : DiffersInWord word bytes bytes') (heven : bytes.length % 2 = 0) :
    ∃ before a b a' b' rest, before.length % 2 = 0 ∧ bytes = before ++ a :: b :: rest ∧
      bytes' = before ++ a' :: b' :: rest ∧ ¬(a' = a ∧ b' = b) := by
  obtain ⟨hlength, hdiffers, helsewhere⟩ := h
  induction word generalizing bytes bytes' with
  | zero =>
    match bytes, bytes', hlength with
    | [], [], _ => exact absurd rfl hdiffers
    | [a], [a'], _ => cases heven
    | a :: b :: rest, a' :: b' :: rest', _ =>
      have hrest : rest' = rest := List.ext_getElem? fun place =>
        helsewhere (place + 2) (by omega)
      subst hrest
      refine ⟨[], a, b, a', b', rest', rfl, rfl, rfl, ?_⟩
      rintro ⟨rfl, rfl⟩
      exact hdiffers rfl
  | succ word ih =>
    match bytes, bytes', hlength with
    | [], [], _ => exact absurd rfl hdiffers
    | [a], [a'], _ => cases heven
    | a :: b :: rest, a' :: b' :: rest', hlength =>
      obtain rfl : a' = a := Option.some.inj (helsewhere 0 (by omega))
      obtain rfl : b' = b := Option.some.inj (helsewhere 1 (by omega))
      have hsame : rest'.length = rest.length := by
        simp only [List.length_cons] at hlength
        omega
      have hother : rest' ≠ rest := fun heq => hdiffers (by rw [heq])
      have hrest : rest.length % 2 = 0 := by
        simp only [List.length_cons] at heven
        omega
      obtain ⟨before, c, d, c', d', after, hbefore, rfl, rfl, hpair⟩ := ih hrest hsame hother
        fun place hplace => helsewhere (place + 2) (by omega)
      refine ⟨a' :: b' :: before, c, d, c', d', after, ?_, rfl, rfl, hpair⟩
      simp only [List.length_cons]
      omega

theorem frameChecksum_ne_of_differsInWord {word : Nat} {bytes bytes' : Bytes}
    (heven : bytes.length % 2 = 0) (h : DiffersInWord word bytes bytes') :
    frameChecksum bytes' ≠ frameChecksum bytes := by
  obtain ⟨before, a, b, a', b', rest, hbefore, rfl, rfl, hpair⟩ := h.exists_append heven
  intro heq
  simp only [frameChecksum, swapPairs_append hbefore, checksum, List.foldl_append, swapPairs,
    List.foldl_cons] at heq
  exact hpair (crcByte_crcByte_inj (foldl_crcByte_inj (swapPairs rest) heq))

theorem isSealed_of_differsInWord {word : Nat} {frame frame' : Bytes}
    (heven : frame.length % 2 = 0) (hsealed : isSealed frame = true)
    (h : DiffersInWord word frame frame') : isSealed frame' = false := by
  have heven' : frame'.length % 2 = 0 := by rw [h.length, heven]
  apply Bool.eq_false_iff.2
  intro hsealed'
  have hzero := (isSealed_iff_frameChecksum heven (two_le_of_isSealed hsealed)).1 hsealed
  have hzero' := (isSealed_iff_frameChecksum heven' (two_le_of_isSealed hsealed')).1 hsealed'
  exact frameChecksum_ne_of_differsInWord heven h (hzero'.trans hzero.symm)

theorem differsInWord_set {bytes : Bytes} {place : Nat} {old byte : UInt8}
    (hold : bytes[place]? = some old) (hne : byte ≠ old) :
    DiffersInWord (place / 2) bytes (bytes.set place byte) where
  length := List.length_set
  differs := by
    intro heq
    have hset := List.getElem?_set_self (List.getElem?_eq_some_iff.1 hold).1 (a := byte)
    rw [heq, hold] at hset
    exact hne (Option.some.inj hset).symm
  elsewhere := by
    intro other hother
    apply List.getElem?_set_ne
    rintro rfl
    exact hother rfl

/-! ### Frames of the wire -/

/-- The frame is sealed, and no frame is that differs from it in one byte. -/
def GuardsBytes (frame : Bytes) : Prop :=
  isSealed frame = true ∧ ∀ (place : Nat) (old byte : UInt8),
    frame[place]? = some old → byte ≠ old → isSealed (frame.set place byte) = false

theorem guardsBytes_of_isSealed {frame : Bytes} (heven : frame.length % 2 = 0)
    (hsealed : isSealed frame = true) : GuardsBytes frame :=
  ⟨hsealed, fun _ _ _ hold hne => isSealed_of_differsInWord heven hsealed (differsInWord_set hold hne)⟩

/-- The checksum of a sealed frame is zero, and so are the two bytes that now take its place. -/
theorem isSealed_append_zeros {frame : Bytes} (heven : frame.length % 2 = 0)
    (hsealed : isSealed frame = true) (words : Nat) :
    isSealed (frame ++ List.replicate (2 * words) 0) = true := by
  have htwo := two_le_of_isSealed hsealed
  have hlength (n : Nat) : (frame ++ List.replicate n 0).length = frame.length + n := by
    rw [List.length_append, List.length_replicate]
  have hzero := (isSealed_iff_frameChecksum heven htwo).1 hsealed
  rw [isSealed_iff_frameChecksum (by rw [hlength]; omega) (by rw [hlength]; omega)]
  induction words with
  | zero => rw [Nat.mul_zero, List.replicate_zero, List.append_nil, hzero]
  | succ words ih =>
    have hpair : List.replicate (2 * (words + 1)) (0 : UInt8) =
        List.replicate (2 * words) 0 ++ [0, 0] := by
      rw [Nat.mul_succ, ← List.replicate_append_replicate]
      rfl
    rw [hpair, ← List.append_assoc, frameChecksum_append_pair (by rw [hlength]; omega), ih]
    exact iterate_shiftOut_eq_zero_iff.2 rfl

theorem guardsBytes_sealed_zeros {body : Bytes} (heven : body.length % 2 = 0) (words : Nat) :
    GuardsBytes (sealed body ++ List.replicate (2 * words) 0) := by
  have hsealed : (sealed body).length % 2 = 0 := by
    rw [length_sealed]
    omega
  refine guardsBytes_of_isSealed ?_ (isSealed_append_zeros hsealed (isSealed_sealed body) words)
  rw [List.length_append, List.length_replicate]
  omega

theorem guardsBytes_sealed {body : Bytes} (heven : body.length % 2 = 0) :
    GuardsBytes (sealed body) := by
  have hguards := guardsBytes_sealed_zeros heven 0
  rwa [Nat.mul_zero, List.replicate_zero, List.append_nil] at hguards

/-- A sealed frame of an even length does not stay sealed when it is changed in one aligned word
only. No changed byte goes unnoticed in a register write, with or without the two zeros behind its
checksum, in a job with a checksum and any zero words clocked after it, or in a result. -/
theorem word_errors_detected :
    (∀ (frame frame' : Bytes) (word : Nat), frame.length % 2 = 0 → isSealed frame = true →
      DiffersInWord word frame frame' → isSealed frame' = false) ∧
    (∀ (register : Register) (opcode : Opcode) (address : UInt8),
      GuardsBytes (register.storeFrame opcode address) ∧
        GuardsBytes ((register.storeFrame opcode address).take 14)) ∧
    (∀ (j : Job) (words : Nat), GuardsBytes (j.frame true ++ List.replicate (2 * words) 0)) ∧
    (∀ r : FoundNonce, GuardsBytes r.encode) ∧
    ∀ (frame : Vector UInt8 10) (result : FoundNonce), FoundNonce.decode frame = .ok result →
      ∀ (place : Fin 10) (byte : UInt8), byte ≠ frame.get place → ∃ computed received,
        FoundNonce.decode (frame.set place byte) = .error (.crc computed received) := by
  refine ⟨fun _ _ _ => isSealed_of_differsInWord, ?_, ?_, ?_, ?_⟩
  · intro register opcode address
    have heven : (register.storeBody opcode address).length % 2 = 0 := by
      rw [Register.length_storeBody]
    have htake : (register.storeFrame opcode address).take 14 =
        sealed (register.storeBody opcode address) := by
      apply List.take_left'
      rw [length_sealed, Register.length_storeBody]
    rw [htake]
    exact ⟨guardsBytes_sealed_zeros heven 1, guardsBytes_sealed heven⟩
  · intro j words
    exact guardsBytes_sealed_zeros (by rw [Job.length_body]; rfl) words
  · intro r
    apply guardsBytes_sealed
    rw [List.length_cons, List.length_cons, List.length_append, Bytes.length_ofBE32]
    rfl
  · intro frame result hdecode place byte hne
    have hsealed : isSealed frame.toList = true := by
      rcases FoundNonce.decode_cases frame with ⟨hsealed, _⟩ | ⟨_, _, _, herror⟩
      · exact hsealed
      · rw [herror] at hdecode
        cases hdecode
    have hguards := guardsBytes_of_isSealed (by rw [Vector.length_toList]) hsealed
    have hspoilt : isSealed (frame.set place byte).toList = false := by
      rw [Vector.toList_set]
      refine hguards.2 place (frame.get place) byte ?_ hne
      rw [List.getElem?_eq_getElem (by rw [Vector.length_toList]; exact place.isLt)]
      rfl
    rcases FoundNonce.decode_cases (frame.set place byte) with ⟨hsealed, _⟩ | ⟨_, herror⟩
    · rw [hspoilt] at hsealed
      cases hsealed
    · exact herror

/-- The frame of a result, with both bytes of its second word exchanged for others, and with the
first byte of its nonce changed. -/
theorem word_errors_detected_of_result :
    isSealed [0x28, 0x02, 0xfe, 0x67, 0x6d, 0x55, 0, 0, 0x19, 0xc8] = false ∧
      ∃ computed received,
        FoundNonce.decode #v[0x28, 0x02, 0x00, 0x98, 0x6d, 0x55, 0, 0, 0x19, 0xc8] =
          .error (.crc computed received) := by
  obtain ⟨hwords, _, _, _, hresults⟩ := word_errors_detected
  refine ⟨?_, ?_⟩
  · refine hwords [0x28, 0x02, 0x01, 0x98, 0x6d, 0x55, 0, 0, 0x19, 0xc8] _ 1 rfl
      (by decide +kernel) ⟨rfl, by decide, fun place hplace => ?_⟩
    match place, hplace with
    | 0, _ | 1, _ => rfl
    | 2, h | 3, h => exact absurd rfl h
    | _ + 4, _ => rfl
  · have hdecode : FoundNonce.decode #v[0x28, 0x02, 0x01, 0x98, 0x6d, 0x55, 0, 0, 0x19, 0xc8] =
        .ok ⟨2, 2, 0x01986d55⟩ := by
      rw [FoundNonce.decode, if_pos (by decide +kernel)]
      rfl
    exact hresults _ _ hdecode 2 0x00 (by decide)

end HashBoard.Wire
