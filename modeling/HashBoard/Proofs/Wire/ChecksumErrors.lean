import HashBoard.Wire.Crc
import Mathlib.Data.Nat.Bitwise

/-!
# What the checksum tells apart

The highest four bits of the sixteen table words are all different, so a shifted register shows
which word went into it and with it the bits that were shifted out. No two registers become one by
shifting the same bytes into both, and a frame of which one byte is changed is not sealed any more.
-/

namespace HashBoard.Wire

/-! ### Four bits -/

section Nibble

variable {crc crc' : UInt16} {nibble nibble' : UInt8}

theorem lowNibble_mod_lt (crc : UInt16) (nibble : UInt8) :
    ((nibble ^^^ crc.toUInt8) &&& 0x0f).toNat % 16 < 16 := Nat.mod_lt _ (Nat.succ_pos 15)

/-- Where the word stands that `crcNibble` takes from the table. -/
def crcPlace (crc : UInt16) (nibble : UInt8) : Fin 16 :=
  ⟨((nibble ^^^ crc.toUInt8) &&& 0x0f).toNat % 16, lowNibble_mod_lt crc nibble⟩

theorem crcNibble_eq (crc : UInt16) (nibble : UInt8) :
    crcNibble crc nibble = crcTable.get (crcPlace crc nibble) ^^^ crc >>> 4 := rfl

theorem val_crcPlace (crc : UInt16) (nibble : UInt8) :
    (crcPlace crc nibble).val = nibble.toNat % 16 ^^^ crc.toNat % 16 := by
  have hmask : (0x0f : UInt8).toNat = 2 ^ 4 - 1 := rfl
  have hbyte : crc.toNat % 256 % 2 ^ 4 = crc.toNat % 16 := Nat.mod_mod_of_dvd _ (by decide)
  have hval : (crcPlace crc nibble).val = ((nibble ^^^ crc.toUInt8) &&& 0x0f).toNat % 2 ^ 4 := rfl
  rw [hval, UInt8.toNat_and, hmask, Nat.and_two_pow_sub_one_eq_mod, Nat.mod_mod, UInt8.toNat_xor,
    Nat.xor_mod_two_pow, UInt16.toNat_toUInt8, hbyte]

theorem crcTable_top : ∀ i j : Fin 16,
    crcTable.get i >>> 12 = crcTable.get j >>> 12 → i = j := by decide

theorem shiftRight_four_shiftRight_twelve (crc : UInt16) : crc >>> 4 >>> 12 = 0 := by
  apply UInt16.toNat_inj.1
  have hcrc : crc.toNat < 65536 := crc.toNat_lt
  have h4 : (4 : UInt16).toNat % 16 = 4 := rfl
  have h12 : (12 : UInt16).toNat % 16 = 12 := rfl
  rw [UInt16.toNat_shiftRight, UInt16.toNat_shiftRight, h4, h12, Nat.shiftRight_eq_div_pow,
    Nat.shiftRight_eq_div_pow]
  show crc.toNat / 16 / 4096 = 0
  omega

theorem crcNibble_shiftRight (crc : UInt16) (nibble : UInt8) :
    crcNibble crc nibble >>> 12 = crcTable.get (crcPlace crc nibble) >>> 12 := by
  rw [crcNibble_eq, UInt16.shiftRight_xor, shiftRight_four_shiftRight_twelve, UInt16.xor_zero]

theorem crcNibble_inj (h : crcNibble crc nibble = crcNibble crc' nibble') :
    crcPlace crc nibble = crcPlace crc' nibble' ∧ crc >>> 4 = crc' >>> 4 := by
  have hplace : crcPlace crc nibble = crcPlace crc' nibble' := by
    apply crcTable_top
    rw [← crcNibble_shiftRight, ← crcNibble_shiftRight, h]
  rw [crcNibble_eq, crcNibble_eq, hplace] at h
  exact ⟨hplace, (UInt16.xor_right_inj _).1 h⟩

theorem crcNibble_crc_inj (h : crcNibble crc nibble = crcNibble crc' nibble) : crc = crc' := by
  obtain ⟨hplace, hhigh⟩ := crcNibble_inj h
  have hlow : crc.toNat % 16 = crc'.toNat % 16 := by
    have hval := congrArg Fin.val hplace
    rw [val_crcPlace, val_crcPlace] at hval
    exact Nat.xor_right_inj.1 hval
  have hdiv : crc.toNat / 16 = crc'.toNat / 16 := by
    have hnat := congrArg UInt16.toNat hhigh
    simp only [UInt16.toNat_shiftRight, Nat.shiftRight_eq_div_pow] at hnat
    exact hnat
  apply UInt16.toNat_inj.1
  omega

theorem nibble_eq_of_crcPlace_eq (h : crcPlace crc nibble = crcPlace crc nibble') :
    nibble.toNat % 16 = nibble'.toNat % 16 := by
  have hval := congrArg Fin.val h
  rw [val_crcPlace, val_crcPlace] at hval
  exact Nat.xor_left_inj.1 hval

end Nibble

/-! ### Bytes -/

section Registers

variable {crc crc' : UInt16} {byte byte' : UInt8}

theorem crcByte_crc_inj (h : crcByte crc byte = crcByte crc' byte) : crc = crc' :=
  crcNibble_crc_inj (crcNibble_crc_inj h)

/-- The register after the low four bits still shows its table word: what is shifted in next
leaves the words' highest bits four places further down. -/
theorem crcByte_byte_inj (h : crcByte crc byte = crcByte crc byte') : byte = byte' := by
  obtain ⟨hhigh, hshift⟩ := crcNibble_inj h
  have hlow : crcPlace crc byte = crcPlace crc byte' := by
    apply crcTable_top
    rw [← crcNibble_shiftRight, ← crcNibble_shiftRight]
    have h8 := congrArg (· >>> (8 : UInt16)) hshift
    have hsum : ∀ w : UInt16, w >>> 4 >>> 8 = w >>> 12 := by
      intro w
      apply UInt16.toNat_inj.1
      simp only [UInt16.toNat_shiftRight, Nat.shiftRight_eq_div_pow]
      exact Nat.div_div_eq_div_mul _ _ _
    simp only [hsum] at h8
    exact h8
  have hstate : crcNibble crc byte = crcNibble crc byte' := by
    rw [crcNibble_eq, crcNibble_eq, hlow]
  rw [hstate] at hhigh
  have hmod := nibble_eq_of_crcPlace_eq hlow
  have hdiv := nibble_eq_of_crcPlace_eq hhigh
  have hbyte : byte.toNat < 256 := byte.toNat_lt
  have hbyte' : byte'.toNat < 256 := byte'.toNat_lt
  simp only [UInt8.toNat_shiftRight, Nat.shiftRight_eq_div_pow] at hdiv
  have hdiv' : byte.toNat / 16 % 16 = byte'.toNat / 16 % 16 := hdiv
  apply UInt8.toNat_inj.1
  omega

end Registers

theorem foldl_crcByte_inj (bytes : Bytes) {crc crc' : UInt16}
    (h : bytes.foldl crcByte crc = bytes.foldl crcByte crc') : crc = crc' := by
  induction bytes generalizing crc crc' with
  | nil => exact h
  | cons byte rest ih => exact crcByte_crc_inj (ih h)

theorem foldl_crcByte_set_ne (bytes : Bytes) (crc : UInt16) {i : Nat} {old byte : UInt8}
    (hold : bytes[i]? = some old) (hne : byte ≠ old) :
    (bytes.set i byte).foldl crcByte crc ≠ bytes.foldl crcByte crc := by
  induction bytes generalizing crc i with
  | nil => cases hold
  | cons first rest ih =>
    cases i with
    | zero =>
      obtain rfl := Option.some.inj hold
      intro heq
      exact hne (crcByte_byte_inj (foldl_crcByte_inj rest heq))
    | succ i => exact ih (crcByte crc first) hold

/-! ### Frames -/

/-- A changed byte of a string is a changed byte of its exchanged words. -/
theorem swapPairs_set (bytes : Bytes) (i : Nat) (byte : UInt8) :
    ∃ k, swapPairs (bytes.set i byte) = (swapPairs bytes).set k byte ∧
      (swapPairs bytes)[k]? = bytes[i]? := by
  fun_induction swapPairs bytes generalizing i with
  | case1 a b rest ih =>
    rcases i with _ | _ | i
    · exact ⟨1, rfl, rfl⟩
    · exact ⟨0, rfl, rfl⟩
    · obtain ⟨k, hset, hold⟩ := ih i
      refine ⟨k + 2, ?_, hold⟩
      simp only [List.set_cons_succ, swapPairs, hset]
  | case2 rest h =>
    refine ⟨i, ?_, rfl⟩
    rcases rest with _ | ⟨a, _ | ⟨b, tail⟩⟩
    · rfl
    · cases i with
      | zero => rfl
      | succ i => rfl
    · exact absurd rfl (h a b tail)

theorem frameChecksum_set_ne {bytes : Bytes} {i : Nat} {old byte : UInt8}
    (hold : bytes[i]? = some old) (hne : byte ≠ old) :
    frameChecksum (bytes.set i byte) ≠ frameChecksum bytes := by
  obtain ⟨k, hset, hk⟩ := swapPairs_set bytes i byte
  rw [frameChecksum, frameChecksum, hset]
  exact foldl_crcByte_set_ne (swapPairs bytes) 0xFFFF (hk.trans hold) hne

/-! ### Sealed frames -/

theorem isSealed_append_pair (bytes : Bytes) (hi lo : UInt8) :
    isSealed (bytes ++ [hi, lo]) = (frameChecksum bytes == Bytes.be16 hi lo) := by
  have hlen : (bytes ++ [hi, lo]).length = bytes.length + 2 := List.length_append
  have htwo : decide (2 ≤ bytes.length + 2) = true := decide_eq_true (Nat.le_add_left _ _)
  have hlast : bytes.length + 2 - 1 = bytes.length + 1 := rfl
  have htrailer : trailer (bytes ++ [hi, lo]) = Bytes.be16 hi lo := by
    rw [trailer, hlen, Nat.add_sub_cancel, hlast, List.getD_eq_getElem?_getD,
      List.getD_eq_getElem?_getD, List.getElem?_append_right (Nat.le_refl _),
      List.getElem?_append_right (Nat.le_add_right _ 1), Nat.sub_self, Nat.add_sub_cancel_left]
    rfl
  rw [isSealed, htrailer, hlen, htwo, Nat.add_sub_cancel, List.take_left, Bool.true_and]

theorem sealed_eq (bytes : Bytes) :
    sealed bytes =
      bytes ++ [(frameChecksum bytes >>> 8).toUInt8, (frameChecksum bytes).toUInt8] := rfl

/-- No sealed frame is one byte away from another. -/
theorem isSealed_sealed_set {bytes : Bytes} {i : Nat} {old byte : UInt8}
    (hold : (sealed bytes)[i]? = some old) (hne : byte ≠ old) :
    isSealed ((sealed bytes).set i byte) = false := by
  have hcrc := Bytes.be16_ofBE16 (frameChecksum bytes)
  rw [sealed_eq] at hold ⊢
  by_cases hi : i < bytes.length
  · rw [List.set_append_left i byte hi, isSealed_append_pair, hcrc, beq_eq_false_iff_ne]
    rw [List.getElem?_append_left hi] at hold
    exact frameChecksum_set_ne hold hne
  · obtain ⟨k, rfl⟩ := Nat.exists_eq_add_of_le (Nat.le_of_not_lt hi)
    rw [List.getElem?_append_right (Nat.le_add_right _ _), Nat.add_sub_cancel_left] at hold
    rw [List.set_append_right _ byte (Nat.le_add_right _ _), Nat.add_sub_cancel_left]
    match k with
    | 0 =>
      obtain rfl := Option.some.inj hold
      rw [List.set_cons_zero, isSealed_append_pair, beq_eq_false_iff_ne]
      intro heq
      exact hne (Bytes.be16_inj (hcrc.trans heq)).1.symm
    | 1 =>
      obtain rfl := Option.some.inj hold
      rw [List.set_cons_succ, List.set_cons_zero, isSealed_append_pair, beq_eq_false_iff_ne]
      intro heq
      exact hne (Bytes.be16_inj (hcrc.trans heq)).2.symm
    | k + 2 => cases hold

end HashBoard.Wire
