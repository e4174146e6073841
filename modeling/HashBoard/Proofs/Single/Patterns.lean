import HashBoard.Proofs.Single.Order
import Mathlib

/-!
# Numbers from bits

Every pattern of 32 bits makes a number. The patterns of NaNs all make the same one; any other makes
the number that has these very bits, so the order of patterns is that of the numbers. Sorted, the
NaNs stand at the ends: those with a sign before all numbers, those without one after them.
-/

namespace HashBoard.Single

open Float.Model (Format)
open Float.Model.UnpackedFloat (isNaNBits packedNaN pack_unpack unpackExponent unpackMantissa
  isNaNBits_packedNaN isNaN_unpack_iff_of_valid)

variable {a b : UInt32}

theorem isNaNBits_iff (b : UInt32) :
    @isNaNBits Format.binary32 b.toBitVec = true ↔ 0x7f800000 < b.toNat % 0x80000000 := by
  have hmantissa := toNat_unpackMantissa b.toBitVec
  have hexponent := toNat_unpackExponent b.toBitVec
  have hlast : @unpackExponent Format.binary32 b.toBitVec = -1#_ ↔
      (@unpackExponent Format.binary32 b.toBitVec).toNat = 255 :=
    BitVec.toNat_inj.symm
  have hzero : @unpackMantissa Format.binary32 b.toBitVec = 0#_ ↔
      (@unpackMantissa Format.binary32 b.toBitVec).toNat = 0 :=
    BitVec.toNat_inj.symm
  unfold isNaNBits
  rw [decide_eq_true_iff, Ne, hlast, hzero, hmantissa, hexponent, UInt32.toNat_toBitVec]
  omega

theorem toBits_ofBits_eq (b : UInt32) : (Float32.ofBits b).toBits.toBitVec =
    if @isNaNBits Format.binary32 b.toBitVec then packedNaN Format.binary32 else b.toBitVec :=
  @pack_unpack Format.binary32 b.toBitVec (by decide)

theorem isNaN_ofBits (b : UInt32) :
    (Float32.ofBits b).isNaN = true ↔ 0x7f800000 < b.toNat % 0x80000000 := by
  have hvalid := @isNaN_unpack_iff_of_valid Format.binary32 _ (Float32.ofBits b).toModel.valid
    (by decide)
  rw [← isNaNBits_iff]
  refine hvalid.trans ?_
  show (Float32.ofBits b).toBits.toBitVec = packedNaN Format.binary32 ↔ _
  rw [toBits_ofBits_eq]
  by_cases hbits : @isNaNBits Format.binary32 b.toBitVec = true
  · rw [if_pos hbits]
    exact iff_of_true rfl hbits
  · rw [if_neg hbits]
    refine iff_of_false (fun hnan => hbits ?_) hbits
    rw [hnan]
    exact isNaNBits_packedNaN

/-- A pattern that is no NaN makes the number that has these bits. -/
theorem toBits_ofBits (h : (Float32.ofBits b).isNaN = false) : (Float32.ofBits b).toBits = b := by
  have hbits : ¬@isNaNBits Format.binary32 b.toBitVec = true := by
    rw [isNaNBits_iff, ← isNaN_ofBits, h]
    exact Bool.false_ne_true
  apply UInt32.toBitVec_inj.1
  rw [toBits_ofBits_eq, if_neg hbits]

theorem totalLe_ofBits (ha : (Float32.ofBits a).isNaN = false)
    (hb : (Float32.ofBits b).isNaN = false) :
    totalLe (Float32.ofBits a) (Float32.ofBits b) = bitsLe a b := by
  rw [totalLe, toBits_ofBits ha, toBits_ofBits hb]

/-! ### NaNs in order -/

/-- The pattern of a NaN without a sign. -/
def IsPositiveNaN (b : UInt32) : Prop := 0x7f800000 < b.toNat ∧ b.toNat < 0x80000000

instance (b : UInt32) : Decidable (IsPositiveNaN b) := inferInstanceAs (Decidable (_ ∧ _))

theorem IsPositiveNaN.isNaN (h : IsPositiveNaN a) : (Float32.ofBits a).isNaN = true := by
  obtain ⟨hlow, hhigh⟩ := h
  rw [isNaN_ofBits]
  omega

/-- What is sorted after a NaN without a sign is one as well. -/
theorem IsPositiveNaN.of_bitsLe (h : IsPositiveNaN a) (hab : bitsLe a b = true) :
    IsPositiveNaN b := by
  obtain ⟨hlow, hhigh⟩ := h
  have hb := b.toNat_lt
  have hkey : orderKey a ≤ orderKey b := of_decide_eq_true hab
  unfold orderKey at hkey
  simp only [if_pos hhigh] at hkey
  unfold IsPositiveNaN
  split at hkey <;> omega

/-- What is sorted after a number is a number or a NaN without a sign. -/
theorem isNaN_of_bitsLe (ha : (Float32.ofBits a).isNaN = false) (hab : bitsLe a b = true)
    (hb : ¬IsPositiveNaN b) : (Float32.ofBits b).isNaN = false := by
  rw [← Bool.not_eq_true, isNaN_ofBits] at ha ⊢
  have hlt := a.toNat_lt
  have hlt' := b.toNat_lt
  have hkey : orderKey a ≤ orderKey b := of_decide_eq_true hab
  unfold orderKey at hkey
  unfold IsPositiveNaN at hb
  dsimp only at hkey
  split at hkey <;> split at hkey <;> omega

end HashBoard.Single
