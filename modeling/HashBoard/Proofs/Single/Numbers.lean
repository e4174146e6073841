import HashBoard.Single.Basic
import Mathlib.Algebra.Group.Nat.Defs

/-!
# Operations that give numbers

A conversion from a whole number gives a number, and so does arithmetic with an operand that is
neither zero nor infinite. Readings of known sensors are computed by such operations only.
-/

namespace HashBoard.Single

open Float.Model (Format UnpackedFloat totalExponent)
open Float.Model.UnpackedFloat (Accuracy ExtendedMantissa Sign roundWithAccuracy
  shiftToTargetExponent unpackExponent unpackMantissa unpackExponent_packComponents
  unpackMantissa_packComponents)

/-! ### Rounding -/

theorem mantissa_shiftRight (m : ExtendedMantissa) (k : Nat) :
    (m >>> k).mantissa = m.mantissa / 2 ^ k := by
  induction k with
  | zero => exact (Nat.div_one _).symm
  | succ k ih =>
    show (m >>> k).mantissa / 2 = _
    rw [ih, Nat.div_div_eq_div_mul, Nat.pow_succ]

/-- A mantissa is shifted from its exponent up to the target. -/
theorem shiftToTarget_eq {spec : Format} (mantissa : Nat) {exponent target : Int}
    (accuracy : Accuracy) (htarget : spec.targetExponent (totalExponent mantissa exponent) = target)
    (h : exponent ≤ target) :
    shiftToTargetExponent spec mantissa exponent accuracy =
      (ExtendedMantissa.ofMantissaAndAccuracy mantissa accuracy >>> (target - exponent).toNat,
        target) := by
  have hsum : exponent + ((target - exponent).toNat : Int) = target := by omega
  unfold shiftToTargetExponent UnpackedFloat.shiftToExponent
  rw [htarget]
  dsimp only
  rw [hsum]

theorem roundedMantissa_bounds (em : ExtendedMantissa) :
    em.mantissa ≤ em.roundedMantissa ∧ em.roundedMantissa ≤ em.mantissa + 1 := by
  obtain ⟨mantissa, half, sticky⟩ := em
  cases half <;> cases sticky <;>
    simp only [ExtendedMantissa.roundedMantissa, ExtendedMantissa.accuracy,
      Accuracy.roundToNearestEven] <;>
    omega

theorem isNaN_dite {p : Prop} [Decidable p] {u : p → UnpackedFloat} {v : ¬p → UnpackedFloat}
    (hu : ∀ h, (u h).isNaN = false) (hv : ∀ h, (v h).isNaN = false) :
    (dite p u v).isNaN = false := by
  by_cases h : p
  · rw [dif_pos h]
    exact hu h
  · rw [dif_neg h]
    exact hv h

theorem isNaN_ite {p : Prop} [Decidable p] {u v : UnpackedFloat} (hu : u.isNaN = false)
    (hv : v.isNaN = false) : (ite p u v).isNaN = false := by
  split
  · exact hu
  · exact hv

theorem isNaN_roundWithAccuracy (spec : Format) (sign : Sign) (mantissa : Nat) (exponent : Int)
    (accuracy : Accuracy) :
    (roundWithAccuracy spec sign mantissa exponent accuracy).isNaN = false := by
  unfold roundWithAccuracy
  exact isNaN_dite (fun _ => rfl) fun _ => rfl

theorem isNaN_normalize (spec : Format) (mantissa exponent : Int) (zeroSign : Sign) :
    (UnpackedFloat.normalize spec mantissa exponent zeroSign).isNaN = false := by
  unfold UnpackedFloat.normalize
  split
  · exact isNaN_roundWithAccuracy _ _ _ _ _
  · rfl
  · exact isNaN_roundWithAccuracy _ _ _ _ _

theorem isNaN_neg_unpacked {u : UnpackedFloat} (h : u.isNaN = false) : u.neg.isNaN = false := by
  cases u with
  | notANumber => cases h
  | _ => rfl

/-! ### Arithmetic on unpacked numbers -/

def isProperUnpacked : UnpackedFloat → Bool
  | .finite .. => true
  | _ => false

theorem finite_of_isProperUnpacked {u : UnpackedFloat} (h : isProperUnpacked u = true) :
    ∃ sign mantissa exponent hpos, u = .finite sign mantissa exponent hpos := by
  cases u with
  | finite sign mantissa exponent hpos => exact ⟨sign, mantissa, exponent, hpos, rfl⟩
  | _ => cases h

theorem sign_apply_neg (sign : Sign) (i : Int) : (-sign).apply i = -sign.apply i := by
  cases sign with
  | positive => rfl
  | negative => exact (Int.neg_neg i).symm

/-- A difference is the sum with the negative. -/
theorem sub_eq_add_neg_unpacked (spec : Format) (u v : UnpackedFloat) :
    UnpackedFloat.sub spec u v = UnpackedFloat.add spec u v.neg := by
  cases u with
  | notANumber => rfl
  | infinity s => cases v <;> rfl
  | zero s => cases v <;> rfl
  | finite s m d hm =>
    cases v with
    | finite t n e hn =>
      unfold UnpackedFloat.sub UnpackedFloat.add UnpackedFloat.neg
      dsimp only
      rw [sign_apply_neg, Int.sub_eq_add_neg]
    | _ => rfl

section

variable (spec : Format) {u v : UnpackedFloat}

theorem isNaN_add_unpacked (hu : u.isFinite = true) (hv : v.isNaN = false) :
    (UnpackedFloat.add spec u v).isNaN = false := by
  cases u with
  | zero s =>
    cases v with
    | notANumber => cases hv
    | zero t => cases s <;> cases t <;> rfl
    | _ => rfl
  | finite s m d hm =>
    cases v with
    | notANumber => cases hv
    | finite t n e hn => exact isNaN_normalize _ _ _ _
    | _ => rfl
  | _ => cases hu

theorem isNaN_mul_left (hu : isProperUnpacked u = true) (hv : v.isNaN = false) :
    (UnpackedFloat.mul spec u v).isNaN = false := by
  obtain ⟨sign, mantissa, exponent, hpos, rfl⟩ := finite_of_isProperUnpacked hu
  cases v with
  | notANumber => cases hv
  | finite t n e hn => exact isNaN_roundWithAccuracy _ _ _ _ _
  | _ => rfl

theorem isNaN_mul_unpacked (hu : u.isNaN = false) (hv : isProperUnpacked v = true) :
    (UnpackedFloat.mul spec u v).isNaN = false := by
  obtain ⟨sign, mantissa, exponent, hpos, rfl⟩ := finite_of_isProperUnpacked hv
  cases u with
  | notANumber => cases hu
  | finite s m e hm => exact isNaN_roundWithAccuracy _ _ _ _ _
  | _ => rfl

theorem isNaN_div_unpacked (hu : u.isNaN = false) (hv : isProperUnpacked v = true) :
    (UnpackedFloat.div spec u v).isNaN = false := by
  obtain ⟨sign, mantissa, exponent, hpos, rfl⟩ := finite_of_isProperUnpacked hv
  cases u with
  | notANumber => cases hu
  | finite s m e hm => exact isNaN_roundWithAccuracy _ _ _ _ _
  | _ => rfl

end

theorem isNaN_ofScientific_unpacked (spec : Format) (m : Nat) (e : Int) :
    (UnpackedFloat.ofScientific spec m e).isNaN = false := by
  unfold UnpackedFloat.ofScientific
  refine isNaN_dite (fun _ => rfl) fun _ => isNaN_ite rfl (isNaN_ite rfl (isNaN_ite ?_ ?_))
  · exact isNaN_mul_unpacked spec rfl rfl
  · exact isNaN_div_unpacked spec rfl rfl

/-! ### Packing -/

theorem isNaN_unpack {spec : Format} {b : BitVec spec.numBits}
    (h : @unpackExponent spec b = -1#_ → @unpackMantissa spec b = 0#_) :
    (UnpackedFloat.unpack spec b).isNaN = false := by
  unfold UnpackedFloat.unpack
  by_cases hlast : @unpackExponent spec b = -1#_
  · rw [if_pos hlast, if_pos (h hlast)]
    rfl
  · rw [if_neg hlast]
    by_cases hfirst : @unpackExponent spec b = 0#_
    · rw [if_pos hfirst]
      exact isNaN_dite (fun _ => rfl) fun _ => rfl
    · rw [if_neg hfirst]
      rfl

theorem ofNat_ne_last {bits n : Nat} (h : n < (BitVec.allOnes bits).toNat) :
    BitVec.ofNat bits n ≠ -1#_ := by
  intro hlast
  have hvalue := congrArg BitVec.toNat hlast
  rw [BitVec.neg_one_eq_allOnes, BitVec.toNat_ofNat] at hvalue
  exact Nat.ne_of_lt (Nat.lt_of_le_of_lt (Nat.mod_le _ _) h) hvalue

/-- A number that is rounded and packed is still a number. -/
theorem isNaN_unpack_pack (spec : Format) {u : UnpackedFloat} (h : u.isNaN = false) :
    (UnpackedFloat.unpack spec (UnpackedFloat.pack spec u)).isNaN = false := by
  apply isNaN_unpack
  cases u with
  | notANumber => cases h
  | infinity sign => exact fun _ => unpackMantissa_packComponents
  | zero sign => exact fun _ => unpackMantissa_packComponents
  | finite sign mantissa exponent hpos =>
    unfold UnpackedFloat.pack
    dsimp only
    split
    · exact fun _ => unpackMantissa_packComponents
    · -- An exponent out of range became infinity, so the one packed here is not the last.
      rename_i hexponent
      split
      · rw [unpackExponent_packComponents]
        refine fun hlast => absurd hlast (ofNat_ne_last ?_)
        rw [BitVec.toNat_allOnes]
        exact Nat.lt_sub_of_add_lt (Nat.lt_of_not_le hexponent)
      · rw [unpackExponent_packComponents]
        refine fun hlast => absurd hlast (ofNat_ne_last ?_)
        rw [BitVec.toNat_allOnes]
        exact Nat.sub_pos_of_lt (Nat.one_lt_two_pow (Nat.pos_iff_ne_zero.1 spec.he))

theorem isNaN_pack {u : UnpackedFloat} (h : u.isNaN = false) :
    (Float32.ofModel (Float32.Model.pack u)).isNaN = false :=
  isNaN_unpack_pack Format.binary32 h

/-! ### Conversions and arithmetic -/

theorem isNaN_ofUInt16 (n : UInt16) : n.toFloat32.isNaN = false :=
  isNaN_pack (isNaN_normalize _ _ _ _)

theorem isNaN_ofNat (n : Nat) : (ofNat n).isNaN = false :=
  isNaN_pack (isNaN_normalize _ _ _ _)

def isProper (x : Float32) : Bool := isProperUnpacked x.toModel.unpack

variable {a b : Float32}

theorem cases_of_isFinite (h : a.isFinite = true) :
    (∃ sign, a.toModel.unpack = .zero sign) ∨
      ∃ sign mantissa exponent hpos, a.toModel.unpack = .finite sign mantissa exponent hpos := by
  change a.toModel.unpack.isFinite = true at h
  cases hu : a.toModel.unpack with
  | zero sign => exact .inl ⟨sign, rfl⟩
  | finite sign mantissa exponent hpos => exact .inr ⟨sign, mantissa, exponent, hpos, rfl⟩
  | _ =>
    rw [hu] at h
    cases h

theorem isNaN_of_isFinite (h : a.isFinite = true) : a.isNaN = false := by
  show a.toModel.unpack.isNaN = false
  rcases cases_of_isFinite h with ⟨s, hu⟩ | ⟨s, m, d, hm, hu⟩
  · rw [hu]
    rfl
  · rw [hu]
    rfl

theorem isNaN_add (ha : a.isFinite = true) (hb : b.isNaN = false) : (a + b).isNaN = false :=
  isNaN_pack (isNaN_add_unpacked Format.binary32 ha hb)

theorem isNaN_sub (ha : a.isFinite = true) (hb : b.isNaN = false) : (a - b).isNaN = false := by
  apply isNaN_pack
  rw [sub_eq_add_neg_unpacked]
  exact isNaN_add_unpacked Format.binary32 ha (isNaN_neg_unpacked hb)

theorem isNaN_mul (ha : isProper a = true) (hb : b.isNaN = false) : (a * b).isNaN = false :=
  isNaN_pack (isNaN_mul_left Format.binary32 ha hb)

theorem isNaN_mul_right (ha : a.isNaN = false) (hb : isProper b = true) : (a * b).isNaN = false :=
  isNaN_pack (isNaN_mul_unpacked Format.binary32 ha hb)

theorem isNaN_div (ha : a.isNaN = false) (hb : isProper b = true) : (a / b).isNaN = false :=
  isNaN_pack (isNaN_div_unpacked Format.binary32 ha hb)

theorem isNaN_neg (ha : a.isNaN = false) : (-a).isNaN = false :=
  isNaN_pack (isNaN_neg_unpacked ha)

theorem isProper_smallPower : ∀ e : Fin Float32.exactlyRepresentablePowersOfTen.size,
    isProper Float32.exactlyRepresentablePowersOfTen[e] = true := by
  decide +kernel

theorem isNaN_ofScientific (m : Nat) (down : Bool) (e : Nat) :
    (Float32.ofScientific m down e).isNaN = false := by
  unfold Float32.ofScientific
  split
  · rename_i hsmall
    have hproper := isProper_smallPower ⟨e, Nat.lt_succ_of_le hsmall.2⟩
    have hnumber : m.toUInt64.toFloat32.isNaN = false := isNaN_pack (isNaN_normalize _ _ _ _)
    dsimp only
    split
    · exact isNaN_div hnumber hproper
    · exact isNaN_mul_right hnumber hproper
  · exact isNaN_pack (isNaN_ofScientific_unpacked _ _ _)

theorem isNaN_narrow {x : Float} (h : x.isNaN = false) : (narrow x).isNaN = false := by
  apply isNaN_pack
  change x.toModel.unpack.isNaN = false at h
  cases hu : x.toModel.unpack with
  | finite sign mantissa exponent hpos => exact isNaN_roundWithAccuracy _ _ _ _ _
  | notANumber =>
    rw [hu] at h
    cases h
  | _ => rfl

end HashBoard.Single
