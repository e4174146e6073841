import HashBoard.Json.Decode
import HashBoard.Proofs.Single.Numbers
import Mathlib.Algebra.Group.Nat.Defs

/-!
# JSON numbers are numbers

The value of a number in JSON text is a number in single precision: no numeral reads as NaN. The
digits that were gathered are scaled by powers of ten, and in double precision all of these are
neither zero nor infinite.
-/

namespace HashBoard.Json

open Float.Model (Format UnpackedFloat totalExponent)
open Float.Model.UnpackedFloat (Sign roundWithAccuracy
  shiftToTargetExponent unpackExponent_packComponents)

/-! ### Rounding to double precision -/

namespace Double

def isProper (x : Float) : Bool := Single.isProperUnpacked x.toModel.unpack

theorem log2_div_pow {m k : Nat} (h : m.log2 = 52 + k) : (m / 2 ^ k).log2 = 52 := by
  have hm : m ≠ 0 := by
    rintro rfl
    rw [Nat.log2_zero] at h
    omega
  obtain ⟨hlow, hhigh⟩ := (Nat.log2_eq_iff hm).1 h
  have hfloor : 2 ^ 52 ≤ m / 2 ^ k := by
    rw [Nat.le_div_iff_mul_le (Nat.two_pow_pos k), ← Nat.pow_add]
    exact hlow
  refine (Nat.log2_eq_iff (by omega)).2 ⟨hfloor, ?_⟩
  rw [Nat.div_lt_iff_lt_mul (Nat.two_pow_pos k), ← Nat.pow_add]
  rw [Nat.add_right_comm]
  exact hhigh

variable {m k : Nat} {e : Int}

/-- A mantissa with `k` bits too many loses them, when the exponent does not get too small. -/
theorem shift_normal (hlog : m.log2 = 52 + k) (hmin : -1074 ≤ e + k) :
    (shiftToTargetExponent Format.binary64 m e .exact).1.mantissa = m / 2 ^ k ∧
      (shiftToTargetExponent Format.binary64 m e .exact).2 = e + k := by
  have htarget : Format.binary64.targetExponent (totalExponent m e) = e + k := by
    show max ((m.log2 : Int) + 1 + e - 53) (-1074) = e + k
    rw [hlog]
    omega
  have hamount : (e + k - e).toNat = k := by omega
  rw [Single.shiftToTarget_eq m .exact htarget (by omega), hamount]
  exact ⟨Single.mantissa_shiftRight _ k, rfl⟩

theorem round_normal (sign : Sign) (hlog : m.log2 = 52 + k) (hmin : -1074 ≤ e + k) :
    ∃ mantissa exponent hpos,
      roundWithAccuracy Format.binary64 sign m e .exact = .finite sign mantissa exponent hpos ∧
        mantissa.log2 = 52 ∧ e + k ≤ exponent ∧ exponent ≤ e + k + 1 := by
  obtain ⟨hmantissa, hexponent⟩ := shift_normal hlog hmin
  unfold roundWithAccuracy
  generalize shiftToTargetExponent Format.binary64 m e .exact = shifted at *
  obtain ⟨first, exponent⟩ := shifted
  dsimp only at hmantissa hexponent ⊢
  subst hexponent
  have hbounds := Single.roundedMantissa_bounds first
  rw [hmantissa] at hbounds
  have hfloor := log2_div_pow hlog
  have hpos : m / 2 ^ k ≠ 0 := by
    intro hzero
    rw [hzero] at hfloor
    simp at hfloor
  obtain ⟨hlow, hhigh⟩ := (Nat.log2_eq_iff hpos).1 hfloor
  -- Rounding up may carry into one more bit, which a second shift takes off.
  obtain ⟨carry, hcarry, hrounded⟩ : ∃ carry ≤ 1, first.roundedMantissa.log2 = 52 + carry := by
    by_cases hsame : first.roundedMantissa < 2 ^ 53
    · exact ⟨0, Nat.zero_le _, (Nat.log2_eq_iff (by omega)).2 ⟨by omega, hsame⟩⟩
    · exact ⟨1, Nat.le_refl _, (Nat.log2_eq_iff (by omega)).2 ⟨by omega, by omega⟩⟩
  obtain ⟨hfinal, hlast⟩ := shift_normal (e := e + k) hrounded (by omega)
  generalize shiftToTargetExponent Format.binary64 first.roundedMantissa (e + k) .exact =
    shifted at *
  obtain ⟨final, last⟩ := shifted
  dsimp only at hfinal hlast ⊢
  have hfinalLog : final.mantissa.log2 = 52 := by
    rw [hfinal]
    exact log2_div_pow hrounded
  have hfinalPos : final.mantissa ≠ 0 := by
    intro hzero
    rw [hzero] at hfinalLog
    simp at hfinalLog
  rw [dif_neg hfinalPos]
  exact ⟨_, _, _, rfl, hfinalLog, by omega, by omega⟩

theorem isProper_pack {sign : Sign} (hpos : 0 < m) (hlog : m.log2 = 52) {biased : Nat}
    (hbiased : e + 1075 = biased) (hmin : 0 < biased) (hmax : biased < 2047) :
    isProper (.ofModel (.pack (.finite sign m e hpos))) = true := by
  have hexponent : (e + (Format.binary64.exponentBias : Int) + (52 : Nat)).toNat = biased := by
    show (e + (1023 : Nat) + (52 : Nat)).toNat = biased
    omega
  have hlast : BitVec.ofNat 11 biased ≠ -1#11 := Single.ofNat_ne_last hmax
  have hfirst : BitVec.ofNat 11 biased ≠ 0#11 := by
    intro hzero
    have hvalue := congrArg BitVec.toNat hzero
    rw [BitVec.toNat_ofNat, Nat.mod_eq_of_lt (by omega)] at hvalue
    exact Nat.ne_of_gt hmin hvalue
  have hbits : m.log2 + 1 = Format.binary64.mantissaBits := congrArg (· + 1) hlog
  have hpack : UnpackedFloat.pack Format.binary64 (.finite sign m e hpos) =
      UnpackedFloat.packComponents Format.binary64 sign (BitVec.ofNat 11 biased)
        (BitVec.ofNat 52 m) := by
    unfold UnpackedFloat.pack
    dsimp only
    rw [hexponent, if_neg (show ¬2 ^ 11 ≤ biased + 1 by omega), if_pos hbits]
  show Single.isProperUnpacked (UnpackedFloat.unpack Format.binary64
    (UnpackedFloat.pack Format.binary64 (.finite sign m e hpos))) = true
  rw [hpack]
  unfold UnpackedFloat.unpack
  dsimp only
  rw [unpackExponent_packComponents, if_neg hlast, if_neg hfirst]
  rfl

/-! ### Powers of ten -/

theorem log2_two_pow_mul {b : Nat} (hm : m ≠ 0) : (2 ^ b * m).log2 = b + m.log2 := by
  obtain ⟨hlow, hhigh⟩ := (Nat.log2_eq_iff hm).1 rfl
  refine (Nat.log2_eq_iff (Nat.mul_ne_zero (Nat.ne_of_gt (Nat.two_pow_pos b)) hm)).2 ⟨?_, ?_⟩
  · rw [Nat.pow_add]
    exact Nat.mul_le_mul_left _ hlow
  · rw [Nat.add_assoc, Nat.pow_add]
    exact Nat.mul_lt_mul_of_pos_left hhigh (Nat.two_pow_pos b)

theorem powerOfTen_eq {n : Nat} (hlow : 22 < n) (hhigh : n ≤ 2048) :
    Numeral.powerOfTen n = .ofModel (.pack
      (roundWithAccuracy Format.binary64 .positive (2 ^ 53 * 10 ^ n) (-53) .exact)) := by
  have htable : ¬(1 < 2 ^ 53 ∧ n ≤ 22) := by omega
  have hnone : ¬(n : Int) > 2 ^ 11 := by omega
  have hsmall : ¬(n : Int) < -((2 ^ 11 : Int) + (1 : Nat).log2) := by omega
  have hscientific : UnpackedFloat.ofScientific Format.binary64 1 (n : Int) =
      roundWithAccuracy Format.binary64 .positive (2 ^ 53 * 10 ^ n) (-53) .exact := by
    unfold UnpackedFloat.ofScientific
    rw [dif_neg Nat.one_ne_zero, if_neg hnone, if_neg hsmall, if_pos (Int.natCast_nonneg n)]
    show roundWithAccuracy Format.binary64 .positive (1 <<< 53 * 10 ^ n) (-53 + 0) .exact = _
    rw [Nat.one_shiftLeft, Int.add_zero]
  show Float.ofScientific 1 false n = _
  unfold Float.ofScientific
  rw [dif_neg htable]
  exact congrArg (fun u => Float.ofModel (.pack u)) hscientific

theorem isProper_powerOfTen {n : Nat} (h : n ≤ 308) :
    isProper (Numeral.powerOfTen n) = true := by
  by_cases hsmall : n ≤ 22
  · have htable : ∀ n < 23, isProper (Numeral.powerOfTen n) = true := by decide +kernel
    exact htable n (by omega)
  · by_cases hlarge : n = 308
    · -- The bound on the exponent below leaves room for a carry, which this one does not have.
      subst hlarge
      decide +kernel
    · have hne : 10 ^ n ≠ 0 := Nat.ne_of_gt (Nat.pow_pos (by decide))
      have hlog : (2 ^ 53 * 10 ^ n).log2 = 52 + ((10 ^ n).log2 + 1) := by
        rw [log2_two_pow_mul hne]
        omega
      have hmax : (10 ^ n).log2 < 1020 := by
        refine (Nat.log2_lt hne).2 ?_
        calc 10 ^ n ≤ 10 ^ 307 := Nat.pow_le_pow_right (by decide) (by omega)
          _ < 2 ^ 1020 := by decide +kernel
      obtain ⟨mantissa, exponent, hpos, hround, hfinal, hlow, hhigh⟩ :=
        round_normal .positive hlog (by omega : (-1074 : Int) ≤ -53 + ((10 ^ n).log2 + 1 : Nat))
      rw [powerOfTen_eq (by omega) (by omega), hround]
      have hbiased : exponent + 1075 = ((exponent + 1075).toNat : Nat) := by omega
      exact isProper_pack hpos hfinal hbiased (by omega) (by omega)

/-! ### Arithmetic -/

theorem isNaN_pack {u : UnpackedFloat} (h : u.isNaN = false) :
    (Float.ofModel (.pack u)).isNaN = false :=
  Single.isNaN_unpack_pack Format.binary64 h

theorem isNaN_ofWord (n : UInt64) : n.toFloat.isNaN = false :=
  isNaN_pack (Single.isNaN_normalize _ _ _ _)

theorem isNaN_neg {x : Float} (hx : x.isNaN = false) : (-x).isNaN = false :=
  isNaN_pack (Single.isNaN_neg_unpacked hx)

end Double

/-! ### Numerals -/

namespace Numeral

open Double

theorem isNaN_scale {x y : Float} {power : Int} {steps : Nat} (hx : x.isNaN = false)
    (h : scale x power steps = some y) : y.isNaN = false := by
  induction steps generalizing x power with
  | zero => exact Option.some.inj h ▸ hx
  | succ steps ih =>
    unfold scale at h
    split at h
    · rename_i hrange
      have hpower := isProper_powerOfTen hrange
      split at h
      · dsimp only at h
        split at h
        · cases h
        · exact Option.some.inj h ▸ isNaN_pack (Single.isNaN_mul_unpacked _ hx hpower)
      · exact Option.some.inj h ▸ isNaN_pack (Single.isNaN_div_unpacked _ hx hpower)
    · split at h
      · exact Option.some.inj h ▸ hx
      · split at h
        · cases h
        · have hlast := isProper_powerOfTen (Nat.le_refl 308)
          exact ih (isNaN_pack (Single.isNaN_div_unpacked _ hx hlast)) h

theorem isNaN_real {n : Numeral} {x : Float} (h : n.real? = some x) : x.isNaN = false := by
  unfold real? at h
  obtain ⟨magnitude, hmagnitude, hsign⟩ := Option.map_eq_some_iff.1 h
  have hnumber : magnitude.isNaN = false := by
    split at hmagnitude
    · exact isNaN_scale (isNaN_ofWord _) hmagnitude
    · dsimp only at hmagnitude
      split at hmagnitude
      · split at hmagnitude
        · cases hmagnitude
        · rw [← Option.some.inj hmagnitude]
          decide +kernel
      · exact isNaN_scale (isNaN_ofWord _) hmagnitude
  rw [← hsign]
  split
  · exact isNaN_neg hnumber
  · exact hnumber

theorem isNaN_toSingle {n : Numeral} {v : Value} (h : n.value? = some v) :
    v.toSingle.isNaN = false := by
  unfold value? at h
  dsimp only at h
  split at h
  · split at h
    · rw [← Option.some.inj h]
      exact Single.isNaN_ofNat _
    · split at h
      · rw [← Option.some.inj h]
        decide +kernel
      · split at h
        · rw [← Option.some.inj h]
          exact Single.isNaN_neg (Single.isNaN_ofNat _)
        · rw [← Option.some.inj h]
          exact Single.isNaN_narrow (isNaN_neg (isNaN_ofWord _))
  · obtain ⟨x, hx, rfl⟩ := Option.map_eq_some_iff.1 h
    exact Single.isNaN_narrow (isNaN_real hx)

end Numeral

theorem isNaN_single {j : Json} {x : Float32} (h : j.single? = some x) : x.isNaN = false := by
  cases j with
  | num n =>
    obtain ⟨v, hv, rfl⟩ := Option.map_eq_some_iff.1 h
    exact Numeral.isNaN_toSingle hv
  | _ => cases h

end HashBoard.Json
