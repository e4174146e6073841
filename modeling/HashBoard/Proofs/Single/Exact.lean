import HashBoard.Proofs.Single.Largest
import Mathlib.Order.Monotone.Basic
import Mathlib.Data.Rat.Floor

/-!
# Exact values

Every finite number is a whole multiple of 2^-149. Counted in these units numbers have the order of
their ranks, and a conversion to a word takes the whole part and saturates at both ends.
-/

namespace HashBoard.Single

open Float.Model (Format UnpackedFloat)
open Float.Model.UnpackedFloat (Sign)

/-! ### Units -/

/-- The units in a number with these bits and no sign. Infinity counts as the number that would come
after the largest finite one. -/
def magnitude (bits : Nat) : Nat :=
  match bits / 0x800000 with
  | 0 => bits
  | place + 1 => (0x800000 + bits % 0x800000) * 2 ^ place

def signedMagnitude (rank : Int) : Int := rank.sign * magnitude rank.natAbs

/-- A number in units of 2^-149. -/
def units (x : Float32) : Int := signedMagnitude (rank x)

theorem magnitude_of_small {bits : Nat} (h : bits < 0x800000) : magnitude bits = bits := by
  have hplace : bits / 0x800000 = 0 := Nat.div_eq_of_lt h
  rw [magnitude, hplace]

theorem magnitude_full (place mantissa : Nat) (h : mantissa < 0x800000) :
    magnitude ((place + 1) * 0x800000 + mantissa) = (0x800000 + mantissa) * 2 ^ place := by
  have hplace : ((place + 1) * 0x800000 + mantissa) / 0x800000 = place + 1 := by omega
  have hmantissa : ((place + 1) * 0x800000 + mantissa) % 0x800000 = mantissa := by omega
  rw [magnitude, hplace, hmantissa]

/-- A mantissa in its place, or one more than the last mantissa of the place. -/
theorem magnitude_mantissa {place mantissa : Nat} (hle : mantissa ≤ 0x1000000)
    (hfull : place = 0 ∨ 0x800000 ≤ mantissa) :
    magnitude (place * 0x800000 + mantissa) = mantissa * 2 ^ place := by
  rcases Nat.lt_or_ge mantissa 0x800000 with hshort | hlong
  · obtain rfl : place = 0 := by omega
    rw [Nat.zero_mul, Nat.zero_add, magnitude_of_small hshort, Nat.pow_zero, Nat.mul_one]
  · rcases Nat.lt_or_eq_of_le hle with hlt | rfl
    · have hbits :
          place * 0x800000 + mantissa = (place + 1) * 0x800000 + (mantissa - 0x800000) := by
        omega
      rw [hbits, magnitude_full place _ (by omega), Nat.add_sub_cancel' hlong]
    · -- One more than the last mantissa of a place is the first one of the next.
      have hbits : place * 0x800000 + 0x1000000 = (place + 1 + 1) * 0x800000 + 0 := by omega
      rw [hbits, magnitude_full (place + 1) 0 (by decide), Nat.pow_succ]
      omega

theorem magnitude_lt_succ (bits : Nat) : magnitude bits < magnitude (bits + 1) := by
  obtain ⟨place, mantissa, hmantissa, hfull, rfl⟩ : ∃ place mantissa, mantissa < 0x1000000 ∧
      (place = 0 ∨ 0x800000 ≤ mantissa) ∧ bits = place * 0x800000 + mantissa :=
    ⟨bits / 0x800000 - 1, bits - (bits / 0x800000 - 1) * 0x800000, by omega, by omega, by omega⟩
  rw [Nat.add_assoc, magnitude_mantissa (Nat.le_of_lt hmantissa) hfull,
    magnitude_mantissa hmantissa (by omega)]
  exact Nat.mul_lt_mul_of_pos_right (Nat.lt_succ_self _) (Nat.two_pow_pos place)

theorem magnitude_lt {m n : Nat} (h : m < n) : magnitude m < magnitude n :=
  strictMono_nat_of_lt_succ magnitude_lt_succ h

theorem signedMagnitude_zero : signedMagnitude 0 = 0 := rfl

theorem signedMagnitude_natCast (n : Nat) : signedMagnitude n = magnitude n := by
  cases n with
  | zero => rfl
  | succ n => exact Int.one_mul _

theorem signedMagnitude_neg (i : Int) : signedMagnitude (-i) = -signedMagnitude i := by
  unfold signedMagnitude
  rw [Int.sign_neg, Int.natAbs_neg, Int.neg_mul]

theorem signedMagnitude_lt {i j : Int} (hij : i < j) : signedMagnitude i < signedMagnitude j := by
  have hzero : magnitude 0 = 0 := rfl
  obtain ⟨m, rfl | rfl⟩ := i.eq_nat_or_neg
  · obtain ⟨n, rfl⟩ := Int.eq_ofNat_of_zero_le (by omega : 0 ≤ j)
    rw [signedMagnitude_natCast, signedMagnitude_natCast]
    exact Int.ofNat_lt.2 (magnitude_lt (Int.ofNat_lt.1 hij))
  · obtain ⟨n, rfl | rfl⟩ := j.eq_nat_or_neg
    · rw [signedMagnitude_neg, signedMagnitude_natCast, signedMagnitude_natCast]
      rcases Nat.eq_zero_or_pos m with rfl | hpos
      · have hlt := magnitude_lt (by omega : 0 < n)
        omega
      · have hlt := magnitude_lt hpos
        omega
    · rw [signedMagnitude_neg, signedMagnitude_neg, signedMagnitude_natCast,
        signedMagnitude_natCast]
      have hlt := magnitude_lt (by omega : n < m)
      omega

theorem signedMagnitude_lt_iff {i j : Int} : signedMagnitude i < signedMagnitude j ↔ i < j := by
  refine ⟨fun h => ?_, signedMagnitude_lt⟩
  rcases Int.lt_trichotomy i j with hlt | rfl | hgt
  · exact hlt
  · exact absurd h (Int.lt_irrefl _)
  · exact absurd h (Int.lt_asymm (signedMagnitude_lt hgt))

theorem signedMagnitude_le {i j : Int} (h : i ≤ j) : signedMagnitude i ≤ signedMagnitude j :=
  Int.not_lt.1 fun hlt => Int.not_lt.2 h (signedMagnitude_lt_iff.1 hlt)

variable {a b x : Float32}

theorem le_iff_units_le (ha : a.isNaN = false) (hb : b.isNaN = false) :
    a ≤ b ↔ units a ≤ units b := by
  rw [le_iff_rank_le ha hb, ← Int.not_lt, ← Int.not_lt]
  exact not_congr signedMagnitude_lt_iff.symm

/-! ### Unpacked numbers -/

theorem magnitude_finite {mantissa : Nat} {exponent : Int} (hlow : -149 ≤ exponent)
    (hmantissa : mantissa < 0x1000000) (hfull : exponent = -149 ∨ 0x800000 ≤ mantissa) :
    signedMagnitude ((exponent + 149) * 0x800000 + mantissa) =
      mantissa * 2 ^ (exponent + 149).toNat := by
  obtain ⟨place, hplace⟩ := Int.eq_ofNat_of_zero_le (by omega : 0 ≤ exponent + 149)
  have hbits : (place : Int) * 0x800000 + mantissa = (place * 0x800000 + mantissa : Nat) := by
    push_cast
    rfl
  rw [hplace, Int.toNat_natCast, hbits, signedMagnitude_natCast,
    magnitude_mantissa (Nat.le_of_lt hmantissa) (by omega)]
  push_cast
  rfl

theorem signedMagnitude_apply (sign : Sign) (i : Int) :
    signedMagnitude (sign.apply i) = sign.apply (signedMagnitude i) := by
  cases sign with
  | negative => exact signedMagnitude_neg i
  | positive => rfl

theorem cast_sign_apply (sign : Sign) (i : Int) :
    ((sign.apply i : Int) : ℚ) = (sign.apply 1 : Int) * i := by
  cases sign with
  | positive => exact (one_mul _).symm
  | negative =>
    show ((-i : Int) : ℚ) = ((-1 : Int) : ℚ) * i
    push_cast
    ring

/-- The amount of units in an unpacked finite number. -/
theorem amount_finite (sign : Sign) {mantissa : Nat} {exponent : Int} (hlow : -149 ≤ exponent)
    (hmantissa : mantissa < 0x1000000) (hfull : exponent = -149 ∨ 0x800000 ≤ mantissa) :
    (signedMagnitude (sign.apply ((exponent + 149) * 0x800000 + mantissa)) : ℚ) =
      (sign.apply mantissa : Int) * 2 ^ (exponent + 149) := by
  obtain ⟨place, hplace⟩ := Int.eq_ofNat_of_zero_le (by omega : 0 ≤ exponent + 149)
  rw [signedMagnitude_apply, magnitude_finite hlow hmantissa hfull, cast_sign_apply,
    cast_sign_apply sign mantissa, hplace, Int.toNat_natCast, zpow_natCast]
  push_cast
  ring

/-- The whole part that a conversion takes of a finite number. -/
theorem roundToInt_eq (sign : Sign) (mantissa : Nat) {exponent : Int} (hlow : -149 ≤ exponent) :
    UnpackedFloat.roundToInt sign mantissa exponent =
      sign.apply ((mantissa * 2 ^ (exponent + 149).toNat / 2 ^ 149 : Nat) : Int) := by
  unfold UnpackedFloat.roundToInt UnpackedFloat.decreaseExponent UnpackedFloat.shiftToExponent
  dsimp only
  rw [mantissa_shiftRight]
  show sign.apply ((mantissa <<< (exponent - 0).toNat / 2 ^ _ : Nat) : Int) = _
  congr 2
  rw [Nat.shiftLeft_eq]
  rcases Int.le_total 0 exponent with hpos | hneg
  · obtain ⟨k, rfl⟩ := Int.eq_ofNat_of_zero_le hpos
    have hleft : ((k : Int) - 0).toNat = k := by omega
    have hright : (0 - ((k : Int) - ((k : Int) - 0).toNat)).toNat = 0 := by omega
    have hsum : ((k : Int) + 149).toNat = k + 149 := by omega
    rw [hright, hleft, hsum, Nat.pow_zero, Nat.div_one, Nat.pow_add, ← Nat.mul_assoc,
      Nat.mul_div_cancel _ (Nat.two_pow_pos 149)]
  · obtain ⟨k, hk⟩ := Int.eq_ofNat_of_zero_le (by omega : 0 ≤ exponent + 149)
    have hleft : (exponent - 0).toNat = 0 := by omega
    have hright : (0 - (exponent - ((exponent - 0).toNat : Int))).toNat = 149 - k := by omega
    have hpower : 2 ^ 149 = 2 ^ (149 - k) * 2 ^ k := by
      rw [← Nat.pow_add]
      congr 1
      omega
    rw [hright, hleft, hk, Int.toNat_natCast, Nat.pow_zero, Nat.mul_one, hpower,
      Nat.mul_div_mul_right _ _ (Nat.two_pow_pos k)]

theorem units_infinity : signedMagnitude infinityRank = 2 ^ 149 * 2 ^ 128 := by decide

/-- A conversion with a saturated range, up to a word of at most 128 bits. -/
theorem toInt_of_ranked {u : UnpackedFloat} {i : Int} (h : Ranked u i) {most : Nat}
    (hmost : most ≤ 2 ^ 128) :
    Min.min (u.toInt 0 most).toNat most = Min.min (signedMagnitude i / 2 ^ 149).toNat most := by
  have hpower : (0 : Int) < 2 ^ 149 := by decide
  cases h with
  | infinity sign =>
    rw [signedMagnitude_apply, units_infinity]
    cases sign with
    | negative =>
      have hnegative : Sign.negative.apply (2 ^ 149 * 2 ^ 128) / 2 ^ 149 ≤ 0 := by decide
      rw [Int.toNat_of_nonpos hnegative]
      rfl
    | positive =>
      show Min.min (most : Int).toNat most =
        Min.min ((2 ^ 149 * 2 ^ 128 : Int) / 2 ^ 149).toNat most
      rw [Int.mul_ediv_cancel_left _ (Int.ne_of_gt hpower), Int.toNat_natCast, Nat.min_self]
      exact (Nat.min_eq_right hmost).symm
  | zero sign => rfl
  | @finite sign mantissa exponent hpos hlow hhigh hmantissa hfull =>
    show Min.min (UnpackedFloat.roundToInt sign mantissa exponent).toNat most = _
    rw [roundToInt_eq sign mantissa hlow, signedMagnitude_apply,
      magnitude_finite hlow hmantissa hfull]
    generalize hvalue : mantissa * 2 ^ (exponent + 149).toNat = value
    have hcast : (mantissa : Int) * 2 ^ (exponent + 149).toNat = (value : Nat) := by
      rw [← hvalue]
      push_cast
      rfl
    rw [hcast]
    cases sign with
    | positive =>
      have hwhole : ((value : Int) / 2 ^ 149).toNat = value / 2 ^ 149 := by omega
      show Min.min ((value / 2 ^ 149 : Nat) : Int).toNat most =
        Min.min ((value : Int) / 2 ^ 149).toNat most
      rw [hwhole, Int.toNat_natCast]
    | negative =>
      show Min.min (-((value / 2 ^ 149 : Nat) : Int)).toNat most =
        Min.min (-(value : Int) / 2 ^ 149).toNat most
      rw [Int.toNat_of_nonpos (by omega), Int.toNat_of_nonpos (by omega)]

/-! ### Conversions -/

theorem toNat_toUInt8 (h : x.isNaN = false) :
    x.toUInt8.toNat = Min.min (units x / 2 ^ 149).toNat 255 := by
  refine Eq.trans ?_ (toInt_of_ranked (ranked_unpack h) (by decide : 255 ≤ 2 ^ 128))
  show (UInt8.ofNatClamp (x.toModel.unpack.toInt 0 255).toNat).toNat = _
  unfold UInt8.ofNatClamp
  split
  · rename_i hlt
    rw [UInt8.toNat_ofNatLT]
    exact (Nat.min_eq_left (Nat.le_of_lt_succ hlt)).symm
  · rename_i hge
    exact (Nat.min_eq_right (Nat.le_of_succ_le (Nat.not_lt.1 hge))).symm

theorem toWhole_eq (h : x.isNaN = false) :
    toWhole x = Min.min (units x / 2 ^ 149).toNat (2 ^ 64 - 1) := by
  refine Eq.trans ?_ (toInt_of_ranked (ranked_unpack h) (by decide : 2 ^ 64 - 1 ≤ 2 ^ 128))
  show (UInt64.ofNatClamp (x.toModel.unpack.toInt 0 ((2 ^ 64 - 1 : Nat) : Int)).toNat).toNat = _
  unfold UInt64.ofNatClamp
  split
  · rename_i hlt
    rw [UInt64.toNat_ofNatLT]
    exact (Nat.min_eq_left (Nat.le_of_lt_succ hlt)).symm
  · rename_i hge
    exact (Nat.min_eq_right (Nat.le_of_succ_le (Nat.not_lt.1 hge))).symm

theorem toWhole_of_isNaN (h : x.isNaN = true) : toWhole x = 0 := by
  change x.toModel.unpack.isNaN = true at h
  show (UInt64.ofNatClamp (x.toModel.unpack.toInt 0 _).toNat).toNat = 0
  cases hu : x.toModel.unpack with
  | notANumber => rfl
  | _ =>
    rw [hu] at h
    cases h

/-! ### Whole parts -/

/-- The exact value of a finite number. -/
def value? (x : Float32) : Option ℚ :=
  match x.toModel.unpack with
  | .zero _ => some 0
  | .finite sign mantissa exponent _ => some (sign.apply (mantissa : Int) * 2 ^ exponent)
  | _ => none

/-- The whole part of a number that is brought into the range of a word; 0 for a NaN. -/
def wholePart (x : Float32) : Nat :=
  match value? x with
  | some value => Min.min ⌊value⌋.toNat (2 ^ 64 - 1)
  | none => if x > 0 then 2 ^ 64 - 1 else 0

theorem isNaN_of_unpack {u : UnpackedFloat} (h : x.toModel.unpack = u) : x.isNaN = u.isNaN := by
  rw [← h]
  rfl

theorem units_of_finite {sign : Sign} {mantissa : Nat} {exponent : Int} {hpos : 0 < mantissa}
    (h : x.toModel.unpack = .finite sign mantissa exponent hpos) :
    (units x : ℚ) = sign.apply (mantissa : Int) * 2 ^ exponent * 2 ^ 149 := by
  have hranked := ranked_unpack (isNaN_of_unpack h)
  rw [h] at hranked
  unfold units
  generalize rank x = r at hranked ⊢
  cases hranked with
  | finite _ _ hlow hhigh hmantissa hfull =>
    have hpower : (2 : ℚ) ^ (exponent + 149) = 2 ^ exponent * 2 ^ 149 := by
      rw [zpow_add₀ two_ne_zero]
      rfl
    rw [amount_finite sign hlow hmantissa hfull, hpower, mul_assoc]

theorem floor_value {value : ℚ} (h : value? x = some value) :
    x.isNaN = false ∧ ⌊value⌋ = units x / 2 ^ 149 := by
  have hfloor {v : ℚ} (hunits : (units x : ℚ) = v * 2 ^ 149) : ⌊v⌋ = units x / 2 ^ 149 := by
    have hvalue : v = (units x : ℚ) / ((2 ^ 149 : Nat) : ℚ) := by
      rw [hunits]
      push_cast
      exact (mul_div_cancel_right₀ v (by positivity)).symm
    rw [hvalue, Rat.floor_intCast_div_natCast]
    rfl
  unfold value? at h
  cases hu : x.toModel.unpack with
  | zero sign =>
    rw [hu] at h
    obtain rfl := Option.some.inj h
    have hnumber := isNaN_of_unpack hu
    refine ⟨hnumber, hfloor ?_⟩
    have hranked := ranked_unpack hnumber
    rw [hu] at hranked
    unfold units
    generalize rank x = r at hranked ⊢
    cases hranked
    norm_num [signedMagnitude]
  | finite sign mantissa exponent hpos =>
    rw [hu] at h
    obtain rfl := Option.some.inj h
    exact ⟨isNaN_of_unpack hu, hfloor (units_of_finite hu)⟩
  | _ =>
    rw [hu] at h
    cases h

theorem toWhole_eq_wholePart (x : Float32) : toWhole x = wholePart x := by
  unfold wholePart
  cases hvalue : value? x with
  | some value =>
    obtain ⟨hnumber, hfloor⟩ := floor_value hvalue
    rw [toWhole_eq hnumber]
    dsimp only
    rw [hfloor]
  | none =>
    cases hu : x.toModel.unpack with
    | notANumber =>
      have hnan : x.isNaN = true := isNaN_of_unpack hu
      have hnot : ¬x > 0 := by
        rw [gt_iff_lt, lt_iff_compare, hu]
        nofun
      rw [toWhole_of_isNaN hnan, if_neg hnot]
    | infinity sign =>
      have hnumber := isNaN_of_unpack hu
      have hzero : (0 : Float32).isNaN = false := isNaN_ofScientific 0 false 0
      have hrank : rank (0 : Float32) = 0 := rfl
      have hranked := ranked_unpack hnumber
      rw [hu] at hranked
      rw [toWhole_eq hnumber]
      simp only [gt_iff_lt, lt_iff_rank_lt hzero hnumber, hrank]
      unfold units
      generalize rank x = r at hranked ⊢
      cases hranked
      rw [signedMagnitude_apply, units_infinity]
      cases sign <;> decide
    | _ =>
      unfold value? at hvalue
      rw [hu] at hvalue
      cases hvalue

/-! ### Bytes -/

theorem units_ofNat : ∀ n : Fin 256, units (ofNat n) = (n : Nat) * 2 ^ 149 := by
  decide +kernel

theorem le_toUInt8_iff (h : x.isNaN = false) {n : Nat} (hpos : 0 < n) (hn : n < 256) :
    n ≤ x.toUInt8.toNat ↔ ofNat n ≤ x := by
  rw [toNat_toUInt8 h, le_iff_units_le (isNaN_ofNat n) h, units_ofNat ⟨n, hn⟩,
    ← Int.le_ediv_iff_mul_le (by decide)]
  show n ≤ Min.min (units x / 2 ^ 149).toNat 255 ↔ (n : Int) ≤ units x / 2 ^ 149
  omega

theorem eq_of_rank_eq (h : rank a = rank b) (hne : rank b ≠ 0) : a = b := by
  have ha := a.toBits.toNat_lt
  have hb := b.toBits.toNat_lt
  apply eq_of_toBits_eq
  apply UInt32.toNat_inj.1
  unfold rank at h hne
  split at h <;> split at h <;> omega

theorem zero_of_rank (h : x.isNaN = false) (hzero : rank x = 0) :
    ∃ sign, x.toModel.unpack = .zero sign := by
  have hranked := ranked_unpack h
  rw [hzero] at hranked
  generalize x.toModel.unpack = u at hranked ⊢
  generalize hi : (0 : Int) = i at hranked
  cases hranked with
  | infinity sign => cases sign <;> cases hi
  | zero sign => exact ⟨sign, rfl⟩
  | @finite sign mantissa exponent hpos hlow hhigh hmantissa hfull =>
    cases sign with
    | positive =>
      change 0 = (exponent + 149) * 0x800000 + (mantissa : Int) at hi
      omega
    | negative =>
      change 0 = -((exponent + 149) * 0x800000 + (mantissa : Int)) at hi
      omega

theorem isFinite_of_rank (h : x.isNaN = false) (hlow : -infinityRank < rank x)
    (hhigh : rank x < infinityRank) : x.isFinite = true := by
  have hranked := ranked_unpack h
  show x.toModel.unpack.isFinite = true
  generalize x.toModel.unpack = u at hranked ⊢
  generalize rank x = r at *
  cases hranked with
  | infinity sign =>
    cases sign with
    | positive => exact absurd hhigh (Int.lt_irrefl _)
    | negative => exact absurd hlow (Int.lt_irrefl _)
  | zero sign => rfl
  | finite sign _ _ _ _ _ => rfl

/-- Nothing is left of a finite number less an equal one. -/
theorem sub_of_rank_eq (ha : a.isFinite = true) (hb : b.isFinite = true) (h : rank a = rank b) :
    ∃ sign, a - b = Float32.ofModel (Float32.Model.pack (.zero sign)) := by
  suffices hsub : ∃ sign, UnpackedFloat.sub Format.binary32 a.toModel.unpack b.toModel.unpack =
      .zero sign by
    obtain ⟨sign, hsub⟩ := hsub
    exact ⟨sign, congrArg (fun u => Float32.ofModel (Float32.Model.pack u)) hsub⟩
  by_cases hzero : rank b = 0
  · obtain ⟨s, hu⟩ := zero_of_rank (isNaN_of_isFinite ha) (h.trans hzero)
    obtain ⟨t, hv⟩ := zero_of_rank (isNaN_of_isFinite hb) hzero
    rw [hu, hv]
    cases s <;> cases t <;> exact ⟨_, rfl⟩
  · obtain rfl := eq_of_rank_eq h hzero
    rcases cases_of_isFinite ha with ⟨s, hu⟩ | ⟨s, m, d, hm, hu⟩
    · rw [hu]
      cases s <;> exact ⟨_, rfl⟩
    · rw [hu]
      refine ⟨.positive, ?_⟩
      unfold UnpackedFloat.sub
      dsimp only
      rw [Int.sub_self]
      rfl

theorem zero_lt_half (sign : Sign) :
    ¬Float32.ofModel (Float32.Model.pack (.zero sign)) ≥ 0.5 := by
  cases sign <;> decide +kernel

theorem isFinite_ofNat {n : Nat} (hn : n < 256) : (ofNat n).isFinite = true := by
  have hunits : signedMagnitude (rank (ofNat n)) = n * 2 ^ 149 := units_ofNat ⟨n, hn⟩
  have hnegative := signedMagnitude_neg infinityRank
  apply isFinite_of_rank (isNaN_ofNat n)
  · rw [← signedMagnitude_lt_iff, hunits, hnegative, units_infinity]
    omega
  · rw [← signedMagnitude_lt_iff, hunits, units_infinity]
    omega

theorem toFloat32_ofNat {n : Nat} (hn : n < 256) : (UInt8.ofNat n).toFloat32 = ofNat n := by
  have hvalue : (UInt8.ofNat n).toNat = (UInt64.ofNat n).toNat := by
    rw [UInt8.toNat_ofNat_of_lt' hn, UInt64.toNat_ofNat_of_lt' (Nat.lt_trans hn (by decide))]
  show Float32.ofModel (.pack (.ofNat Format.binary32 (UInt8.ofNat n).toNat)) = _
  rw [hvalue]
  rfl

theorem sub_whole_lt_half {n : Nat} (hn : n < 256) (hlow : ofNat n ≤ x) (hhigh : x ≤ ofNat n) :
    ¬(x - (UInt8.ofNat n).toFloat32 ≥ 0.5) := by
  have hx := (not_isNaN_of_le hhigh).1
  have hwhole := isFinite_ofNat hn
  have hwithin := rank_within hwhole
  have hrank : rank x = rank (ofNat n) :=
    Int.le_antisymm ((le_iff_rank_le hx (isNaN_ofNat n)).1 hhigh)
      ((le_iff_rank_le (isNaN_ofNat n) hx).1 hlow)
  have hfinite : x.isFinite = true := by
    rw [← hrank] at hwithin
    exact isFinite_of_rank hx hwithin.1 hwithin.2
  obtain ⟨sign, hsub⟩ := sub_of_rank_eq hfinite hwhole hrank
  rw [toFloat32_ofNat hn, hsub]
  exact zero_lt_half sign

theorem toUInt8_le {hi : Nat} (hhi : hi < 255) (hhigh : x ≤ ofNat hi) : x.toUInt8.toNat ≤ hi := by
  have hx := (not_isNaN_of_le hhigh).1
  by_contra habove
  have hle := (le_toUInt8_iff hx (Nat.succ_pos hi) (by omega)).1 (Nat.not_le.1 habove)
  have hunits := (le_iff_units_le (isNaN_ofNat _) (isNaN_ofNat _)).1 (le_trans hle hhigh)
  rw [units_ofNat ⟨hi, by omega⟩, units_ofNat ⟨hi + 1, by omega⟩] at hunits
  dsimp only at hunits
  omega

/-- A number between two whole ones below 255 is rounded to one between them. -/
theorem roundToByte_within {lo hi : Nat} (horder : lo ≤ hi) (hhi : hi < 255) (hlow : ofNat lo ≤ x)
    (hhigh : x ≤ ofNat hi) : lo ≤ (roundToByte x).toNat ∧ (roundToByte x).toNat ≤ hi := by
  have hx := (not_isNaN_of_le hhigh).1
  have hatMost : x.toUInt8.toNat ≤ hi := toUInt8_le hhi hhigh
  have hatLeast : lo ≤ x.toUInt8.toNat := by
    rcases Nat.eq_zero_or_pos lo with rfl | hpos
    · exact Nat.zero_le _
    · exact (le_toUInt8_iff hx hpos (by omega)).2 hlow
  unfold roundToByte
  dsimp only
  split
  · rename_i hround
    have hbelow : x.toUInt8.toNat ≠ hi := by
      intro hsame
      have hwhole : ofNat hi ≤ x := by
        rcases Nat.eq_zero_or_pos hi with hzero | hpos
        · obtain rfl : lo = hi := by omega
          exact hlow
        · exact (le_toUInt8_iff hx hpos (by omega)).1 (Nat.le_of_eq hsame.symm)
      refine sub_whole_lt_half (by omega) hwhole hhigh ?_
      rw [← hsame, UInt8.ofNat_toNat]
      exact hround.2
    have hsucc : (x.toUInt8 + 1).toNat = x.toUInt8.toNat + 1 := by
      rw [UInt8.toNat_add]
      exact Nat.mod_eq_of_lt (Nat.succ_lt_succ (Nat.lt_of_le_of_lt hatMost hhi))
    omega
  · exact ⟨hatLeast, hatMost⟩

end HashBoard.Single
