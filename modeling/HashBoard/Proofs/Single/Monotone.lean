import HashBoard.Proofs.Single.Arithmetic

/-!
# Arithmetic and order

Sums and products of numbers that are not negative keep their order, infinities included: more is
never less after it has been multiplied and added. A comparison with no number never holds, so that
nothing has to be known of a start or a step to which more or less of it is added.
-/

namespace HashBoard.Single

open Float.Model (Format UnpackedFloat)
open Float.Model.UnpackedFloat (Sign)

variable {a b c x y : Float32}

/-! ### Infinity and no number -/

theorem rank_le_infinity (h : x.isNaN = false) : rank x ≤ infinityRank := by
  have hmost := natAbs_le_infinity (ranked_unpack h)
  have hinfinity : infinityRank = infinityBits := rfl
  omega

theorem not_isNaN_of_lt (h : a < b) : a.isNaN = false ∧ b.isNaN = false :=
  not_isNaN_of_compare (lt_iff_compare.1 h)

theorem not_lt_self (a : Float32) : ¬a < a := by
  intro hlt
  obtain ⟨ha, _⟩ := not_isNaN_of_lt hlt
  exact Int.lt_irrefl _ ((lt_iff_rank_lt ha ha).1 hlt)

theorem finite_or_infinity (h : x.isNaN = false) :
    x.isFinite = true ∨ ∃ sign, x.toModel.unpack = .infinity sign ∧
      rank x = sign.apply infinityRank := by
  have hranked := ranked_unpack h
  show x.toModel.unpack.isFinite = true ∨ _
  generalize x.toModel.unpack = u at hranked ⊢
  generalize rank x = r at hranked ⊢
  cases hranked with
  | infinity sign => exact .inr ⟨sign, rfl, rfl⟩
  | _ => exact .inl rfl

theorem infinity_of_nonneg (h : x.isNaN = false) (hpos : 0 ≤ rank x) :
    x.isFinite = true ∨ x.toModel.unpack = .infinity .positive ∧ rank x = infinityRank := by
  rcases finite_or_infinity h with hfinite | ⟨sign, hu, hrank⟩
  · exact .inl hfinite
  · cases sign with
    | positive => exact .inr ⟨hu, hrank⟩
    | negative =>
      rw [hrank] at hpos
      exact absurd hpos (by decide)

theorem rank_infinity (sign : Sign) :
    rank (Float32.ofModel (Float32.Model.pack (.infinity sign))) = sign.apply infinityRank :=
  rank_pack (.infinity sign)

theorem isNaN_notANumber : (Float32.ofModel (Float32.Model.pack .notANumber)).isNaN = true := by
  decide +kernel

theorem notANumber_of_isNaN (h : x.isNaN = true) : x.toModel.unpack = .notANumber := by
  change x.toModel.unpack.isNaN = true at h
  cases hu : x.toModel.unpack with
  | notANumber => rfl
  | _ =>
    rw [hu] at h
    cases h

theorem add_eq_pack (a b : Float32) : a + b = Float32.ofModel (Float32.Model.pack
    (UnpackedFloat.add Format.binary32 a.toModel.unpack b.toModel.unpack)) := rfl

theorem mul_eq_pack (a b : Float32) : a * b = Float32.ofModel (Float32.Model.pack
    (UnpackedFloat.mul Format.binary32 a.toModel.unpack b.toModel.unpack)) := rfl

theorem isNaN_of_add (h : (c + a).isNaN = false) : c.isNaN = false ∧ a.isNaN = false := by
  constructor
  · by_contra hc
    rw [add_eq_pack, notANumber_of_isNaN (Bool.of_not_eq_false hc)] at h
    exact Bool.false_ne_true (h.symm.trans isNaN_notANumber)
  · by_contra ha
    have hnan : UnpackedFloat.add Format.binary32 c.toModel.unpack .notANumber = .notANumber := by
      cases c.toModel.unpack <;> rfl
    rw [add_eq_pack, notANumber_of_isNaN (Bool.of_not_eq_false ha), hnan] at h
    exact Bool.false_ne_true (h.symm.trans isNaN_notANumber)

theorem isNaN_of_mul (h : (c * x).isNaN = false) : c.isNaN = false := by
  by_contra hc
  rw [mul_eq_pack, notANumber_of_isNaN (Bool.of_not_eq_false hc)] at h
  exact Bool.false_ne_true (h.symm.trans isNaN_notANumber)

theorem isNaN_mul_of_finite (hx : x.isFinite = true) (hy : y.isFinite = true) :
    (x * y).isNaN = false := by
  apply isNaN_pack
  rcases cases_of_isFinite hx with ⟨s, hu⟩ | ⟨s, m, d, hm, hu⟩ <;>
    rcases cases_of_isFinite hy with ⟨t, hv⟩ | ⟨t, n, e, hn, hv⟩ <;> rw [hu, hv]
  case inr.inr => exact isNaN_roundWithAccuracy _ _ _ _ _
  all_goals rfl

theorem isFinite_of_infinity {sign : Sign} (h : x.toModel.unpack = .infinity sign) :
    x.isFinite = false := by
  show x.toModel.unpack.isFinite = false
  rw [h]
  rfl

/-! ### Sums -/

/-- What becomes of a number to which one is added that is not negative, if the sum is one. -/
inductive Raised (c a : Float32) : Prop
  | endless (hc : c.isFinite = false) (h : rank (c + a) = rank c)
  | overflow (hc : c.isFinite = true) (ha : a.isFinite = false) (h : rank (c + a) = infinityRank)
  | rounded (hc : c.isFinite = true) (ha : a.isFinite = true)
      (h : Rounded (units c + units a) (rank (c + a)))

theorem raised (hsum : (c + a).isNaN = false) (hpos : 0 ≤ rank a) : Raised c a := by
  obtain ⟨hc, ha⟩ := isNaN_of_add hsum
  rcases finite_or_infinity hc with hcfinite | ⟨sign, hu, hrank⟩
  · rcases infinity_of_nonneg ha hpos with hafinite | ⟨hv, _⟩
    · exact .rounded hcfinite hafinite (rounded_add hcfinite hafinite)
    · refine .overflow hcfinite (isFinite_of_infinity hv) ?_
      rcases cases_of_isFinite hcfinite with ⟨s, hu⟩ | ⟨s, m, d, hm, hu⟩
      · rw [add_eq_pack, hu, hv]
        exact rank_infinity .positive
      · rw [add_eq_pack, hu, hv]
        exact rank_infinity .positive
  · refine .endless (isFinite_of_infinity hu) ?_
    rcases infinity_of_nonneg ha hpos with hafinite | ⟨hv, _⟩
    · rw [hrank, add_eq_pack, hu]
      rcases cases_of_isFinite hafinite with ⟨t, hv⟩ | ⟨t, m, d, hm, hv⟩
      · rw [hv]
        exact rank_infinity sign
      · rw [hv]
        exact rank_infinity sign
    · rw [add_eq_pack, hu, hv] at hsum
      rw [hrank, add_eq_pack, hu, hv]
      cases sign with
      | positive => exact rank_infinity .positive
      | negative => exact absurd (hsum.symm.trans isNaN_notANumber) Bool.false_ne_true

theorem not_add_lt_self (c : Float32) (hpos : 0 ≤ rank a) : ¬c + a < c := by
  intro hlt
  obtain ⟨hsum, hc⟩ := not_isNaN_of_lt hlt
  rw [lt_iff_rank_lt hsum hc] at hlt
  cases raised hsum hpos with
  | endless _ h => omega
  | overflow _ _ h =>
    have hmost := rank_le_infinity hc
    omega
  | rounded _ _ h =>
    have hle := (rounded_self hc).mono h (le_add_of_nonneg_right (units_nonneg hpos))
    omega

theorem not_add_lt_add (c : Float32) (hpos : 0 ≤ rank b) (hle : rank b ≤ rank a) :
    ¬c + a < c + b := by
  intro hlt
  obtain ⟨hleft, hright⟩ := not_isNaN_of_lt hlt
  rw [lt_iff_rank_lt hleft hright] at hlt
  cases raised hleft (Int.le_trans hpos hle) with
  | overflow _ _ h =>
    have hmost := rank_le_infinity hright
    omega
  | endless hc h =>
    cases raised hright hpos with
    | endless _ h' => omega
    | overflow hc' _ _ => exact Bool.false_ne_true (hc.symm.trans hc')
    | rounded hc' _ _ => exact Bool.false_ne_true (hc.symm.trans hc')
  | rounded hc ha h =>
    cases raised hright hpos with
    | endless hc' _ => exact Bool.false_ne_true (hc'.symm.trans hc)
    | overflow _ hb _ =>
      rcases infinity_of_nonneg (isNaN_of_add hright).2 hpos with hbfinite | ⟨_, hrank⟩
      · exact Bool.false_ne_true (hb.symm.trans hbfinite)
      · have hbelow := (rank_within ha).2
        omega
    | rounded _ _ h' =>
      have hmono := h'.mono h (add_le_add_right (units_le hle) _)
      omega

/-! ### Products -/

/-- A positive finite number has a mantissa and no sign. -/
theorem finite_of_rank_pos (hx : x.isFinite = true) (hpos : 0 < rank x) :
    ∃ mantissa exponent hm, x.toModel.unpack = .finite .positive mantissa exponent hm := by
  have hranked := ranked_unpack (isNaN_of_isFinite hx)
  rcases cases_of_isFinite hx with ⟨s, hu⟩ | ⟨s, m, d, hm, hu⟩
  · rw [hu] at hranked
    generalize rank x = r at *
    cases hranked
    exact absurd hpos (Int.lt_irrefl 0)
  · rw [hu] at hranked ⊢
    generalize rank x = r at *
    cases hranked with
    | finite _ _ hlow hhigh hmantissa hfull =>
      cases s with
      | positive => exact ⟨m, d, hm, rfl⟩
      | negative =>
        change 0 < -((d + 149) * 0x800000 + (m : Int)) at hpos
        omega

theorem isProper_of_rank_pos (hx : x.isFinite = true) (hpos : 0 < rank x) : isProper x = true := by
  obtain ⟨m, d, hm, hu⟩ := finite_of_rank_pos hx hpos
  rw [isProper, hu]
  rfl

theorem rank_mul_infinity (hc : c.toModel.unpack = .infinity .positive) (hx : x.isFinite = true)
    (hpos : 0 < rank x) : rank (c * x) = infinityRank := by
  obtain ⟨m, d, hm, hu⟩ := finite_of_rank_pos hx hpos
  rw [mul_eq_pack, hc, hu]
  exact rank_infinity .positive

theorem rank_mul_nonneg (h : (c * x).isNaN = false) (hc : 0 ≤ rank c) (hx : x.isFinite = true)
    (hpos : 0 ≤ rank x) : 0 ≤ rank (c * x) := by
  rcases infinity_of_nonneg (isNaN_of_mul h) hc with hfinite | ⟨hu, _⟩
  · have hcunits := units_nonneg hc
    have hxunits := units_nonneg hpos
    exact rounded_zero.mono (rounded_mul hfinite hx) (by positivity)
  · rcases Int.lt_or_eq_of_le hpos with hpositive | hzero
    · rw [rank_mul_infinity hu hx hpositive]
      decide
    · -- Infinity times zero is no number.
      obtain ⟨sign, hv⟩ := zero_of_rank (isNaN_of_isFinite hx) hzero.symm
      rw [mul_eq_pack, hu, hv] at h
      exact absurd (h.symm.trans isNaN_notANumber) Bool.false_ne_true

theorem rank_mul_le (hcnumber : c.isNaN = false) (hc : 0 ≤ rank c) (hx : x.isFinite = true)
    (hy : y.isFinite = true) (hpos : 0 < rank y) (hle : rank y ≤ rank x) :
    rank (c * y) ≤ rank (c * x) := by
  rcases infinity_of_nonneg hcnumber hc with hfinite | ⟨hu, _⟩
  · have hproducts := mul_le_mul_of_nonneg_left (units_le hle) (units_nonneg hc)
    exact (rounded_mul hfinite hy).mono (rounded_mul hfinite hx)
      (div_le_div_of_nonneg_right hproducts (by positivity))
  · rw [rank_mul_infinity hu hy hpos, rank_mul_infinity hu hx (Int.lt_of_lt_of_le hpos hle)]

/-! ### Multiples added to a number -/

theorem rank_nonneg_of_not_neg (hx : x.isNaN = false) (h : ¬x < 0) : 0 ≤ rank x := by
  have hzero : rank (0 : Float32) = 0 := rfl
  have hnumber : (0 : Float32).isNaN = false := isNaN_ofScientific 0 false 0
  rw [lt_iff_rank_lt hx hnumber, hzero] at h
  exact Int.not_lt.1 h

theorem not_add_mul_lt_self (c step : Float32) (hstep : ¬step < 0) (hx : x.isFinite = true)
    (hpos : 0 ≤ rank x) : ¬c + step * x < c := by
  intro hlt
  have hproduct := (isNaN_of_add (not_isNaN_of_lt hlt).1).2
  have hnonneg := rank_nonneg_of_not_neg (isNaN_of_mul hproduct) hstep
  exact not_add_lt_self c (rank_mul_nonneg hproduct hnonneg hx hpos) hlt

/-- Steps that do not go down never make more of them fall below fewer. -/
theorem not_add_mul_lt (c step : Float32) (hstep : ¬step < 0) (hx : x.isFinite = true)
    (hy : y.isFinite = true) (hpos : 0 < rank y) (hle : rank y ≤ rank x) :
    ¬c + step * x < c + step * y := by
  intro hlt
  have hproduct := (isNaN_of_add (not_isNaN_of_lt hlt).2).2
  have hnumber := isNaN_of_mul hproduct
  have hnonneg := rank_nonneg_of_not_neg hnumber hstep
  exact not_add_lt_add c (rank_mul_nonneg hproduct hnonneg hy hpos.le)
    (rank_mul_le hnumber hnonneg hx hy hpos hle) hlt

end HashBoard.Single
