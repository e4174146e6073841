import HashBoard.Proofs.Single.Rounding
import Mathlib.Algebra.Order.Field.Power
import Mathlib.Tactic.FieldSimp

/-!
# Correctly rounded arithmetic

A sum, a difference, a product and a quotient of finite numbers are the numbers nearest to the exact
results. So they are exact where the result is a number, as it is for whole numbers of up to 24
bits.
-/

namespace HashBoard.Single

open Float.Model (Format UnpackedFloat totalExponent)
open Float.Model.UnpackedFloat (ExtendedMantissa Sign roundWithAccuracy decreaseExponent
  accuracyOfFraction divCore)

/-! ### Amounts with a sign -/

/-- The rank of the number nearest to an amount of units, which may be negative. -/
inductive Rounded : ℚ → Int → Prop
  | positive {amount : ℚ} {bits : Nat} (hamount : 0 ≤ amount) (h : Nearest amount bits) :
      Rounded amount bits
  | negative {amount : ℚ} {bits : Nat} (hamount : 0 ≤ amount) (h : Nearest amount bits) :
      Rounded (-amount) (-bits)

theorem nearest_zero {bits : Nat} (h : Nearest 0 bits) : bits = 0 := by
  have hzero : Nearest 0 0 := by exact_mod_cast nearest_magnitude (Nat.zero_le infinityBits)
  exact Nat.le_zero.1 (h.mono hzero (le_refl 0))

theorem Rounded.mono {less amount : ℚ} {i j : Int} (hi : Rounded less i) (hj : Rounded amount j)
    (hle : less ≤ amount) : i ≤ j := by
  cases hi with
  | @positive less m hless hm =>
    cases hj with
    | @positive amount n hamount hn => exact_mod_cast hm.mono hn hle
    | @negative amount n hamount hn =>
      obtain rfl : less = 0 := by linarith
      obtain rfl : amount = 0 := by linarith
      rw [nearest_zero hm, nearest_zero hn]
      rfl
  | @negative less m hless hm =>
    cases hj with
    | @positive amount n hamount hn => omega
    | @negative amount n hamount hn =>
      have hnm := hn.mono hm (by linarith)
      omega

theorem rounded_number {i : Int} (h : i.natAbs ≤ infinityBits) :
    Rounded (signedMagnitude i) i := by
  obtain ⟨n, rfl | rfl⟩ := i.eq_nat_or_neg
  · rw [signedMagnitude_natCast, Int.cast_natCast]
    exact .positive (by positivity) (nearest_magnitude (by omega))
  · rw [signedMagnitude_neg, signedMagnitude_natCast, Int.cast_neg, Int.cast_natCast]
    exact .negative (by positivity) (nearest_magnitude (by omega))

theorem Rounded.unique {amount : ℚ} {i j : Int} (hi : Rounded amount i) (hj : Rounded amount j) :
    i = j :=
  Int.le_antisymm (hi.mono hj (le_refl _)) (hj.mono hi (le_refl _))

theorem rounded_zero : Rounded 0 0 := rounded_number (i := 0) (Nat.zero_le _)

theorem rounded_of_sign (sign : Sign) {amount : ℚ} {bits : Nat} (hamount : 0 ≤ amount)
    (h : Nearest amount bits) : Rounded ((sign.apply 1 : Int) * amount) (sign.apply bits) := by
  cases sign with
  | positive =>
    have hsign : ((Sign.positive.apply 1 : Int) : ℚ) * amount = amount := one_mul amount
    rw [hsign]
    exact .positive hamount h
  | negative =>
    have hsign : ((Sign.negative.apply 1 : Int) : ℚ) * amount = -amount := neg_one_mul amount
    rw [hsign]
    exact .negative hamount h

/-! ### Exact mantissas -/

theorem two_zpow_add {exponent less : Int} {shift : Nat} (h : exponent = shift + less) :
    (2 : ℚ) ^ exponent = 2 ^ shift * 2 ^ less := by
  rw [h, zpow_add₀ two_ne_zero, zpow_natCast]

theorem log2_shiftLeft {n : Nat} (hpos : 0 < n) (shift : Nat) :
    (n <<< shift).log2 = n.log2 + shift := by
  have hlow := Nat.log2_self_le (Nat.ne_of_gt hpos)
  have hhigh : n < 2 ^ (n.log2 + 1) := Nat.lt_log2_self
  have hpower : 0 < 2 ^ shift := Nat.two_pow_pos shift
  rw [Nat.shiftLeft_eq, Nat.log2_eq_iff (Nat.ne_of_gt (Nat.mul_pos hpos hpower)),
    Nat.add_right_comm, Nat.pow_add, Nat.pow_add 2 (n.log2 + 1)]
  exact ⟨Nat.mul_le_mul_right _ hlow, Nat.mul_lt_mul_of_pos_right hhigh hpower⟩

theorem totalExponent_shiftLeft {mantissa : Nat} (hpos : 0 < mantissa) (exponent : Int)
    (shift : Nat) :
    totalExponent (mantissa <<< shift) (exponent - shift) = totalExponent mantissa exponent := by
  unfold totalExponent
  rw [log2_shiftLeft hpos]
  push_cast
  omega

/-- A mantissa that is too short is filled up before it is rounded. -/
theorem nearest_round (sign : Sign) {mantissa : Nat} (hpos : 0 < mantissa) (exponent : Int) :
    ∃ bits : Nat, Nearest (mantissa * 2 ^ (exponent + 149)) bits ∧
      rank (Float32.ofModel (Float32.Model.pack
        (UnpackedFloat.round Format.binary32 sign mantissa exponent))) = sign.apply bits := by
  generalize htarget :
    Format.binary32.targetExponent (totalExponent mantissa exponent) = target
  obtain ⟨shift, hshift⟩ : ∃ shift : Nat, (exponent - target).toNat = shift := ⟨_, rfl⟩
  have hround : UnpackedFloat.round Format.binary32 sign mantissa exponent =
      roundWithAccuracy Format.binary32 sign (mantissa <<< shift) (exponent - shift) .exact := by
    unfold UnpackedFloat.round decreaseExponent
    rw [htarget]
    dsimp only
    rw [hshift]
  have hreached : exponent - shift ≤ Format.binary32.targetExponent
      (totalExponent (mantissa <<< shift) (exponent - shift)) := by
    rw [totalExponent_shiftLeft hpos, htarget]
    omega
  have hscale : (mantissa : ℚ) * 2 ^ (exponent + 149) =
      (mantissa <<< shift : Nat) * 2 ^ (exponent - shift + 149) := by
    rw [Nat.shiftLeft_eq,
      two_zpow_add (by omega : exponent + 149 = shift + (exponent - shift + 149))]
    push_cast
    ring
  rw [hround, hscale]
  exact nearest_roundWithAccuracy sign (shows_exact _) hreached

theorem rounded_normalize (mantissa exponent : Int) (zeroSign : Sign) :
    Rounded (mantissa * 2 ^ (exponent + 149)) (rank (Float32.ofModel (Float32.Model.pack
      (UnpackedFloat.normalize Format.binary32 mantissa exponent zeroSign)))) := by
  unfold UnpackedFloat.normalize
  rcases Int.lt_trichotomy mantissa 0 with hlt | rfl | hgt
  · obtain ⟨bits, hnearest, hrank⟩ :=
      nearest_round .negative (by omega : 0 < (-mantissa).toNat) exponent
    rw [Int.compare_eq_lt.2 hlt]
    dsimp only
    rw [hrank]
    have hcast : ((-mantissa).toNat : ℚ) = -mantissa := by
      exact_mod_cast Int.toNat_of_nonneg (by omega : 0 ≤ -mantissa)
    have hamount : (mantissa : ℚ) * 2 ^ (exponent + 149) =
        -((-mantissa).toNat * 2 ^ (exponent + 149)) := by
      rw [hcast]
      ring
    rw [hamount]
    exact .negative (by positivity) hnearest
  · rw [Int.compare_eq_eq.2 rfl, Int.cast_zero, zero_mul]
    dsimp only
    rw [rank_pack (.zero zeroSign)]
    exact rounded_zero
  · obtain ⟨bits, hnearest, hrank⟩ :=
      nearest_round .positive (by omega : 0 < mantissa.toNat) exponent
    rw [Int.compare_eq_gt.2 hgt]
    dsimp only
    rw [hrank]
    have hcast : (mantissa.toNat : ℚ) = mantissa := by
      exact_mod_cast Int.toNat_of_nonneg (by omega : 0 ≤ mantissa)
    rw [← hcast]
    exact .positive (by positivity) hnearest

/-! ### Sums, products and quotients -/

theorem natAbs_le_infinity {u : UnpackedFloat} {i : Int} (h : Ranked u i) :
    i.natAbs ≤ infinityBits := by
  cases h with
  | infinity sign => cases sign <;> decide
  | zero sign => decide
  | @finite sign mantissa exponent hpos hlow hhigh hmantissa hfull =>
    unfold infinityBits
    cases sign with
    | positive =>
      show ((exponent + 149) * 0x800000 + (mantissa : Int)).natAbs ≤ _
      omega
    | negative =>
      show (-((exponent + 149) * 0x800000 + (mantissa : Int))).natAbs ≤ _
      omega

theorem apply_decreaseExponent (sign : Sign) (mantissa : Nat) {exponent target : Int}
    (h : target ≤ exponent) :
    ((sign.apply (decreaseExponent mantissa exponent target).1 : Int) : ℚ) * 2 ^ (target + 149) =
      (sign.apply mantissa : Int) * 2 ^ (exponent + 149) := by
  obtain ⟨shift, hshift⟩ := Int.eq_ofNat_of_zero_le (Int.sub_nonneg_of_le h)
  unfold decreaseExponent
  rw [hshift, Int.toNat_natCast, cast_sign_apply, cast_sign_apply sign mantissa,
    two_zpow_add (by omega : exponent + 149 = shift + (target + 149))]
  dsimp only
  rw [Nat.shiftLeft_eq]
  push_cast
  ring

theorem amount_product (s t : Sign) (m n : Nat) (d e : Int) :
    ((s.apply m : Int) : ℚ) * 2 ^ (d + 149) * ((t.apply n : Int) * 2 ^ (e + 149)) / 2 ^ 149 =
      ((s * t).apply 1 : Int) * ((m * n : Nat) * 2 ^ (d + e + 149)) := by
  have hsum : d + e + 149 = (d + 149) + (e + 149) - (149 : Nat) := by omega
  have hsign : ((s * t).apply 1 : Int) = s.apply 1 * t.apply 1 := by cases s <;> cases t <;> rfl
  rw [cast_sign_apply s, cast_sign_apply t, hsum, zpow_sub₀ two_ne_zero,
    zpow_add₀ two_ne_zero (d + 149), zpow_natCast, hsign]
  push_cast
  ring

theorem amount_quotient (s t : Sign) (m : Nat) {n : Nat} {d e target : Int} {shift : Nat}
    (hn : 0 < n) (hshift : d - e - target = shift) :
    ((s.apply m : Int) : ℚ) * 2 ^ (d + 149) / ((t.apply n : Int) * 2 ^ (e + 149)) * 2 ^ 149 =
      ((s / t).apply 1 : Int) * (((m <<< shift : Nat) : ℚ) / n * 2 ^ (target + 149)) := by
  have hn' : (n : ℚ) ≠ 0 := by exact_mod_cast Nat.ne_of_gt hn
  have hsign : (s.apply 1 : Int) = (s / t).apply 1 * t.apply 1 := by cases s <;> cases t <;> rfl
  have hunit : ((t.apply 1 : Int) : ℚ) ≠ 0 := by cases t <;> decide
  have hpower : (2 : ℚ) ^ (d + 149) * 2 ^ 149 =
      2 ^ shift * 2 ^ (target + 149) * 2 ^ (e + 149) := by
    rw [← zpow_natCast 2 149, ← zpow_natCast 2 shift, ← zpow_add₀ two_ne_zero,
      ← zpow_add₀ two_ne_zero, ← zpow_add₀ two_ne_zero]
    congr 1
    push_cast
    omega
  rw [cast_sign_apply s, cast_sign_apply t, hsign, div_mul_eq_mul_div, mul_assoc _ _ (2 ^ 149),
    hpower, Nat.shiftLeft_eq]
  push_cast
  field_simp

/-- A product of which one factor has a full mantissa has a full mantissa, and any other one is
below the lowest exponent. -/
theorem product_reaches {m n : Nat} {d e : Int} (hm : 0 < m) (hn : 0 < n)
    (hmfull : d = -149 ∨ 0x800000 ≤ m) (hnfull : e = -149 ∨ 0x800000 ≤ n) :
    d + e ≤ Format.binary32.targetExponent (totalExponent (m * n) (d + e)) := by
  rw [targetExponent_eq]
  have hpos : m * n ≠ 0 := Nat.ne_of_gt (Nat.mul_pos hm hn)
  rcases Nat.lt_or_ge (m * n) 0x800000 with hshort | hlong
  · have hleft : m ≤ m * n := Nat.le_mul_of_pos_right m hn
    have hright : n ≤ m * n := Nat.le_mul_of_pos_left n hm
    omega
  · have hlog : 23 ≤ (m * n).log2 := (Nat.le_log2 hpos).2 hlong
    omega

/-- The remainder of a division tells how the quotient is rounded. -/
theorem shows_fraction (numerator : Nat) {denominator : Nat} (hpos : 0 < denominator) :
    Shows (ExtendedMantissa.ofMantissaAndAccuracy (numerator / denominator)
      (accuracyOfFraction (numerator % denominator) denominator))
      ((numerator : ℚ) / denominator) := by
  have hpos' : (0 : ℚ) < denominator := by exact_mod_cast hpos
  have hless : ((numerator % denominator : Nat) : ℚ) < denominator := by
    exact_mod_cast Nat.mod_lt numerator hpos
  have hparts : 2 * ((numerator : ℚ) / denominator) =
      2 * (numerator / denominator : Nat) +
        2 * ((numerator % denominator : Nat) : ℚ) / denominator := by
    have hsum : (numerator : ℚ) =
        denominator * (numerator / denominator : Nat) + (numerator % denominator : Nat) := by
      exact_mod_cast (Nat.div_add_mod numerator denominator).symm
    field_simp
    linarith
  generalize numerator % denominator = rest at *
  generalize numerator / denominator = whole at *
  have hnonneg : (0 : ℚ) ≤ rest := by positivity
  unfold accuracyOfFraction
  split
  · rename_i hzero
    refine ⟨0, le_refl 0, zero_lt_one, ⟨nofun, fun h => absurd h (lt_irrefl 0)⟩, ?_⟩
    show _ = 2 * (whole : ℚ) + (0 : Nat) + 0
    rw [hparts, hzero]
    norm_num
  · rename_i hne
    have hpositive : (0 : ℚ) < rest := by exact_mod_cast Nat.pos_of_ne_zero hne
    rcases Nat.lt_trichotomy (2 * rest) denominator with hlt | heq | hgt
    · rw [Nat.compare_eq_lt.2 hlt]
      have hlt' : 2 * (rest : ℚ) < denominator := by exact_mod_cast hlt
      refine ⟨2 * rest / denominator, by positivity, (div_lt_one hpos').2 hlt',
        ⟨fun _ => by positivity, fun _ => rfl⟩, ?_⟩
      show _ = 2 * (whole : ℚ) + (0 : Nat) + _
      rw [hparts]
      push_cast
      ring
    · rw [Nat.compare_eq_eq.2 heq]
      have heq' : 2 * (rest : ℚ) = denominator := by exact_mod_cast heq
      refine ⟨0, le_refl 0, zero_lt_one, ⟨nofun, fun h => absurd h (lt_irrefl 0)⟩, ?_⟩
      show _ = 2 * (whole : ℚ) + (1 : Nat) + 0
      rw [hparts, heq', div_self (ne_of_gt hpos')]
      push_cast
      ring
    · rw [Nat.compare_eq_gt.2 hgt]
      have hgt' : (denominator : ℚ) < 2 * rest := by exact_mod_cast hgt
      have hover : 1 < 2 * (rest : ℚ) / denominator := (one_lt_div hpos').2 hgt'
      have hunder : 2 * (rest : ℚ) / denominator < 2 := (div_lt_iff₀ hpos').2 (by linarith)
      refine ⟨2 * rest / denominator - 1, by linarith, by linarith,
        ⟨fun _ => by linarith, fun _ => rfl⟩, ?_⟩
      show _ = 2 * (whole : ℚ) + (1 : Nat) + _
      rw [hparts]
      push_cast
      ring

/-- Before a division the dividend gets so many more bits that the quotient has a full mantissa or
is at most at the lowest exponent. -/
theorem quotient_reaches {m n : Nat} {d e target : Int} {shift : Nat} (hm : 0 < m) (hn : 0 < n)
    (htarget : target = Min.min (d - e)
      (Format.binary32.targetExponent (totalExponent m d - totalExponent n e)))
    (hshift : d - e - target = shift) :
    target ≤ Format.binary32.targetExponent (totalExponent ((m <<< shift) / n) target) := by
  have htotal : Format.binary32.targetExponent (totalExponent m d - totalExponent n e) =
      Max.max ((m.log2 : Int) + 1 + d - (n.log2 + 1 + e) - 24) (-149) := rfl
  rw [htotal] at htarget
  rw [targetExponent_eq]
  rcases Int.lt_or_le (-149) target with habove | hlowest
  · have hbits : n.log2 + 1 + 23 ≤ m.log2 + shift := by omega
    have hlong : 0x800000 ≤ (m <<< shift) / n := by
      rw [Nat.le_div_iff_mul_le hn, Nat.shiftLeft_eq]
      calc 0x800000 * n ≤ 0x800000 * 2 ^ (n.log2 + 1) :=
            Nat.mul_le_mul_left _ (Nat.le_of_lt Nat.lt_log2_self)
        _ = 2 ^ (n.log2 + 1 + 23) := by rw [Nat.pow_add 2 (n.log2 + 1), Nat.mul_comm]
        _ ≤ 2 ^ (m.log2 + shift) := Nat.pow_le_pow_right (by decide) hbits
        _ = 2 ^ m.log2 * 2 ^ shift := Nat.pow_add 2 m.log2 shift
        _ ≤ m * 2 ^ shift := Nat.mul_le_mul_right _ (Nat.log2_self_le (Nat.ne_of_gt hm))
    have hlog : 23 ≤ ((m <<< shift) / n).log2 := (Nat.le_log2 (by omega)).2 hlong
    omega
  · exact Int.le_trans hlowest (Int.le_max_right _ _)

section

variable {u v : UnpackedFloat} {i j : Int} (hu : Ranked u i) (hv : Ranked v j)
  (hufinite : u.isFinite = true) (hvfinite : v.isFinite = true)
include hu hv hufinite hvfinite

theorem rounded_add_unpacked :
    Rounded (signedMagnitude i + signedMagnitude j) (rank (Float32.ofModel (Float32.Model.pack
      (UnpackedFloat.add Format.binary32 u v)))) := by
  have hi := natAbs_le_infinity hu
  have hj := natAbs_le_infinity hv
  cases hu with
  | infinity sign => cases hufinite
  | zero s =>
    rw [signedMagnitude_zero, Int.cast_zero, zero_add]
    cases hv with
    | infinity sign => cases hvfinite
    | zero t =>
      cases s <;> cases t <;> exact rounded_zero
    | finite t hn hlow hhigh hmantissa hfull =>
      show Rounded _ (rank (Float32.ofModel (Float32.Model.pack (.finite t _ _ hn))))
      rw [rank_pack (.finite t hn hlow hhigh hmantissa hfull)]
      exact rounded_number hj
  | @finite s m d hm hlow hhigh hmantissa hfull =>
    cases hv with
    | infinity sign => cases hvfinite
    | zero t =>
      rw [signedMagnitude_zero, Int.cast_zero, add_zero]
      show Rounded _ (rank (Float32.ofModel (Float32.Model.pack (.finite s _ _ hm))))
      rw [rank_pack (.finite s hm hlow hhigh hmantissa hfull)]
      exact rounded_number hi
    | @finite t n e hn hlow' hhigh' hmantissa' hfull' =>
      rw [amount_finite s hlow hmantissa hfull, amount_finite t hlow' hmantissa' hfull',
        ← apply_decreaseExponent s m (Int.min_le_left d e),
        ← apply_decreaseExponent t n (Int.min_le_right d e), ← add_mul, ← Int.cast_add]
      exact rounded_normalize _ _ _

theorem rounded_sub_unpacked :
    Rounded (signedMagnitude i - signedMagnitude j) (rank (Float32.ofModel (Float32.Model.pack
      (UnpackedFloat.sub Format.binary32 u v)))) := by
  have hvneg : v.neg.isFinite = true := by
    cases hv with
    | infinity sign => cases hvfinite
    | _ => rfl
  rw [sub_eq_add_neg_unpacked, sub_eq_add_neg, ← Int.cast_neg, ← signedMagnitude_neg]
  exact rounded_add_unpacked hu hv.neg hufinite hvneg

theorem rounded_mul_unpacked :
    Rounded (signedMagnitude i * signedMagnitude j / 2 ^ 149)
      (rank (Float32.ofModel (Float32.Model.pack (UnpackedFloat.mul Format.binary32 u v)))) := by
  cases hu with
  | infinity sign => cases hufinite
  | zero s =>
    rw [signedMagnitude_zero, Int.cast_zero, zero_mul, zero_div]
    cases hv with
    | infinity sign => cases hvfinite
    | zero t => cases s <;> cases t <;> exact rounded_zero
    | finite t hn hlow hhigh hmantissa hfull => cases s <;> cases t <;> exact rounded_zero
  | @finite s m d hm hlow hhigh hmantissa hfull =>
    cases hv with
    | infinity sign => cases hvfinite
    | zero t =>
      rw [signedMagnitude_zero, Int.cast_zero, mul_zero, zero_div]
      cases s <;> cases t <;> exact rounded_zero
    | @finite t n e hn hlow' hhigh' hmantissa' hfull' =>
      have hreached := product_reaches hm hn hfull hfull'
      obtain ⟨bits, hnearest, hrank⟩ :=
        nearest_roundWithAccuracy (s * t) (shows_exact (m * n)) hreached
      show Rounded _ (rank (Float32.ofModel (Float32.Model.pack
        (roundWithAccuracy Format.binary32 (s * t) (m * n) (d + e) .exact))))
      rw [amount_finite s hlow hmantissa hfull, amount_finite t hlow' hmantissa' hfull',
        amount_product, hrank]
      exact rounded_of_sign (s * t) (by positivity) hnearest

theorem rounded_div_unpacked (hne : j ≠ 0) :
    Rounded (signedMagnitude i / signedMagnitude j * 2 ^ 149)
      (rank (Float32.ofModel (Float32.Model.pack (UnpackedFloat.div Format.binary32 u v)))) := by
  cases hv with
  | infinity sign => cases hvfinite
  | zero t => exact absurd rfl hne
  | @finite t n e hn hlow' hhigh' hmantissa' hfull' =>
    cases hu with
    | infinity sign => cases hufinite
    | zero s =>
      rw [signedMagnitude_zero, Int.cast_zero, zero_div, zero_mul]
      cases s <;> cases t <;> exact rounded_zero
    | @finite s m d hm hlow hhigh hmantissa hfull =>
      obtain ⟨target, htarget⟩ : ∃ target, target = Min.min (d - e)
        (Format.binary32.targetExponent (totalExponent m d - totalExponent n e)) := ⟨_, rfl⟩
      obtain ⟨shift, hshift⟩ := Int.eq_ofNat_of_zero_le (by omega : 0 ≤ d - e - target)
      obtain ⟨bits, hnearest, hrank⟩ := nearest_roundWithAccuracy (s / t)
        (shows_fraction (m <<< shift) hn) (quotient_reaches hm hn htarget hshift)
      have hcore : divCore Format.binary32 m d n e =
          ((m <<< shift) / n, target, accuracyOfFraction ((m <<< shift) % n) n) := by
        unfold divCore
        dsimp only
        rw [← htarget, hshift, Int.toNat_natCast]
      have hresult : UnpackedFloat.div Format.binary32 (.finite s m d hm) (.finite t n e hn) =
          roundWithAccuracy Format.binary32 (s / t) ((m <<< shift) / n) target
            (accuracyOfFraction ((m <<< shift) % n) n) := by
        unfold UnpackedFloat.div
        dsimp only
        rw [hcore]
      rw [hresult, amount_finite s hlow hmantissa hfull, amount_finite t hlow' hmantissa' hfull',
        amount_quotient s t m hn hshift, hrank]
      exact rounded_of_sign (s / t) (by positivity) hnearest

end

section

variable {a b : Float32} (ha : a.isFinite = true) (hb : b.isFinite = true)
include ha hb

theorem rounded_add : Rounded (units a + units b) (rank (a + b)) :=
  rounded_add_unpacked (ranked_unpack (isNaN_of_isFinite ha)) (ranked_unpack (isNaN_of_isFinite hb))
    ha hb

theorem rounded_sub : Rounded (units a - units b) (rank (a - b)) :=
  rounded_sub_unpacked (ranked_unpack (isNaN_of_isFinite ha)) (ranked_unpack (isNaN_of_isFinite hb))
    ha hb

theorem rounded_mul : Rounded (units a * units b / 2 ^ 149) (rank (a * b)) :=
  rounded_mul_unpacked (ranked_unpack (isNaN_of_isFinite ha)) (ranked_unpack (isNaN_of_isFinite hb))
    ha hb

theorem rounded_div (hne : rank b ≠ 0) : Rounded (units a / units b * 2 ^ 149) (rank (a / b)) :=
  rounded_div_unpacked (ranked_unpack (isNaN_of_isFinite ha)) (ranked_unpack (isNaN_of_isFinite hb))
    ha hb hne

end

/-! ### Whole numbers -/

theorem exists_magnitude {mantissa place : Nat} (hmantissa : mantissa < 0x1000000)
    (hplace : place < 254) : ∃ bits < infinityBits, magnitude bits = mantissa * 2 ^ place := by
  induction place generalizing mantissa with
  | zero =>
    refine ⟨0 * 0x800000 + mantissa, ?_, magnitude_mantissa (Nat.le_of_lt hmantissa) (.inl rfl)⟩
    unfold infinityBits
    omega
  | succ place ih =>
    rcases Nat.lt_or_ge mantissa 0x800000 with hshort | hlong
    · obtain ⟨bits, hbits, hmagnitude⟩ :=
        ih (by omega : 2 * mantissa < 0x1000000) (Nat.lt_of_succ_lt hplace)
      refine ⟨bits, hbits, ?_⟩
      rw [hmagnitude, Nat.pow_succ]
      ring
    · refine ⟨(place + 1) * 0x800000 + mantissa, ?_,
        magnitude_mantissa (Nat.le_of_lt hmantissa) (.inr hlong)⟩
      unfold infinityBits
      omega

variable {x : Float32} {n : Nat}

/-- A whole number of up to 24 bits is not changed by rounding. -/
theorem units_of_whole (hn : n < 0x1000000) (hx : x.isNaN = false)
    (h : Rounded (n * 2 ^ 149) (rank x)) :
    (units x : ℚ) = n * 2 ^ 149 ∧ x.isFinite = true := by
  obtain ⟨bits, hbits, hmagnitude⟩ := exists_magnitude hn (by decide : 149 < 254)
  have hsigned : (signedMagnitude bits : ℚ) = n * 2 ^ 149 := by
    rw [signedMagnitude_natCast, hmagnitude]
    push_cast
    rfl
  have hrounded := rounded_number (i := bits) (Nat.le_of_lt hbits)
  rw [hsigned] at hrounded
  have hrank := h.unique hrounded
  have hinfinity : infinityRank = infinityBits := rfl
  refine ⟨?_, isFinite_of_rank hx (by omega) (by omega)⟩
  rw [units, hrank, hsigned]

theorem rounded_word (code : UInt16) : Rounded (code.toNat * 2 ^ 149) (rank code.toFloat32) := by
  have h := rounded_normalize code.toNat 0 .positive
  exact_mod_cast h

theorem rounded_ofNat (hn : n < 2 ^ 64) : Rounded (n * 2 ^ 149) (rank (ofNat n)) := by
  have h := rounded_normalize (UInt64.ofNat n).toNat 0 .positive
  change Rounded _ (rank (ofNat n)) at h
  rw [UInt64.toNat_ofNat_of_lt' hn] at h
  exact_mod_cast h

theorem rank_ofNat_le {m n : Nat} (hle : m ≤ n) (hn : n < 2 ^ 64) :
    rank (ofNat m) ≤ rank (ofNat n) := by
  have hle' : (m : ℚ) ≤ n := by exact_mod_cast hle
  exact (rounded_ofNat (Nat.lt_of_le_of_lt hle hn)).mono (rounded_ofNat hn)
    (mul_le_mul_of_nonneg_right hle' (by positivity))

theorem units_word (code : UInt16) :
    (units code.toFloat32 : ℚ) = code.toNat * 2 ^ 149 ∧ code.toFloat32.isFinite = true :=
  units_of_whole (Nat.lt_trans code.toNat_lt (by decide)) (isNaN_ofUInt16 code) (rounded_word code)

theorem units_small (hn : n < 0x1000000) :
    (units (ofNat n) : ℚ) = n * 2 ^ 149 ∧ (ofNat n).isFinite = true :=
  units_of_whole hn (isNaN_ofNat n) (rounded_ofNat (Nat.lt_trans hn (by decide)))

/-! ### Units in order -/

variable {a b : Float32}

theorem units_le (h : rank a ≤ rank b) : (units a : ℚ) ≤ units b :=
  Int.cast_le.2 (signedMagnitude_le h)

theorem units_nonneg (h : 0 ≤ rank x) : (0 : ℚ) ≤ units x :=
  Int.cast_nonneg (signedMagnitude_le h)

theorem rank_pos_of_units (h : (0 : ℚ) < units x) : 0 < rank x :=
  signedMagnitude_lt_iff.1 (Int.cast_pos.1 h)

theorem rounded_self (h : x.isNaN = false) : Rounded (units x) (rank x) :=
  rounded_number (natAbs_le_infinity (ranked_unpack h))

end HashBoard.Single
