import HashBoard.Proofs.Single.Ranges
import Mathlib.Tactic.Linarith

/-!
# Rounding to the nearest number

Of the numbers without a sign the one nearest to an amount is taken, and of two equally near ones
the one with even bits. What is taken depends on the amount alone and keeps the order of amounts,
and an amount that is a number already stays as it is. A mantissa that has lost bits still shows
enough of its amount to be rounded in this way.
-/

namespace HashBoard.Single

open Float.Model (Format totalExponent)
open Float.Model.UnpackedFloat (Accuracy ExtendedMantissa Sign roundWithAccuracy
  shiftToTargetExponent shiftToExponent)

/-! ### The nearest number -/

def infinityBits : Nat := 255 * 0x800000

/-- An amount is rounded to one of some rising numbers that comes no later than the one at `place`:
it is nearer to that one than to the next, or just as near and the place is even. -/
def RoundsBy (numbers : Nat → Nat) (amount : ℚ) (place : Nat) : Prop :=
  2 * amount < numbers place + numbers (place + 1) ∨
    2 * amount = numbers place + numbers (place + 1) ∧ place % 2 = 0

theorem RoundsBy.le {numbers : Nat → Nat} {amount : ℚ} {place : Nat}
    (h : RoundsBy numbers amount place) : 2 * amount ≤ numbers place + numbers (place + 1) := by
  rcases h with hlt | ⟨heq, _⟩
  · exact hlt.le
  · exact heq.le

/-- Halfway between two whole numbers. -/
theorem roundsBy_id {amount : ℚ} {place : Nat} : RoundsBy id amount place ↔
    2 * amount < 2 * place + 1 ∨ 2 * amount = 2 * place + 1 ∧ place % 2 = 0 := by
  have hhalf : ((id place : Nat) : ℚ) + (id (place + 1) : Nat) = 2 * place + 1 := by
    simp only [id]
    push_cast
    ring
  unfold RoundsBy
  rw [hhalf]

/-- The bits of the number nearest to an amount of units. -/
structure Nearest (amount : ℚ) (bits : Nat) : Prop where
  le_infinity : bits ≤ infinityBits
  le_iff : ∀ place < infinityBits, bits ≤ place ↔ RoundsBy magnitude amount place

theorem RoundsBy.mono {numbers : Nat → Nat} {less amount : ℚ} {place : Nat}
    (h : RoundsBy numbers amount place) (hle : less ≤ amount) : RoundsBy numbers less place := by
  rcases h with hlt | ⟨heq, heven⟩
  · exact .inl (by linarith)
  · rcases lt_or_eq_of_le hle with hless | rfl
    · exact .inl (by linarith)
    · exact .inr ⟨heq, heven⟩

theorem Nearest.mono {less amount : ℚ} {m n : Nat} (hm : Nearest less m) (hn : Nearest amount n)
    (hle : less ≤ amount) : m ≤ n := by
  rcases Nat.lt_or_ge n infinityBits with hlt | hge
  · exact (hm.le_iff n hlt).2 (((hn.le_iff n hlt).1 (Nat.le_refl n)).mono hle)
  · exact Nat.le_trans hm.le_infinity hge

theorem magnitude_le {m n : Nat} (h : m ≤ n) : magnitude m ≤ magnitude n := by
  rcases Nat.lt_or_eq_of_le h with hlt | rfl
  · exact Nat.le_of_lt (magnitude_lt hlt)
  · exact Nat.le_refl _

theorem nearest_magnitude {bits : Nat} (h : bits ≤ infinityBits) :
    Nearest (magnitude bits) bits := by
  refine ⟨h, fun place _ => ?_⟩
  have hstep : (magnitude place : ℚ) < magnitude (place + 1) := by
    exact_mod_cast magnitude_lt_succ place
  rcases Nat.lt_or_ge place bits with hlt | hge
  · have hbits : (magnitude (place + 1) : ℚ) ≤ magnitude bits := by exact_mod_cast magnitude_le hlt
    refine ⟨fun hle => absurd hle (Nat.not_le.2 hlt), fun hrounds => ?_⟩
    have hhalf := hrounds.le
    linarith
  · have hbits : (magnitude bits : ℚ) ≤ magnitude place := by exact_mod_cast magnitude_le hge
    exact ⟨fun _ => .inl (by linarith), fun _ => hge⟩

/-! ### Mantissas with lost bits -/

/-- The amount that a mantissa stands for together with a bit for the half below it and one that
tells whether anything is left below that. -/
def Shows (em : ExtendedMantissa) (amount : ℚ) : Prop :=
  ∃ rest : ℚ, 0 ≤ rest ∧ rest < 1 ∧ (em.stickyBit = true ↔ 0 < rest) ∧
    2 * amount = 2 * em.mantissa + em.roundBit.toNat + rest

theorem Shows.bounds {em : ExtendedMantissa} {amount : ℚ} (h : Shows em amount) :
    em.mantissa ≤ amount ∧ amount < em.mantissa + 1 := by
  obtain ⟨rest, hnonneg, hlt, _, hamount⟩ := h
  have hbit : (0 : ℚ) ≤ em.roundBit.toNat ∧ (em.roundBit.toNat : ℚ) ≤ 1 := by
    cases em.roundBit <;> norm_num
  constructor <;> linarith

theorem Shows.shiftRightOne {em : ExtendedMantissa} {amount : ℚ} (h : Shows em amount) :
    Shows em.shiftRightOne (amount / 2) := by
  obtain ⟨rest, hnonneg, hlt, hsticky, hamount⟩ := h
  have hdigits : (em.mantissa : ℚ) =
      2 * (em.mantissa / 2 : Nat) + (em.mantissa % 2 != 0).toNat := by
    have hbit : (em.mantissa % 2 != 0).toNat = em.mantissa % 2 := by
      rcases Nat.mod_two_eq_zero_or_one em.mantissa with hmod | hmod <;> rw [hmod] <;> rfl
    rw [hbit]
    exact_mod_cast (Nat.div_add_mod em.mantissa 2).symm
  -- The old half and what was below it are now what is left below the new half.
  refine ⟨(em.roundBit.toNat + rest) / 2, ?_, ?_, ?_, ?_⟩
  · positivity
  · cases em.roundBit <;> norm_num <;> linarith
  · show (em.roundBit || em.stickyBit) = true ↔ _
    rw [Bool.or_eq_true, hsticky]
    cases em.roundBit
    · norm_num
    · norm_num
      linarith
  · show 2 * (amount / 2) = 2 * ((em.mantissa / 2 : Nat) : ℚ) + (em.mantissa % 2 != 0).toNat + _
    linarith

theorem Shows.shiftRight {em : ExtendedMantissa} {amount : ℚ} (h : Shows em amount) (k : Nat) :
    Shows (em >>> k) (amount / 2 ^ k) := by
  induction k with
  | zero =>
    rw [pow_zero, div_one]
    exact h
  | succ k ih =>
    rw [pow_succ, ← div_div]
    exact ih.shiftRightOne

theorem shows_exact (mantissa : Nat) :
    Shows (ExtendedMantissa.ofMantissaAndAccuracy mantissa .exact) mantissa := by
  refine ⟨0, le_refl 0, zero_lt_one, ?_, ?_⟩
  · exact ⟨nofun, fun h => absurd h (lt_irrefl 0)⟩
  · show 2 * (mantissa : ℚ) = 2 * mantissa + (0 : Nat) + 0
    norm_num

/-- A mantissa is rounded to the nearest whole number, a half to the even one. -/
theorem Shows.rounded_le_iff {em : ExtendedMantissa} {amount : ℚ} (h : Shows em amount)
    (place : Nat) : em.roundedMantissa ≤ place ↔ RoundsBy id amount place := by
  obtain ⟨hleast, hmost⟩ := roundedMantissa_bounds em
  obtain ⟨hlow, hhigh⟩ := h.bounds
  rcases Nat.lt_trichotomy em.mantissa place with hbelow | rfl | habove
  · have hplace : (em.mantissa : ℚ) + 1 ≤ place := by exact_mod_cast hbelow
    exact ⟨fun _ => roundsBy_id.2 (.inl (by linarith)), fun _ => by omega⟩
  · obtain ⟨mantissa, half, sticky⟩ := em
    obtain ⟨rest, hnonneg, hlt, hsticky, hamount⟩ := h
    rw [roundsBy_id, hamount]
    dsimp only at hsticky ⊢
    cases half with
    | false =>
      -- Less than half is left.
      refine ⟨fun _ => .inl ?_, fun _ => ?_⟩
      · show 2 * (mantissa : ℚ) + (0 : Nat) + rest < _
        push_cast
        linarith
      · cases sticky <;> exact Nat.le_refl _
    | true =>
      have hround : (true.toNat : ℚ) = 1 := Nat.cast_one
      rw [hround]
      cases sticky with
      | false =>
        -- The half itself is left, so that the last bit decides.
        obtain rfl : rest = 0 := le_antisymm (not_lt.1 fun h => nomatch hsticky.2 h) hnonneg
        show mantissa + mantissa % 2 ≤ mantissa ↔ _
        refine ⟨fun hle => .inr ⟨add_zero _, by omega⟩, ?_⟩
        rintro (hless | ⟨_, heven⟩)
        · linarith
        · omega
      | true =>
        have hrest : 0 < rest := hsticky.1 rfl
        show mantissa + 1 ≤ mantissa ↔ _
        refine ⟨fun hle => absurd hle (Nat.not_succ_le_self _), ?_⟩
        rintro (hless | ⟨heq, _⟩)
        · linarith
        · linarith
  · have hplace : (place : ℚ) + 1 ≤ em.mantissa := by exact_mod_cast habove
    rw [roundsBy_id]
    refine ⟨fun hle => absurd hle (by omega), ?_⟩
    rintro (hless | ⟨heq, _⟩)
    · linarith
    · linarith

/-! ### Mantissas in place -/

/-- Within a place the numbers are spaced like the whole mantissas. -/
theorem roundsBy_mantissa {amount : ℚ} {place mantissa : Nat} (hlt : mantissa < 0x1000000)
    (hfull : place = 0 ∨ 0x800000 ≤ mantissa) :
    RoundsBy magnitude (amount * 2 ^ place) (place * 0x800000 + mantissa) ↔
      RoundsBy id amount mantissa := by
  have hpower : (0 : ℚ) < 2 ^ place := by positivity
  have hparity : (place * 0x800000 + mantissa) % 2 = mantissa % 2 := by omega
  have hhalfway : (magnitude (place * 0x800000 + mantissa) : ℚ) +
      magnitude (place * 0x800000 + mantissa + 1) =
        ((mantissa : ℚ) + (mantissa + 1 : Nat)) * 2 ^ place := by
    rw [Nat.add_assoc, magnitude_mantissa (Nat.le_of_lt hlt) hfull,
      magnitude_mantissa hlt (by omega)]
    push_cast
    ring
  unfold RoundsBy
  rw [hhalfway, hparity, ← mul_assoc, mul_lt_mul_iff_left₀ hpower,
    mul_left_inj' (ne_of_gt hpower)]
  rfl

/-- A mantissa rounded to a whole number has the bits of the number nearest to the amount, also
where it is carried into the next place or beyond the last one. -/
theorem nearest_of_mantissa {amount : ℚ} {rounded place : Nat} (hlt : amount < 0x1000000)
    (hfull : place = 0 ∨ 0x800000 ≤ amount)
    (hrounded : ∀ mantissa, rounded ≤ mantissa ↔ RoundsBy id amount mantissa) :
    Nearest (amount * 2 ^ place) (Min.min (place * 0x800000 + rounded) infinityBits) := by
  have hpower : (0 : ℚ) < 2 ^ place := by positivity
  have hmost : rounded ≤ 0x1000000 := by
    refine (hrounded _).2 (roundsBy_id.2 (.inl ?_))
    push_cast
    linarith
  refine ⟨Nat.min_le_right _ _, fun bits hbits => ?_⟩
  have hcut : Min.min (place * 0x800000 + rounded) infinityBits ≤ bits ↔
      place * 0x800000 + rounded ≤ bits := by omega
  rw [hcut]
  rcases Nat.lt_or_ge bits (place * 0x800000 + 0x1000000) with hwithin | hbeyond
  · by_cases hbelow : place ≠ 0 ∧ bits < place * 0x800000 + 0x800000
    · -- All numbers of the place come later, the first of them included.
      have hamount := hfull.resolve_left hbelow.1
      have hleast : 0x800000 ≤ rounded := by
        by_contra hless
        have hhalf := ((hrounded 0x7fffff).1 (by omega)).le
        simp only [id] at hhalf
        push_cast at hhalf
        linarith
      have hnumber : magnitude (bits + 1) ≤ 0x800000 * 2 ^ place := by
        rw [← magnitude_mantissa (by decide) (.inr (Nat.le_refl 0x800000))]
        exact magnitude_le (by omega)
      have hnumber' : (magnitude (bits + 1) : ℚ) ≤ 0x800000 * 2 ^ place := by
        exact_mod_cast hnumber
      have hstep : (magnitude bits : ℚ) < magnitude (bits + 1) := by
        exact_mod_cast magnitude_lt_succ bits
      have hplace := mul_le_mul_of_nonneg_right hamount hpower.le
      refine ⟨fun hle => absurd hle (by omega), fun hrounds => ?_⟩
      have hhalf := hrounds.le
      linarith
    · obtain ⟨mantissa, rfl⟩ : ∃ mantissa, bits = place * 0x800000 + mantissa :=
        ⟨bits - place * 0x800000, by omega⟩
      rw [roundsBy_mantissa (by omega) (by omega), ← hrounded, Nat.add_le_add_iff_left]
  · have hnumber : 0x1000000 * 2 ^ place ≤ magnitude bits := by
      rw [← magnitude_mantissa (Nat.le_refl _) (.inr (by decide))]
      exact magnitude_le hbeyond
    have hnumber' : 0x1000000 * 2 ^ place ≤ (magnitude bits : ℚ) := by exact_mod_cast hnumber
    have hstep : (magnitude bits : ℚ) < magnitude (bits + 1) := by
      exact_mod_cast magnitude_lt_succ bits
    have hplace := mul_lt_mul_of_pos_right hlt hpower
    exact ⟨fun _ => .inl (by linarith), fun _ => by omega⟩

/-! ### Rounded and packed -/

/-- A number that is packed keeps its rank unless it comes after the last finite one. -/
theorem rank_pack_mantissa (sign : Sign) {mantissa : Nat} {exponent : Int} (hpos : 0 < mantissa)
    (hlow : -149 ≤ exponent) (hmantissa : mantissa < 0x1000000)
    (hfull : exponent = -149 ∨ 0x800000 ≤ mantissa) :
    rank (Float32.ofModel (Float32.Model.pack (.finite sign mantissa exponent hpos))) =
      sign.apply (Min.min ((exponent + 149).toNat * 0x800000 + mantissa) infinityBits : Nat) := by
  rcases Int.lt_or_le 104 exponent with hover | hhigh
  · have hbits := toBits_pack_finite sign exponent hpos
    rw [if_pos (by omega)] at hbits
    have hlast : ((-1#8).toNat * 0x800000 + (0#23).toNat : Int) = infinityBits := by decide
    have hmin : Min.min ((exponent + 149).toNat * 0x800000 + mantissa) infinityBits =
        infinityBits := by
      unfold infinityBits
      omega
    rw [hmin, ← hlast]
    exact rank_of_components hbits
  · rw [rank_pack (.finite sign hpos hlow hhigh hmantissa hfull)]
    congr 1
    unfold infinityBits
    omega

/-- The exponent at which a mantissa has 24 bits, or the lowest one. -/
theorem targetExponent_eq (mantissa : Nat) (exponent : Int) :
    Format.binary32.targetExponent (totalExponent mantissa exponent) =
      Max.max ((mantissa.log2 : Int) + 1 + exponent - 24) (-149) := rfl

theorem shiftToTarget_short {mantissa : Nat} {exponent : Int} (hmantissa : mantissa < 0x1000000)
    (hlow : -149 ≤ exponent) :
    shiftToTargetExponent Format.binary32 mantissa exponent .exact =
      (⟨mantissa, false, false⟩, exponent) := by
  have hlog : mantissa.log2 < 24 := by
    rcases Nat.eq_zero_or_pos mantissa with rfl | hpos
    · decide
    · exact (Nat.log2_lt (Nat.ne_of_gt hpos)).2 hmantissa
  have hshift : (Format.binary32.targetExponent (totalExponent mantissa exponent) -
      exponent).toNat = 0 := by
    rw [targetExponent_eq]
    omega
  unfold shiftToTargetExponent shiftToExponent
  dsimp only
  rw [hshift]
  exact congrArg _ (Int.add_zero exponent)

theorem shiftToTarget_carry {exponent : Int} (hlow : -149 ≤ exponent) :
    shiftToTargetExponent Format.binary32 0x1000000 exponent .exact =
      (⟨0x800000, false, false⟩, exponent + 1) := by
  have hlog : Nat.log2 0x1000000 = 24 := by decide
  have htarget : Format.binary32.targetExponent (totalExponent 0x1000000 exponent) =
      exponent + 1 := by
    rw [targetExponent_eq, hlog]
    omega
  have hshift : (exponent + 1 - exponent).toNat = 1 := by omega
  rw [shiftToTarget_eq _ _ htarget (by omega), hshift]
  rfl

theorem roundWithAccuracy_eq (sign : Sign) {mantissa final : Nat} {exponent target last : Int}
    {accuracy : Accuracy} {em : ExtendedMantissa}
    (hfirst : shiftToTargetExponent Format.binary32 mantissa exponent accuracy = (em, target))
    (hsecond : shiftToTargetExponent Format.binary32 em.roundedMantissa target .exact =
      (⟨final, false, false⟩, last)) :
    roundWithAccuracy Format.binary32 sign mantissa exponent accuracy =
      if h : final = 0 then .zero sign else .finite sign final last (Nat.pos_of_ne_zero h) := by
  unfold roundWithAccuracy
  rw [hfirst]
  dsimp only
  rw [hsecond]

/-- What is rounded to 24 bits and packed has the bits that its place and its mantissa add up to. -/
theorem rank_pack_rounded (sign : Sign) {mantissa : Nat} {exponent target : Int}
    {accuracy : Accuracy} {em : ExtendedMantissa}
    (hfirst : shiftToTargetExponent Format.binary32 mantissa exponent accuracy = (em, target))
    (hlow : -149 ≤ target) (hmost : em.roundedMantissa ≤ 0x1000000)
    (hfull : target = -149 ∨ 0x800000 ≤ em.roundedMantissa) :
    rank (Float32.ofModel (Float32.Model.pack
        (roundWithAccuracy Format.binary32 sign mantissa exponent accuracy))) =
      sign.apply
        (Min.min ((target + 149).toNat * 0x800000 + em.roundedMantissa) infinityBits : Nat) := by
  rcases Nat.lt_or_eq_of_le hmost with hlt | hcarry
  · rw [roundWithAccuracy_eq sign hfirst (shiftToTarget_short hlt hlow)]
    by_cases hzero : em.roundedMantissa = 0
    · obtain rfl : target = -149 := by omega
      rw [dif_pos hzero, hzero, rank_pack (.zero sign)]
      cases sign <;> rfl
    · rw [dif_neg hzero]
      exact rank_pack_mantissa sign _ hlow hlt hfull
  · have hsecond := shiftToTarget_carry hlow
    have hbits : (target + 1 + 149).toNat * 0x800000 + 0x800000 =
        (target + 149).toNat * 0x800000 + 0x1000000 := by omega
    rw [← hcarry] at hsecond
    rw [roundWithAccuracy_eq sign hfirst hsecond, dif_neg (by decide),
      rank_pack_mantissa sign (by decide) (by omega) (by decide) (.inr (Nat.le_refl _)), hcarry,
      hbits]

theorem mantissa_of_accuracy (mantissa : Nat) (accuracy : Accuracy) :
    (ExtendedMantissa.ofMantissaAndAccuracy mantissa accuracy).mantissa = mantissa := by
  cases accuracy with
  | exact => rfl
  | inexact order => cases order <;> rfl

/-- At its target a mantissa has at most 24 bits, and fewer only at the lowest exponent. -/
theorem shifted_bounds {mantissa shift : Nat} {exponent target : Int}
    (htarget : Format.binary32.targetExponent (totalExponent mantissa exponent) = target)
    (hshift : target - exponent = shift) :
    mantissa / 2 ^ shift < 0x1000000 ∧ (target = -149 ∨ 0x800000 ≤ mantissa / 2 ^ shift) := by
  rw [targetExponent_eq] at htarget
  have hpower : 0 < 2 ^ shift := Nat.two_pow_pos shift
  constructor
  · have hbits : 2 ^ (mantissa.log2 + 1) ≤ 2 ^ (24 + shift) :=
      Nat.pow_le_pow_right (by decide) (by omega)
    rw [Nat.div_lt_iff_lt_mul hpower]
    calc mantissa < 2 ^ (mantissa.log2 + 1) := Nat.lt_log2_self
      _ ≤ 2 ^ (24 + shift) := hbits
      _ = 0x1000000 * 2 ^ shift := Nat.pow_add 2 24 shift
  · by_cases hlowest : target = -149
    · exact .inl hlowest
    · have hlog : mantissa.log2 = 23 + shift := by omega
      have hne : mantissa ≠ 0 := by
        rintro rfl
        rw [Nat.log2_zero] at hlog
        omega
      refine .inr ((Nat.le_div_iff_mul_le hpower).2 ?_)
      calc 0x800000 * 2 ^ shift = 2 ^ mantissa.log2 := by rw [hlog, Nat.pow_add]
        _ ≤ mantissa := Nat.log2_self_le hne

/-- The result of rounding has the bits of the number nearest to the amount, provided that no bit
of its mantissa is missing. -/
theorem nearest_roundWithAccuracy (sign : Sign) {mantissa : Nat} {exponent : Int}
    {accuracy : Accuracy} {amount : ℚ}
    (hshows : Shows (ExtendedMantissa.ofMantissaAndAccuracy mantissa accuracy) amount)
    (hexponent : exponent ≤ Format.binary32.targetExponent (totalExponent mantissa exponent)) :
    ∃ bits : Nat, Nearest (amount * 2 ^ (exponent + 149)) bits ∧
      rank (Float32.ofModel (Float32.Model.pack
        (roundWithAccuracy Format.binary32 sign mantissa exponent accuracy))) =
          sign.apply bits := by
  obtain ⟨target, htarget⟩ : ∃ target, Format.binary32.targetExponent
    (totalExponent mantissa exponent) = target := ⟨_, rfl⟩
  rw [htarget] at hexponent
  have hlow : -149 ≤ target := by
    rw [← htarget, targetExponent_eq]
    exact Int.le_max_right _ _
  have hfirst := shiftToTarget_eq mantissa accuracy htarget hexponent
  obtain ⟨shift, hshift⟩ := Int.eq_ofNat_of_zero_le (Int.sub_nonneg_of_le hexponent)
  obtain ⟨place, hplace⟩ := Int.eq_ofNat_of_zero_le (by omega : 0 ≤ target + 149)
  obtain ⟨hfits, hfull⟩ := shifted_bounds htarget hshift
  rw [hshift, Int.toNat_natCast] at hfirst
  have hshown := hshows.shiftRight shift
  rw [← mantissa_of_accuracy mantissa accuracy, ← mantissa_shiftRight] at hfits hfull
  generalize ExtendedMantissa.ofMantissaAndAccuracy mantissa accuracy >>> shift = em at *
  obtain ⟨hleast, hmost⟩ := hshown.bounds
  have hrounded := roundedMantissa_bounds em
  have hscale : amount * 2 ^ (exponent + 149) = amount / 2 ^ shift * 2 ^ place := by
    have hsum : exponent + 149 = (place : Int) - shift := by omega
    rw [hsum, zpow_sub₀ two_ne_zero, zpow_natCast, zpow_natCast]
    ring
  have hfits' : (em.mantissa : ℚ) + 1 ≤ 0x1000000 := by exact_mod_cast hfits
  have hfull' : place = 0 ∨ 0x800000 ≤ amount / 2 ^ shift := by
    rcases hfull with hlowest | hlong
    · exact .inl (by omega)
    · have hlong' : 0x800000 ≤ (em.mantissa : ℚ) := by exact_mod_cast hlong
      exact .inr (hlong'.trans hleast)
  refine ⟨_, hscale ▸ nearest_of_mantissa (hmost.trans_le hfits') hfull' hshown.rounded_le_iff, ?_⟩
  rw [rank_pack_rounded sign hfirst hlow (by omega) (by omega), hplace, Int.toNat_natCast]

end HashBoard.Single
