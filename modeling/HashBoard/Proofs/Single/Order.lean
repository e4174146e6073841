import HashBoard.Single.Basic

/-!
# The two orders of single-precision numbers

Readings are sorted by their bits and compared with thresholds as numbers. Away from NaN the two
orders agree, so what is at or above a threshold stays so for every reading sorted after it.
-/

namespace HashBoard.Single

open Float.Model (Format UnpackedFloat)
open Float.Model.UnpackedFloat (Sign unpackMantissa unpackExponent unpackSign)

/-! ### Bits -/

/-- The bits without the sign, counted downwards when the sign is set. -/
def rank (x : Float32) : Int :=
  if x.toBits.toNat < 0x80000000 then x.toBits.toNat else 0x80000000 - x.toBits.toNat

def infinityRank : Int := 255 * 0x800000

theorem rank_le_of_totalLe {a b : Float32} (h : totalLe a b = true) : rank a ≤ rank b := by
  have ha := a.toBits.toNat_lt
  have hb := b.toBits.toNat_lt
  have hkey : orderKey a.toBits ≤ orderKey b.toBits := of_decide_eq_true h
  unfold orderKey at hkey
  unfold rank
  by_cases hsa : a.toBits.toNat < 0x80000000
  · by_cases hsb : b.toBits.toNat < 0x80000000
    · simp only [if_pos hsa, if_pos hsb] at hkey ⊢
      omega
    · simp only [if_pos hsa, if_neg hsb] at hkey ⊢
      omega
  · by_cases hsb : b.toBits.toNat < 0x80000000
    · simp only [if_neg hsa, if_pos hsb]
      omega
    · simp only [if_neg hsa, if_neg hsb] at hkey ⊢
      omega

theorem bitsLe_refl (a : UInt32) : bitsLe a a = true := decide_eq_true (Nat.le_refl _)

theorem bitsLe_trans {a b c : UInt32} (hab : bitsLe a b = true) (hbc : bitsLe b c = true) :
    bitsLe a c = true :=
  decide_eq_true (Nat.le_trans (of_decide_eq_true hab) (of_decide_eq_true hbc))

theorem bitsLe_total (a b : UInt32) : (bitsLe a b || bitsLe b a) = true := by
  simp only [bitsLe, Bool.or_eq_true, decide_eq_true_eq]
  omega

/-- Nothing but equal bits is equal in the order. -/
theorem bitsLe_antisymm {a b : UInt32} (hab : bitsLe a b = true) (hba : bitsLe b a = true) :
    a = b := by
  have ha := a.toNat_lt
  have hb := b.toNat_lt
  have hkey : orderKey a = orderKey b :=
    Nat.le_antisymm (of_decide_eq_true hab) (of_decide_eq_true hba)
  apply UInt32.toNat_inj.1
  unfold orderKey at hkey
  dsimp only at hkey
  split at hkey <;> split at hkey <;> omega

theorem toNat_unpackMantissa (b : BitVec 32) :
    (@unpackMantissa Format.binary32 b).toNat = b.toNat % 0x800000 := by
  unfold unpackMantissa
  simp only [BitVec.toNat_cast, BitVec.extractLsb_toNat, Nat.shiftRight_zero]

theorem toNat_unpackExponent (b : BitVec 32) :
    (@unpackExponent Format.binary32 b).toNat = b.toNat / 0x800000 % 256 := by
  unfold unpackExponent
  simp only [BitVec.toNat_cast, BitVec.extractLsb_toNat, Nat.shiftRight_eq_div_pow]

theorem toNat_unpackSign (b : BitVec 32) :
    (@unpackSign Format.binary32 b).toNat = b.toNat / 0x80000000 := by
  unfold unpackSign
  simp only [BitVec.toNat_cast, BitVec.extractLsb_toNat, Nat.shiftRight_eq_div_pow]
  have hb := b.isLt
  show b.toNat / 0x80000000 % 2 = _
  omega

theorem toNat_one_append (mantissa : BitVec 23) :
    (1#1 ++ mantissa).toNat = 0x800000 + mantissa.toNat := by
  have hlt := mantissa.isLt
  rw [BitVec.toNat_append, ← Nat.shiftLeft_add_eq_or_of_lt hlt]
  rfl

def signOf (x : Float32) : Sign :=
  Sign.ofBitVec (@unpackSign Format.binary32 x.toBits.toBitVec)

theorem sign_apply {x : Float32} {n : Int} (hn : n = x.toBits.toNat % 0x80000000) :
    (signOf x).apply n = rank x := by
  have hsign := toNat_unpackSign x.toBits.toBitVec
  have hx := x.toBits.toNat_lt
  rw [UInt32.toNat_toBitVec] at hsign
  unfold signOf Sign.ofBitVec rank
  by_cases hlt : x.toBits.toNat < 0x80000000
  · have hzero : @unpackSign Format.binary32 x.toBits.toBitVec = 0#1 := by
      apply BitVec.eq_of_toNat_eq
      rw [hsign]
      exact Nat.div_eq_of_lt hlt
    rw [if_pos hzero, if_pos hlt]
    show n = _
    omega
  · have hone : @unpackSign Format.binary32 x.toBits.toBitVec ≠ 0#1 := by
      intro h
      have hz : x.toBits.toNat / 0x80000000 = 0 := by rw [← hsign, h]; rfl
      omega
    rw [if_neg hone, if_neg hlt]
    show -n = _
    omega

/-! ### Unpacked numbers -/

/-- The rank that an unpacked number had as bits. A mantissa has 24 bits; it is short only at the
lowest exponent. -/
inductive Ranked : UnpackedFloat → Int → Prop
  | infinity (sign : Sign) : Ranked (.infinity sign) (sign.apply infinityRank)
  | zero (sign : Sign) : Ranked (.zero sign) 0
  | finite (sign : Sign) {mantissa : Nat} {exponent : Int} (hpos : 0 < mantissa)
      (hlow : -149 ≤ exponent) (hhigh : exponent ≤ 104) (hmantissa : mantissa < 0x1000000)
      (hfull : exponent = -149 ∨ 0x800000 ≤ mantissa) :
      Ranked (.finite sign mantissa exponent hpos)
        (sign.apply ((exponent + 149) * 0x800000 + mantissa))

theorem ranked_finite {x : Float32} {mantissa : Nat} {exponent : Int} (hpos : 0 < mantissa)
    (hlow : -149 ≤ exponent) (hhigh : exponent ≤ 104) (hmantissa : mantissa < 0x1000000)
    (hfull : exponent = -149 ∨ 0x800000 ≤ mantissa)
    (hn : (exponent + 149) * 0x800000 + mantissa = x.toBits.toNat % 0x80000000) :
    Ranked (.finite (signOf x) mantissa exponent hpos) (rank x) := by
  rw [← sign_apply hn]
  exact .finite _ hpos hlow hhigh hmantissa hfull

theorem ranked_zero {x : Float32} (hn : x.toBits.toNat % 0x80000000 = 0) :
    Ranked (.zero (signOf x)) (rank x) := by
  have hx := x.toBits.toNat_lt
  have hrank : rank x = 0 := by
    unfold rank
    split <;> omega
  rw [hrank]
  exact .zero _

theorem ranked_unpack {x : Float32} (h : x.isNaN = false) : Ranked x.toModel.unpack (rank x) := by
  have hmantissa := toNat_unpackMantissa x.toBits.toBitVec
  have hexponent := toNat_unpackExponent x.toBits.toBitVec
  have hbias : (Format.binary32.exponentBias : Int) = 127 := rfl
  have hbits : Format.binary32.mantissaBitsWithoutImplicit = 23 := rfl
  rw [UInt32.toNat_toBitVec] at hmantissa hexponent
  change (UnpackedFloat.unpack Format.binary32 x.toBits.toBitVec).isNaN = false at h
  change Ranked (UnpackedFloat.unpack Format.binary32 x.toBits.toBitVec) _
  unfold UnpackedFloat.unpack at h ⊢
  by_cases hlast : @unpackExponent Format.binary32 x.toBits.toBitVec = -1#_
  · -- The last exponent is that of infinity and of the NaNs.
    rw [if_pos hlast] at h ⊢
    have h255 : (@unpackExponent Format.binary32 x.toBits.toBitVec).toNat = 255 := by
      rw [hlast]
      rfl
    by_cases hzero : @unpackMantissa Format.binary32 x.toBits.toBitVec = 0#_
    · have h0 : (@unpackMantissa Format.binary32 x.toBits.toBitVec).toNat = 0 := by
        rw [hzero]
        rfl
      have hn : infinityRank = x.toBits.toNat % 0x80000000 := by
        unfold infinityRank
        omega
      rw [if_pos hzero, ← sign_apply hn]
      exact .infinity _
    · rw [if_neg hzero] at h
      cases h
  · rw [if_neg hlast]
    have h255 : (@unpackExponent Format.binary32 x.toBits.toBitVec).toNat ≠ 255 :=
      fun h => hlast (BitVec.eq_of_toNat_eq h)
    by_cases hfirst : @unpackExponent Format.binary32 x.toBits.toBitVec = 0#_
    · -- Exponent 0 stands for the same power of two as exponent 1, without the leading bit.
      rw [if_pos hfirst]
      have h0 : (@unpackExponent Format.binary32 x.toBits.toBitVec).toNat = 0 := by
        rw [hfirst]
        rfl
      by_cases hzero : @unpackMantissa Format.binary32 x.toBits.toBitVec = 0#_
      · rw [dif_pos hzero]
        have hm : (@unpackMantissa Format.binary32 x.toBits.toBitVec).toNat = 0 := by
          rw [hzero]
          rfl
        exact ranked_zero (by omega)
      · rw [dif_neg hzero]
        have hm : (@unpackMantissa Format.binary32 x.toBits.toBitVec).toNat ≠ 0 :=
          fun h => hzero (BitVec.eq_of_toNat_eq h)
        exact ranked_finite (Nat.pos_of_ne_zero hm) (by omega) (by omega) (by omega) (by omega)
          (by omega)
    · rw [if_neg hfirst]
      have h0 : (@unpackExponent Format.binary32 x.toBits.toBitVec).toNat ≠ 0 :=
        fun h => hfirst (BitVec.eq_of_toNat_eq h)
      have hfull := toNat_one_append (@unpackMantissa Format.binary32 x.toBits.toBitVec)
      exact ranked_finite (by omega) (by omega) (by omega) (by omega) (by omega) (by omega)

/-! ### Comparison -/

theorem compare_finite {m n : Nat} {d e : Int} (hm : m < 0x1000000) (hn : n < 0x1000000)
    (hd : -149 ≤ d) (he : -149 ≤ e) (hmfull : d = -149 ∨ 0x800000 ≤ m)
    (hnfull : e = -149 ∨ 0x800000 ≤ n) :
    (compare d e).then (compare m n) =
      compare ((d + 149) * 0x800000 + m) ((e + 149) * 0x800000 + n) := by
  rcases Int.lt_trichotomy d e with hlt | heq | hgt
  · -- A larger exponent has a full mantissa, which outweighs any mantissa of the smaller one.
    have hplaces : (d + 149) * 0x800000 + m < (e + 149) * 0x800000 + n := by omega
    rw [Int.compare_eq_lt.2 hlt, Int.compare_eq_lt.2 hplaces]
    rfl
  · subst heq
    have hsame : compare d d = .eq := Int.compare_eq_eq.2 rfl
    rw [hsame]
    show compare m n = _
    rcases Nat.lt_trichotomy m n with hlt | heq | hgt
    · rw [Nat.compare_eq_lt.2 hlt, Int.compare_eq_lt.2 (by omega)]
    · rw [Nat.compare_eq_eq.2 heq, Int.compare_eq_eq.2 (by omega)]
    · rw [Nat.compare_eq_gt.2 hgt, Int.compare_eq_gt.2 (by omega)]
  · have hplaces : (e + 149) * 0x800000 + n < (d + 149) * 0x800000 + m := by omega
    rw [Int.compare_eq_gt.2 hgt, Int.compare_eq_gt.2 hplaces]
    rfl

theorem compare_neg (i j : Int) : compare (-i) (-j) = (compare i j).swap := by
  rw [Int.compare_swap]
  rcases Int.lt_trichotomy i j with hlt | heq | hgt
  · rw [Int.compare_eq_gt.2 hlt, Int.compare_eq_gt.2 (by omega)]
  · rw [Int.compare_eq_eq.2 heq.symm, Int.compare_eq_eq.2 (by omega)]
  · rw [Int.compare_eq_lt.2 hgt, Int.compare_eq_lt.2 (by omega)]

theorem apply_within {n : Int} (s : Sign) (hpos : 0 < n) (hlt : n < infinityRank) :
    -infinityRank < s.apply n ∧ s.apply n < infinityRank := by
  cases s with
  | negative =>
    show -infinityRank < -n ∧ -n < infinityRank
    omega
  | positive =>
    show -infinityRank < n ∧ n < infinityRank
    omega

theorem Ranked.compare_eq {u v : UnpackedFloat} {i j : Int} (hu : Ranked u i) (hv : Ranked v j) :
    u.compare v = some (compare i j) := by
  cases hu with
  | infinity s =>
    cases hv with
    | infinity t => cases s <;> cases t <;> rfl
    | zero t => cases s <;> rfl
    | @finite t n e hpos hlow hhigh hmantissa hfull =>
      have hplace : 0 < (e + 149) * 0x800000 + n := by omega
      obtain ⟨habove, hbelow⟩ := apply_within t hplace (by unfold infinityRank; omega)
      cases s with
      | negative => exact congrArg some (Int.compare_eq_lt.2 habove).symm
      | positive => exact congrArg some (Int.compare_eq_gt.2 hbelow).symm
  | zero s =>
    cases hv with
    | infinity t => cases t <;> rfl
    | zero t => rfl
    | @finite t n e hpos hlow hhigh hmantissa hfull =>
      have hplace : 0 < (e + 149) * 0x800000 + n := by omega
      cases t with
      | negative => exact congrArg some (Int.compare_eq_gt.2 (Int.neg_neg_of_pos hplace)).symm
      | positive => exact congrArg some (Int.compare_eq_lt.2 hplace).symm
  | @finite s m d hpos hlow hhigh hmantissa hfull =>
    have hplace : 0 < (d + 149) * 0x800000 + m := by omega
    cases hv with
    | infinity t =>
      obtain ⟨habove, hbelow⟩ := apply_within s hplace (by unfold infinityRank; omega)
      cases t with
      | negative =>
        refine Eq.trans ?_ (congrArg some (Int.compare_eq_gt.2 habove).symm)
        cases s <;> rfl
      | positive =>
        refine Eq.trans ?_ (congrArg some (Int.compare_eq_lt.2 hbelow).symm)
        cases s <;> rfl
    | zero t =>
      cases s with
      | negative => exact congrArg some (Int.compare_eq_lt.2 (Int.neg_neg_of_pos hplace)).symm
      | positive => exact congrArg some (Int.compare_eq_gt.2 hplace).symm
    | @finite t n e hpos' hlow' hhigh' hmantissa' hfull' =>
      have hplace' : 0 < (e + 149) * 0x800000 + n := by omega
      have hsame := compare_finite hmantissa hmantissa' hlow hlow' hfull hfull'
      cases s with
      | negative =>
        cases t with
        | negative =>
          show some ((compare d e).then (compare m n)).swap = some (compare (-_) (-_))
          rw [hsame, compare_neg]
        | positive =>
          have hlt : -((d + 149) * 0x800000 + m) < (e + 149) * 0x800000 + n := by omega
          exact congrArg some (Int.compare_eq_lt.2 hlt).symm
      | positive =>
        cases t with
        | negative =>
          have hlt : -((e + 149) * 0x800000 + n) < (d + 149) * 0x800000 + m := by omega
          exact congrArg some (Int.compare_eq_gt.2 hlt).symm
        | positive => exact congrArg some hsame

theorem le_iff_compare {a b : Float32} :
    a ≤ b ↔ (a.toModel.unpack.compare b.toModel.unpack).any Ordering.isLE = true := by
  show decide (a.toModel ≤ b.toModel) = true ↔ _
  rw [decide_eq_true_iff]
  rfl

theorem le_iff_rank_le {a b : Float32} (ha : a.isNaN = false) (hb : b.isNaN = false) :
    a ≤ b ↔ rank a ≤ rank b := by
  rw [le_iff_compare, (ranked_unpack ha).compare_eq (ranked_unpack hb)]
  exact Int.isLE_compare

/-- Only numbers can be compared. -/
theorem not_isNaN_of_compare {a b : Float32} {order : Ordering}
    (h : a.toModel.unpack.compare b.toModel.unpack = some order) :
    a.isNaN = false ∧ b.isNaN = false := by
  show a.toModel.unpack.isNaN = false ∧ b.toModel.unpack.isNaN = false
  cases ha : a.toModel.unpack with
  | notANumber =>
    rw [ha] at h
    cases h
  | _ =>
    cases hb : b.toModel.unpack with
    | notANumber =>
      rw [ha, hb] at h
      cases h
    | _ => exact ⟨rfl, rfl⟩

theorem not_isNaN_of_le {a b : Float32} (h : a ≤ b) : a.isNaN = false ∧ b.isNaN = false := by
  obtain ⟨_, hcompare, _⟩ := (Option.any_eq_true _ _).1 (le_iff_compare.1 h)
  exact not_isNaN_of_compare hcompare

/-- A number sorted after one at or above a threshold is at or above it, unless it is no number. -/
theorem le_of_le_of_totalLe {a b c : Float32} (hab : a ≤ b) (hbc : totalLe b c = true)
    (hc : c.isNaN = false) : a ≤ c := by
  obtain ⟨ha, hb⟩ := not_isNaN_of_le hab
  have hrank : rank a ≤ rank b := (le_iff_rank_le ha hb).1 hab
  exact (le_iff_rank_le ha hc).2 (Int.le_trans hrank (rank_le_of_totalLe hbc))

end HashBoard.Single
