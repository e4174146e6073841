import HashBoard.Proofs.Single.Exact

/-!
# Numbers brought into a range

A number keeps its rank when it is packed, so a change of sign mirrors ranks and the range around
zero up to a number's size is never empty. A maximum and a minimum that pass over a NaN bring
whatever they are given into a range of numbers.
-/

namespace HashBoard.Single

open Float.Model (Format UnpackedFloat)
open Float.Model.UnpackedFloat (Sign packComponents)

/-! ### Packed numbers -/

theorem toNat_packComponents (sign : Sign) (exponent : BitVec 8) (mantissa : BitVec 23) :
    (packComponents Format.binary32 sign exponent mantissa).toNat =
      sign.toBitVec.toNat * 0x80000000 + exponent.toNat * 0x800000 + mantissa.toNat := by
  show ((sign.toBitVec ++ exponent) ++ mantissa).toNat = _
  rw [BitVec.toNat_append, ← Nat.shiftLeft_add_eq_or_of_lt mantissa.isLt, BitVec.toNat_append,
    ← Nat.shiftLeft_add_eq_or_of_lt exponent.isLt, Nat.shiftLeft_eq, Nat.shiftLeft_eq]
  omega

theorem rank_of_components {x : Float32} {sign : Sign} {exponent : BitVec 8}
    {mantissa : BitVec 23}
    (h : x.toBits.toBitVec = packComponents Format.binary32 sign exponent mantissa) :
    rank x = sign.apply (exponent.toNat * 0x800000 + mantissa.toNat) := by
  have hbits : x.toBits.toNat = sign.toBitVec.toNat * 0x80000000 + exponent.toNat * 0x800000 +
      mantissa.toNat := by
    rw [← toNat_packComponents, ← h, UInt32.toNat_toBitVec]
  have hexponent := exponent.isLt
  have hmantissa := mantissa.isLt
  unfold rank
  rw [hbits]
  cases sign with
  | positive =>
    have hsign : (Sign.positive.toBitVec).toNat = 0 := rfl
    show _ = ((exponent.toNat : Int) * 0x800000 + mantissa.toNat)
    rw [hsign, if_pos (by omega)]
    push_cast
    omega
  | negative =>
    have hsign : (Sign.negative.toBitVec).toNat = 1 := rfl
    show _ = -((exponent.toNat : Int) * 0x800000 + mantissa.toNat)
    rw [hsign, if_neg (by omega)]
    push_cast
    omega

/-- An exponent beyond the last one gives infinity, and a short mantissa is packed with exponent
zero. -/
theorem toBits_pack_finite (sign : Sign) {mantissa : Nat} (exponent : Int) (hpos : 0 < mantissa) :
    (Float32.ofModel (Float32.Model.pack (.finite sign mantissa exponent hpos))).toBits.toBitVec =
      if 256 ≤ (exponent + 127 + 23).toNat + 1 then UnpackedFloat.packedInfinity .binary32 sign
      else if mantissa.log2 + 1 = 24 then
        packComponents .binary32 sign (BitVec.ofNat 8 (exponent + 127 + 23).toNat)
          (BitVec.ofNat 23 mantissa)
      else packComponents .binary32 sign 0#8 (BitVec.ofNat 23 mantissa) :=
  rfl

theorem rank_pack {u : UnpackedFloat} {i : Int} (h : Ranked u i) :
    rank (Float32.ofModel (Float32.Model.pack u)) = i := by
  cases h with
  | infinity sign =>
    have hbits : (Float32.ofModel (Float32.Model.pack (.infinity sign))).toBits.toBitVec =
        packComponents .binary32 sign (-1#8) 0#23 := rfl
    have hlast : ((-1#8).toNat * 0x800000 + (0#23).toNat : Int) = infinityRank := by decide
    rw [rank_of_components hbits, hlast]
  | zero sign =>
    have hbits : (Float32.ofModel (Float32.Model.pack (.zero sign))).toBits.toBitVec =
        packComponents .binary32 sign 0#8 0#23 := rfl
    rw [rank_of_components hbits]
    cases sign <;> decide
  | @finite sign mantissa exponent hpos hlow hhigh hmantissa hfull =>
    have hlog {k : Nat} : mantissa.log2 < k ↔ mantissa < 2 ^ k := Nat.log2_lt (Nat.ne_of_gt hpos)
    have hplace : (BitVec.ofNat 8 (exponent + 127 + 23).toNat).toNat = (exponent + 150).toNat := by
      rw [BitVec.toNat_ofNat]
      omega
    have hrest : (BitVec.ofNat 23 mantissa).toNat = mantissa % 0x800000 := BitVec.toNat_ofNat _ _
    have hbits := toBits_pack_finite sign exponent hpos
    rw [if_neg (by omega)] at hbits
    rcases Nat.lt_or_ge mantissa 0x800000 with hshort | hlong
    · have hfewer : mantissa.log2 < 23 := hlog.2 hshort
      rw [if_neg (by omega)] at hbits
      rw [rank_of_components hbits, hrest, BitVec.toNat_ofNat]
      congr 1
      omega
    · have hmost : mantissa.log2 < 24 := hlog.2 hmantissa
      have hleast : ¬mantissa.log2 < 23 := fun h => Nat.not_lt.2 hlong (hlog.1 h)
      rw [if_pos (by omega)] at hbits
      rw [rank_of_components hbits, hplace, hrest]
      congr 1
      omega

/-! ### Signs -/

theorem abs_sign_apply (sign : Sign) {i : Int} (h : 0 ≤ i) : |sign.apply i| = i := by
  cases sign with
  | positive => exact abs_of_nonneg h
  | negative => exact (abs_neg i).trans (abs_of_nonneg h)

theorem Ranked.neg {u : UnpackedFloat} {i : Int} (h : Ranked u i) : Ranked u.neg (-i) := by
  cases h with
  | infinity sign => exact sign_apply_neg sign _ ▸ .infinity (-sign)
  | zero sign => exact .zero (-sign)
  | @finite sign mantissa exponent hpos hlow hhigh hmantissa hfull =>
    exact sign_apply_neg sign _ ▸ .finite (-sign) hpos hlow hhigh hmantissa hfull

theorem Ranked.abs {u : UnpackedFloat} {i : Int} (h : Ranked u i) : Ranked u.abs |i| := by
  cases h with
  | infinity sign =>
    rw [abs_sign_apply sign (by decide)]
    exact .infinity .positive
  | zero sign => exact .zero .positive
  | @finite sign mantissa exponent hpos hlow hhigh hmantissa hfull =>
    rw [abs_sign_apply sign (by omega)]
    exact .finite .positive hpos hlow hhigh hmantissa hfull

variable {x lo hi : Float32}

theorem rank_neg (h : x.isNaN = false) : rank (-x) = -rank x := rank_pack (ranked_unpack h).neg

theorem rank_abs (h : x.isNaN = false) : rank x.abs = |rank x| := rank_pack (ranked_unpack h).abs

theorem isNaN_abs (h : x.isNaN = false) : x.abs.isNaN = false := by
  apply isNaN_pack
  change x.toModel.unpack.isNaN = false at h
  cases hu : x.toModel.unpack with
  | notANumber =>
    rw [hu] at h
    cases h
  | _ => rfl

/-- The range around zero up to a number's size is a range. -/
theorem neg_abs_le_abs (h : x.isNaN = false) : -x.abs ≤ x.abs := by
  have habs := isNaN_abs h
  rw [le_iff_rank_le (isNaN_neg habs) habs, rank_neg habs, rank_abs h]
  have hpos := abs_nonneg (rank x)
  omega

theorem clamp?_of_le (x : Float32) (h : lo ≤ hi) : ∃ y, clamp? x lo hi = some y :=
  ⟨_, if_pos h⟩

/-! ### Maximum and minimum -/

theorem le_max (x : Float32) (hlo : lo.isNaN = false) : lo ≤ max x lo := by
  cases hx : x.isNaN with
  | true =>
    have hmax : max x lo = lo := if_pos hx
    rw [hmax]
    exact le_self hlo
  | false =>
    rcases max_cases hx hlo with ⟨hmax, hle⟩ | ⟨hmax, _⟩
    · rw [hmax]
      exact hle
    · rw [hmax]
      exact le_self hlo

theorem min_cases (hx : x.isNaN = false) (hhi : hi.isNaN = false) :
    (min x hi = x ∧ x ≤ hi) ∨ min x hi = hi := by
  have hnumber : ¬x.isNaN = true := by
    rw [hx]
    exact Bool.false_ne_true
  rw [min, if_neg hnumber]
  by_cases hlt : hi < x
  · rw [if_pos hlt]
    exact .inr rfl
  · rw [if_neg hlt]
    exact .inl ⟨rfl, le_of_not_lt hhi hx hlt⟩

theorem ofNat_le_ofNat {m n : Nat} (h : m ≤ n) (hn : n < 256) : ofNat m ≤ ofNat n := by
  rw [le_iff_units_le (isNaN_ofNat m) (isNaN_ofNat n), units_ofNat ⟨m, by omega⟩,
    units_ofNat ⟨n, hn⟩]
  show (m : Int) * 2 ^ 149 ≤ n * 2 ^ 149
  omega

/-- Anything, a NaN included, is brought up to the one whole number and then down to the other and
rounded. When they are crossed the upper end wins. -/
theorem roundToByte_limited (x : Float32) {lo hi : Nat} (hlo : lo < 256) (hhi : hi < 255) :
    Min.min lo hi ≤ (roundToByte (min (max x (ofNat lo)) (ofNat hi))).toNat ∧
      (roundToByte (min (max x (ofNat lo)) (ofNat hi))).toNat ≤ hi := by
  have hraised := le_max x (isNaN_ofNat lo)
  have hlowest : ofNat (Min.min lo hi) ≤ ofNat lo := ofNat_le_ofNat (Nat.min_le_left lo hi) hlo
  have hhighest : ofNat (Min.min lo hi) ≤ ofNat hi :=
    ofNat_le_ofNat (Nat.min_le_right lo hi) (by omega)
  refine roundToByte_within (Nat.min_le_right lo hi) hhi ?_ ?_
  · rcases min_cases (not_isNaN_of_le hraised).2 (isNaN_ofNat hi) with ⟨heq, _⟩ | heq
    · rw [heq]
      exact le_trans hlowest hraised
    · rw [heq]
      exact hhighest
  · rcases min_cases (not_isNaN_of_le hraised).2 (isNaN_ofNat hi) with ⟨heq, hle⟩ | heq
    · rw [heq]
      exact hle
    · rw [heq]
      exact le_self (isNaN_ofNat hi)

end HashBoard.Single
