import HashBoard.Proofs.Single.Numbers
import HashBoard.Proofs.Single.Order

/-!
# The larger of two numbers

A maximum taken from the lowest finite number on is one of the numbers it was taken over, and none
of them is larger.
-/

namespace HashBoard.Single

open Float.Model (UnpackedFloat)

variable {a b c : Float32}

/-! ### The strict order -/

theorem lt_iff_compare :
    a < b ↔ a.toModel.unpack.compare b.toModel.unpack = some .lt := by
  show decide (a.toModel < b.toModel) = true ↔ _
  rw [decide_eq_true_iff]
  show (a.toModel.unpack.compare b.toModel.unpack == some .lt) = true ↔ _
  rw [beq_iff_eq]

theorem lt_iff_rank_lt (ha : a.isNaN = false) (hb : b.isNaN = false) :
    a < b ↔ rank a < rank b := by
  rw [lt_iff_compare, (ranked_unpack ha).compare_eq (ranked_unpack hb), Option.some_inj]
  exact Int.compare_eq_lt

theorem le_of_not_lt (ha : a.isNaN = false) (hb : b.isNaN = false) (h : ¬a < b) : b ≤ a := by
  rw [lt_iff_rank_lt ha hb] at h
  exact (le_iff_rank_le hb ha).2 (Int.not_lt.1 h)

theorem le_self (ha : a.isNaN = false) : a ≤ a := (le_iff_rank_le ha ha).2 (Int.le_refl _)

theorem le_of_lt (ha : a.isNaN = false) (hb : b.isNaN = false) (h : a < b) : a ≤ b :=
  (le_iff_rank_le ha hb).2 (Int.le_of_lt ((lt_iff_rank_lt ha hb).1 h))

theorem le_trans (hab : a ≤ b) (hbc : b ≤ c) : a ≤ c := by
  obtain ⟨ha, hb⟩ := not_isNaN_of_le hab
  obtain ⟨_, hc⟩ := not_isNaN_of_le hbc
  have hleft := (le_iff_rank_le ha hb).1 hab
  have hright := (le_iff_rank_le hb hc).1 hbc
  exact (le_iff_rank_le ha hc).2 (Int.le_trans hleft hright)

theorem lt_of_le_of_lt (hc : c.isNaN = false) (hab : a ≤ b) (hbc : b < c) : a < c := by
  obtain ⟨ha, hb⟩ := not_isNaN_of_le hab
  have hleft := (le_iff_rank_le ha hb).1 hab
  have hright := (lt_iff_rank_lt hb hc).1 hbc
  exact (lt_iff_rank_lt ha hc).2 (Int.lt_of_le_of_lt hleft hright)

/-! ### Maxima -/

theorem max_cases (ha : a.isNaN = false) (hb : b.isNaN = false) :
    (max a b = a ∧ b ≤ a) ∨ (max a b = b ∧ a < b) := by
  have hnumber : ¬a.isNaN = true := by
    rw [ha]
    exact Bool.false_ne_true
  rw [max, if_neg hnumber]
  by_cases hlt : a < b
  · rw [if_pos hlt]
    exact .inr ⟨rfl, hlt⟩
  · rw [if_neg hlt]
    exact .inl ⟨rfl, le_of_not_lt ha hb hlt⟩

theorem rank_within (h : a.isFinite = true) :
    -infinityRank < rank a ∧ rank a < infinityRank := by
  have hranked := ranked_unpack (isNaN_of_isFinite h)
  rcases cases_of_isFinite h with ⟨s, hu⟩ | ⟨s, m, d, hm, hu⟩
  · rw [hu] at hranked
    generalize rank a = r at hranked ⊢
    cases hranked
    decide
  · rw [hu] at hranked
    generalize rank a = r at hranked ⊢
    cases hranked
    exact apply_within s (by omega) (by unfold infinityRank; omega)

theorem eq_of_toBits_eq (h : a.toBits = b.toBits) : a = b := by
  obtain ⟨⟨bits, _⟩⟩ := a
  obtain ⟨⟨bits', _⟩⟩ := b
  obtain rfl : bits = bits' := h
  rfl

theorem isNaN_lowest : lowest.isNaN = false := by decide +kernel

/-- No finite number but the lowest itself is so low that the maximum keeps the lowest. -/
theorem max_lowest (h : a.isFinite = true) : max lowest a = a := by
  have ha := isNaN_of_isFinite h
  rcases max_cases isNaN_lowest ha with ⟨hmax, hle⟩ | ⟨hmax, _⟩
  · rw [hmax]
    have hrank := (le_iff_rank_le ha isNaN_lowest).1 hle
    have hlowest : rank lowest = 1 - infinityRank := by decide +kernel
    have hbits : lowest.toBits.toNat = 0xff7fffff := by decide +kernel
    have hwithin := (rank_within h).1
    have hlt := a.toBits.toNat_lt
    apply eq_of_toBits_eq
    apply UInt32.toNat_inj.1
    rw [hlowest] at hrank
    unfold rank at hrank hwithin
    unfold infinityRank at hrank hwithin
    split at hrank <;> omega
  · exact hmax

end HashBoard.Single
