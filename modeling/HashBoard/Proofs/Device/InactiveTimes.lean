import HashBoard.Configuration.Basic
import HashBoard.Device.Fans
import Mathlib.Algebra.Group.Nat.Defs
import Mathlib.Tactic.Common

/-!
# Exact and overflowing off-times

The off-time of a duty is a share of the period, in percent, taken in 32-bit words: the product
comes first and the division after it. While the product fits, the off-time is the exact share,
rounded down. When it does not fit, there is no off-time, though the share itself would fit; for
the largest share that is so from a period of 42949673 ns on. No configuration is refused for its
period.
-/

namespace HashBoard.Device

variable {period time : UInt32} {percent more : UInt8}

/-- The percentage of a period for which an output is off. -/
def inactiveShare (percent : UInt8) : Nat := 100 - min percent.toNat 100

theorem toNat_min_hundred (percent : UInt8) : (min percent 100).toNat = min percent.toNat 100 := by
  show (if percent ≤ 100 then percent else 100).toNat = _
  have hhundred : (100 : UInt8).toNat = 100 := rfl
  by_cases hle : percent ≤ 100
  · rw [if_pos hle]
    rw [UInt8.le_iff_toNat_le, hhundred] at hle
    exact (Nat.min_eq_left hle).symm
  · rw [if_neg hle]
    rw [UInt8.le_iff_toNat_le, hhundred] at hle
    exact (Nat.min_eq_right (Nat.le_of_not_le hle)).symm

theorem inactiveShare_le (percent : UInt8) : inactiveShare percent ≤ 100 := Nat.sub_le _ _

theorem inactiveShare_anti (h : percent ≤ more) : inactiveShare more ≤ inactiveShare percent := by
  rw [UInt8.le_iff_toNat_le] at h
  unfold inactiveShare
  omega

theorem inactiveShare_of_full (h : 100 ≤ percent) : inactiveShare percent = 0 := by
  rw [UInt8.le_iff_toNat_le] at h
  exact Nat.sub_eq_zero_of_le (Nat.le_min.2 ⟨h, Nat.le_refl _⟩)

theorem product?_eq_some {a b product : UInt32} :
    product? a b = some product ↔
      a.toNat * b.toNat < 2 ^ 32 ∧ product.toNat = a.toNat * b.toNat := by
  have hsize : UInt32.size = 2 ^ 32 := rfl
  unfold product?
  rw [Option.ite_none_right_eq_some, hsize]
  refine and_congr_right fun hfits => ?_
  have hexact : (a * b).toNat = a.toNat * b.toNat := by
    rw [UInt32.toNat_mul, Nat.mod_eq_of_lt hfits]
  rw [Option.some_inj, eq_comm, ← UInt32.toNat_inj, hexact]

theorem toNat_share (percent : UInt8) :
    (100 - (min percent 100).toUInt32).toNat = inactiveShare percent := by
  have hpercent : (min percent 100).toUInt32.toNat = min percent.toNat 100 := by
    rw [UInt8.toNat_toUInt32, toNat_min_hundred]
  have hle : (min percent 100).toUInt32 ≤ 100 := by
    rw [UInt32.le_iff_toNat_le, hpercent]
    exact Nat.min_le_right _ _
  rw [UInt32.toNat_sub_of_le _ _ hle, hpercent]
  rfl

theorem inactiveTime?_eq_some :
    inactiveTime? period percent = some time ↔
      inactiveShare percent * period.toNat < 2 ^ 32 ∧
        time.toNat = inactiveShare percent * period.toNat / 100 := by
  have hhundred : (100 : UInt32).toNat = 100 := rfl
  unfold inactiveTime?
  rw [Option.map_eq_some_iff, ← toNat_share]
  constructor
  · rintro ⟨product, hproduct, rfl⟩
    obtain ⟨hfits, hexact⟩ := product?_eq_some.1 hproduct
    exact ⟨hfits, by rw [UInt32.toNat_div, hexact, hhundred]⟩
  · rintro ⟨hfits, htime⟩
    refine ⟨(100 - (min percent 100).toUInt32) * period, ?_, ?_⟩
    · exact product?_eq_some.2 ⟨hfits, by rw [UInt32.toNat_mul, Nat.mod_eq_of_lt hfits]⟩
    · apply UInt32.toNat_inj.1
      rw [UInt32.toNat_div, UInt32.toNat_mul, Nat.mod_eq_of_lt hfits, hhundred, htime]

theorem inactiveTime?_isSome :
    (inactiveTime? period percent).isSome ↔ inactiveShare percent * period.toNat < 2 ^ 32 := by
  have hsize : UInt32.size = 2 ^ 32 := rfl
  unfold inactiveTime? product?
  rw [Option.isSome_map, toNat_share, hsize, Option.isSome_ite]

theorem share_div_le (period : UInt32) (percent : UInt8) :
    inactiveShare percent * period.toNat / 100 ≤ period.toNat := by
  have hle := Nat.mul_le_mul_right period.toNat (inactiveShare_le percent)
  omega

/-- When a duty has an off-time, for every period and duty. It has one if and only if the product of
share and period fits into 32 bits, and then it is the exact share of the period, rounded down; so
all duties have one if and only if a hundred periods fit, and then the off-time of 0 percent is the
period. It never exceeds the period, it is zero from 100 percent on, and every duty above one with
an off-time has an off-time that is no longer. Whether a configuration is accepted does not depend
on the period. -/
theorem inactiveTime_of_every_period (period : UInt32) (percent : UInt8) :
    (∀ time, inactiveTime? period percent = some time ↔
        inactiveShare percent * period.toNat < 2 ^ 32 ∧
          time.toNat = inactiveShare percent * period.toNat / 100) ∧
      (inactiveTime? period percent = none ↔ 2 ^ 32 ≤ inactiveShare percent * period.toNat) ∧
      ((∀ duty, (inactiveTime? period duty).isSome) ↔ 100 * period.toNat < 2 ^ 32) ∧
      (inactiveTime? period 0 = some period ↔ 100 * period.toNat < 2 ^ 32) ∧
      (∀ time, inactiveTime? period percent = some time → time ≤ period) ∧
      (100 ≤ percent → inactiveTime? period percent = some 0) ∧
      (∀ more time, percent ≤ more → inactiveTime? period percent = some time →
        ∃ less, inactiveTime? period more = some less ∧ less ≤ time) ∧
      ∀ c : Configuration,
        { c with thermal := { c.thermal with pwmPeriodNs := period } : Configuration }.check =
          c.check := by
  have hzero : inactiveShare 0 = 100 := rfl
  refine ⟨fun time => inactiveTime?_eq_some, ?_, ?_, ?_, ?_, ?_, ?_, fun c => rfl⟩
  · rw [← Option.not_isSome_iff_eq_none, inactiveTime?_isSome, Nat.not_lt]
  · simp only [inactiveTime?_isSome]
    constructor
    · intro hall
      exact hzero ▸ hall 0
    · intro hfits duty
      exact Nat.lt_of_le_of_lt (Nat.mul_le_mul_right period.toNat (inactiveShare_le duty)) hfits
  · rw [inactiveTime?_eq_some, hzero]
    refine and_iff_left (Eq.symm ?_)
    exact Nat.mul_div_cancel_left _ (Nat.succ_pos 99)
  · intro time htime
    rw [UInt32.le_iff_toNat_le, (inactiveTime?_eq_some.1 htime).2]
    exact share_div_le period percent
  · intro hfull
    rw [inactiveTime?_eq_some, inactiveShare_of_full hfull, Nat.zero_mul]
    exact ⟨Nat.two_pow_pos 32, rfl⟩
  · intro more time hmore htime
    obtain ⟨hfits, hexact⟩ := inactiveTime?_eq_some.1 htime
    have hle := Nat.mul_le_mul_right period.toNat (inactiveShare_anti hmore)
    have hsome := inactiveTime?_isSome.2 (Nat.lt_of_le_of_lt hle hfits)
    obtain ⟨less, hless⟩ := Option.isSome_iff_exists.1 hsome
    refine ⟨less, hless, ?_⟩
    rw [UInt32.le_iff_toNat_le, (inactiveTime?_eq_some.1 hless).2, hexact]
    exact Nat.div_le_div_right hle

/-- The shortest period that is too long to let the fans stand still. -/
theorem inactiveTime_of_long_period :
    inactiveTime? 42949673 0 = none ∧ inactiveTime? 42949672 0 = some 42949672 := by
  obtain ⟨_, hlong, _⟩ := inactiveTime_of_every_period 42949673 0
  obtain ⟨_, _, _, hshort, _⟩ := inactiveTime_of_every_period 42949672 0
  exact ⟨hlong.2 (by decide), hshort.2 (by decide)⟩

end HashBoard.Device
