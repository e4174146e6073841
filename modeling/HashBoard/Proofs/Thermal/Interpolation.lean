import HashBoard.Proofs.Thermal.Readings
import HashBoard.Proofs.Single.Monotone
import Mathlib.Data.Prod.Lex

/-!
# Codes between the entries of a table

A code that is not clamped lies between two neighbours of its table, whatever the order of the
table, and is read a share of a step after the first of them. A lower code is read no earlier in
the table. With the roundings of the computation this makes no reading of a falling table colder
than that of a higher code.
-/

namespace HashBoard.Thermal.SensorCurve

open Single

/-! ### The search -/

/-- A code that is clamped at neither end of a table. -/
def Inside (codes : List UInt16) (code : UInt16) : Prop :=
  ∃ first last, codes.head? = some first ∧ codes.getLast? = some last ∧ code < first ∧ last < code

/-- The first entry at or below a code has the index `upper`, and the one before it is above. -/
structure Bracketed (codes : List UInt16) (code : UInt16) (upper : Nat) (hi lo : UInt16) :
    Prop where
  one_le : 1 ≤ upper
  lt_length : upper < codes.length
  high : codes[upper - 1]? = some hi
  low : codes[upper]? = some lo
  lt_high : code < hi
  low_le : lo ≤ code
  first : codes.findIdx? (fun entry => entry ≤ code) = some upper

theorem bracket_of_ends {code first last : UInt16} {rest : List UInt16} (before : Nat)
    (hfirst : code < first) (hlast : (first :: rest).getLast? = some last) (hle : last ≤ code) :
    ∃ k hi lo, bracket code (first :: rest) before = some (before + k, hi, lo) ∧
      Bracketed (first :: rest) code (k + 1) hi lo := by
  have habove : ¬first ≤ code := UInt16.not_le.2 hfirst
  induction rest generalizing first before with
  | nil =>
    obtain rfl : first = last := Option.some.inj hlast
    exact absurd hle habove
  | cons second rest ih =>
    by_cases hsecond : second ≤ code
    · refine ⟨0, first, second, ?_, ?_⟩
      · rw [bracket, if_pos hsecond]
        rfl
      · refine ⟨Nat.le_refl 1, ?_, rfl, rfl, hfirst, hsecond, ?_⟩
        · simp only [List.length_cons]
          omega
        · simp [List.findIdx?_cons, habove, hsecond]
    · rw [List.getLast?_cons_cons] at hlast
      obtain ⟨k, hi, lo, hfound, hbracketed⟩ :=
        ih (before + 1) (UInt16.not_le.1 hsecond) hlast hsecond
      refine ⟨k + 1, hi, lo, ?_, ?_⟩
      · rw [bracket, if_neg hsecond, hfound]
        congr 2
        omega
      · refine ⟨by omega, ?_, ?_, ?_, hbracketed.lt_high, hbracketed.low_le, ?_⟩
        · have hlength := hbracketed.lt_length
          simp only [List.length_cons] at hlength ⊢
          omega
        · exact hbracketed.high
        · exact hbracketed.low
        · rw [List.findIdx?_cons, hbracketed.first]
          simp [habove]

theorem bracket_of_inside {codes : List UInt16} {code : UInt16} (h : Inside codes code) :
    ∃ upper hi lo, bracket code codes 0 = some (upper - 1, hi, lo) ∧
      Bracketed codes code upper hi lo := by
  obtain ⟨first, last, hfirst, hlast, habove, hbelow⟩ := h
  cases codes with
  | nil => cases hfirst
  | cons head rest =>
    obtain rfl : head = first := Option.some.inj hfirst
    obtain ⟨k, hi, lo, hfound, hbracketed⟩ :=
      bracket_of_ends 0 habove hlast (UInt16.le_of_lt hbelow)
    exact ⟨k + 1, hi, lo, by rw [hfound, Nat.zero_add, Nat.add_sub_cancel], hbracketed⟩

/-- The entry found for a code is at or below every higher code as well. -/
theorem Bracketed.upper_le {codes : List UInt16} {code higher : UInt16} {upper earlier : Nat}
    {hi lo hi' lo' : UInt16} (h : Bracketed codes code upper hi lo)
    (h' : Bracketed codes higher earlier hi' lo') (hle : code ≤ higher) : earlier ≤ upper := by
  by_contra hlt
  obtain ⟨_, _, hbefore⟩ := List.findIdx?_eq_some_iff_getElem.1 h'.first
  have hnot := hbefore upper (Nat.not_le.1 hlt)
  obtain ⟨_, hlow⟩ := List.getElem?_eq_some_iff.1 h.low
  rw [hlow] at hnot
  exact hnot (decide_eq_true (UInt16.le_trans h.low_le hle))

theorem Bracketed.neighbours_eq {codes : List UInt16} {code higher : UInt16} {upper : Nat}
    {hi lo hi' lo' : UInt16} (h : Bracketed codes code upper hi lo)
    (h' : Bracketed codes higher upper hi' lo') : hi' = hi ∧ lo' = lo :=
  ⟨Option.some.inj (h'.high.symm.trans h.high), Option.some.inj (h'.low.symm.trans h.low)⟩

/-! ### Shares of a step -/

/-- The part of the way from one entry down to the next at which a code lies. -/
def share (hi lo code : UInt16) : ℚ := ((hi.toNat : ℚ) - code.toNat) / (hi.toNat - lo.toNat)

/-- The same part as it is computed. -/
def fraction (hi lo code : UInt16) : Float32 :=
  (hi.toFloat32 - code.toFloat32) / (hi.toFloat32 - lo.toFloat32)

/-- Where in a table a code is read: the entry before which it comes, and its share of the step up
to there. -/
def place? (codes : List UInt16) (code : UInt16) : Option (Nat ×ₗ ℚ) :=
  (bracket code codes 0).map fun (before, hi, lo) => toLex (before + 1, share hi lo code)

section

variable {hi lo code higher : UInt16} (hcode : code < hi) (hlo : lo ≤ code)
include hcode hlo

theorem toNat_between : (code.toNat : ℚ) + 1 ≤ hi.toNat ∧ (lo.toNat : ℚ) ≤ code.toNat := by
  constructor
  · exact_mod_cast UInt16.lt_iff_toNat_lt.1 hcode
  · exact_mod_cast UInt16.le_iff_toNat_le.1 hlo

theorem share_bounds : 0 < share hi lo code ∧ share hi lo code ≤ 1 := by
  obtain ⟨habove, hbelow⟩ := toNat_between hcode hlo
  have hgap : (0 : ℚ) < hi.toNat - lo.toNat := by linarith
  constructor
  · exact div_pos (by linarith) hgap
  · exact (div_le_one hgap).2 (by linarith)

theorem share_antitone (hle : code ≤ higher) : share hi lo higher ≤ share hi lo code := by
  obtain ⟨habove, hbelow⟩ := toNat_between hcode hlo
  have hgap : (0 : ℚ) < hi.toNat - lo.toNat := by linarith
  have hcodes : (code.toNat : ℚ) ≤ higher.toNat := by exact_mod_cast UInt16.le_iff_toNat_le.1 hle
  exact div_le_div_of_nonneg_right (by linarith) hgap.le

end

theorem rounded_sub_word {hi code : UInt16} (h : code ≤ hi) :
    Rounded ((hi.toNat - code.toNat : Nat) * 2 ^ 149) (rank (hi.toFloat32 - code.toFloat32)) := by
  obtain ⟨hhi, hfinite⟩ := units_word hi
  obtain ⟨hcode, hfinite'⟩ := units_word code
  have hrounded := rounded_sub hfinite hfinite'
  rw [hhi, hcode, ← sub_mul, ← Nat.cast_sub (UInt16.le_iff_toNat_le.1 h)] at hrounded
  exact hrounded

/-- The difference of two codes is computed without loss. -/
theorem sub_word_eq {hi lo : UInt16} (h : lo < hi) :
    hi.toFloat32 - lo.toFloat32 = ofNat (hi.toNat - lo.toNat) := by
  have hlt := UInt16.lt_iff_toNat_lt.1 h
  have hbound := hi.toNat_lt
  have hsame := (rounded_sub_word (UInt16.le_of_lt h)).unique (rounded_ofNat (by omega))
  refine eq_of_rank_eq hsame fun hzero => ?_
  have hunits := (units_small (by omega : hi.toNat - lo.toNat < 0x1000000)).1
  have hpositive : (0 : ℚ) < (hi.toNat - lo.toNat : Nat) * 2 ^ 149 := by
    have hgap : 0 < hi.toNat - lo.toNat := by omega
    positivity
  rw [units, hzero, signedMagnitude_zero, Int.cast_zero] at hunits
  exact ne_of_lt hpositive hunits

section

variable {hi lo code : UInt16} (hcode : code < hi) (hlo : lo ≤ code)
include hcode hlo

/-- The share computed is the number nearest to the exact one. -/
theorem rounded_fraction :
    Rounded (share hi lo code * 2 ^ 149) (rank (fraction hi lo code)) ∧
      (fraction hi lo code).isNaN = false := by
  have hgap : lo < hi := UInt16.lt_of_le_of_lt hlo hcode
  have habove := UInt16.lt_iff_toNat_lt.1 hcode
  have hwide := UInt16.lt_iff_toNat_lt.1 hgap
  have hbound := hi.toNat_lt
  obtain ⟨hdividend, hfinite⟩ := units_small (by omega : hi.toNat - code.toNat < 0x1000000)
  obtain ⟨hdivisor, hfinite'⟩ := units_small (by omega : hi.toNat - lo.toNat < 0x1000000)
  have hpos : 0 < rank (ofNat (hi.toNat - lo.toNat)) := by
    apply rank_pos_of_units
    rw [hdivisor]
    have hsteps : 0 < hi.toNat - lo.toNat := by omega
    positivity
  unfold fraction
  rw [sub_word_eq hcode, sub_word_eq hgap]
  refine ⟨?_, isNaN_div (isNaN_ofNat _) (isProper_of_rank_pos hfinite' hpos)⟩
  have hrounded := rounded_div hfinite hfinite' (ne_of_gt hpos)
  rw [hdividend, hdivisor, mul_div_mul_right _ _ (by positivity),
    Nat.cast_sub (Nat.le_of_lt habove), Nat.cast_sub (Nat.le_of_lt hwide)] at hrounded
  exact hrounded

theorem fraction_within :
    0 < rank (fraction hi lo code) ∧ rank (fraction hi lo code) ≤ rank (ofNat 1) := by
  obtain ⟨hrounded, _⟩ := rounded_fraction hcode hlo
  obtain ⟨habove, hbelow⟩ := toNat_between hcode hlo
  obtain ⟨hpos, hle⟩ := share_bounds hcode hlo
  constructor
  · -- A share has no more than 2^16 parts, so it is far above the smallest number.
    have hparts : (hi.toNat : ℚ) - lo.toNat ≤ 65536 := by
      have hbound : (hi.toNat : ℚ) ≤ 65536 := by exact_mod_cast hi.toNat_lt.le
      have hnonneg : (0 : ℚ) ≤ lo.toNat := by positivity
      linarith
    have hshare : 1 ≤ share hi lo code * 2 ^ 149 := by
      unfold share
      rw [div_mul_eq_mul_div, le_div_iff₀ (by linarith)]
      linarith
    have hleast : Rounded 1 1 := by exact_mod_cast rounded_number (i := 1) (by decide)
    exact hleast.mono hrounded hshare
  · refine hrounded.mono (rounded_ofNat (by decide)) ?_
    rw [Nat.cast_one]
    linarith

theorem fraction_bounds : 0 < fraction hi lo code ∧ fraction hi lo code ≤ 1 := by
  obtain ⟨hpos, hle⟩ := fraction_within hcode hlo
  obtain ⟨_, hnumber⟩ := rounded_fraction hcode hlo
  have hzero : rank (0 : Float32) = 0 := rfl
  have hnumber' : (0 : Float32).isNaN = false := isNaN_ofScientific 0 false 0
  have hone : (1 : Float32) = ofNat 1 := by decide +kernel
  rw [hone, lt_iff_rank_lt hnumber' hnumber, hzero, le_iff_rank_le hnumber (isNaN_ofNat 1)]
  exact ⟨hpos, hle⟩

end

/-! ### Depth in the table -/

/-- How many steps after the start of a table a code between two entries is read. -/
def depth (before : Nat) (hi lo code : UInt16) : Float32 := ofNat before + fraction hi lo code

theorem rounded_depth {before : Nat} {hi lo code : UInt16} (hbefore : before < 0x1000000)
    (hcode : code < hi) (hlo : lo ≤ code) :
    Rounded (before * 2 ^ 149 + units (fraction hi lo code)) (rank (depth before hi lo code)) ∧
      (depth before hi lo code).isNaN = false := by
  obtain ⟨hpos, hle⟩ := fraction_within hcode hlo
  obtain ⟨_, hnumber⟩ := rounded_fraction hcode hlo
  obtain ⟨hunits, hfinite⟩ := units_small hbefore
  have hone := (rank_within (units_small (by decide : 1 < 0x1000000)).2).2
  have hfraction : (fraction hi lo code).isFinite = true :=
    isFinite_of_rank hnumber (by unfold infinityRank; omega) (by omega)
  rw [← hunits]
  exact ⟨rounded_add hfinite hfraction, isNaN_add hfinite hnumber⟩

/-- Between two entries a depth lies between their indices. -/
theorem depth_within {before : Nat} {hi lo code : UInt16} (hbefore : before + 1 < 0x1000000)
    (hcode : code < hi) (hlo : lo ≤ code) :
    rank (ofNat before) ≤ rank (depth before hi lo code) ∧
      rank (depth before hi lo code) ≤ rank (ofNat (before + 1)) ∧
      0 < rank (depth before hi lo code) ∧ (depth before hi lo code).isFinite = true := by
  obtain ⟨hpos, hle⟩ := fraction_within hcode hlo
  obtain ⟨_, hnumber⟩ := rounded_fraction hcode hlo
  obtain ⟨hrounded, hdepth⟩ := rounded_depth (Nat.lt_of_succ_lt hbefore) hcode hlo
  have hone := (units_small (by decide : 1 < 0x1000000)).1
  have hfraction : (units (fraction hi lo code) : ℚ) ≤ 2 ^ 149 := by
    have hunits := units_le hle
    rw [hone, Nat.cast_one, one_mul] at hunits
    exact hunits
  have hnonneg := units_nonneg hpos.le
  have hhigh : rank (depth before hi lo code) ≤ rank (ofNat (before + 1)) := by
    refine hrounded.mono (rounded_ofNat (Nat.lt_trans hbefore (by decide))) ?_
    rw [Nat.cast_succ, add_mul, one_mul]
    linarith
  have hpositive : 0 < rank (depth before hi lo code) := by
    refine Int.lt_of_lt_of_le hpos ?_
    exact (rounded_self hnumber).mono hrounded (le_add_of_nonneg_left (by positivity))
  refine ⟨?_, hhigh, hpositive, ?_⟩
  · refine (rounded_ofNat (Nat.lt_trans (Nat.lt_of_succ_lt hbefore) (by decide))).mono hrounded ?_
    exact le_add_of_nonneg_right hnonneg
  · have hbelow := (rank_within (units_small hbefore).2).2
    exact isFinite_of_rank hdepth (by unfold infinityRank; omega) (by omega)

theorem depth_antitone {before : Nat} {hi lo code higher : UInt16} (hbefore : before < 0x1000000)
    (hcode : code < hi) (hlo : lo ≤ code) (hhigher : higher < hi) (hle : code ≤ higher) :
    rank (depth before hi lo higher) ≤ rank (depth before hi lo code) := by
  have hlo' := UInt16.le_trans hlo hle
  have hfractions : rank (fraction hi lo higher) ≤ rank (fraction hi lo code) :=
    (rounded_fraction hhigher hlo').1.mono (rounded_fraction hcode hlo).1
      (mul_le_mul_of_nonneg_right (share_antitone hcode hlo hle) (by positivity))
  exact (rounded_depth hbefore hhigher hlo').1.mono (rounded_depth hbefore hcode hlo).1
    (add_le_add_right (units_le hfractions) _)

/-! ### Readings -/

variable {codes : List UInt16}

/-- How a code is read from a table. -/
inductive Reading (start step : Float32) (codes : List UInt16) (code : UInt16) : Prop
  | cold (hfirst : ∀ first, codes.head? = some first → first ≤ code)
      (h : (table start step codes).celsius code = start)
  | hot {first last : UInt16} (hfirst : codes.head? = some first) (habove : code < first)
      (hlast : codes.getLast? = some last) (hle : code ≤ last)
      (h : (table start step codes).celsius code = start + step * ofNat (codes.length - 1))
  | between {upper : Nat} {hi lo : UInt16} (hinside : Inside codes code)
      (hbracketed : Bracketed codes code upper hi lo)
      (h : (table start step codes).celsius code = start + step * depth (upper - 1) hi lo code)

theorem celsius_of_bracket (start step : Float32) {code hi lo : UInt16} {before : Nat}
    (hinside : Inside codes code) (h : bracket code codes 0 = some (before, hi, lo)) :
    (table start step codes).celsius code = start + step * depth before hi lo code := by
  obtain ⟨first, last, hfirst, hlast, habove, hbelow⟩ := hinside
  show interpolate start step codes code = _
  unfold interpolate
  rw [hfirst, hlast]
  dsimp only
  rw [if_neg (UInt16.not_le.2 habove), if_neg (UInt16.not_le.2 hbelow), h]
  rfl

theorem reading (start step : Float32) (codes : List UInt16) (code : UInt16) :
    Reading start step codes code := by
  cases hfirst : codes.head? with
  | none =>
    obtain rfl := List.head?_eq_none_iff.1 hfirst
    exact .cold nofun rfl
  | some first =>
    obtain ⟨last, hlast⟩ : ∃ last, codes.getLast? = some last := by
      cases codes with
      | nil => cases hfirst
      | cons head rest => exact ⟨_, List.getLast?_cons⟩
    by_cases hcold : first ≤ code
    · refine .cold (fun other h => ?_) ?_
      · obtain rfl : other = first := Option.some.inj (h.symm.trans hfirst)
        exact hcold
      · show interpolate start step codes code = _
        unfold interpolate
        rw [hfirst, hlast]
        exact if_pos hcold
    · by_cases hhot : code ≤ last
      · refine .hot hfirst (UInt16.not_le.1 hcold) hlast hhot ?_
        show interpolate start step codes code = _
        unfold interpolate
        rw [hfirst, hlast]
        dsimp only
        rw [if_neg hcold, if_pos hhot]
      · have hinside : Inside codes code :=
          ⟨first, last, hfirst, hlast, UInt16.not_le.1 hcold, UInt16.not_le.1 hhot⟩
        obtain ⟨upper, hi, lo, hfound, hbracketed⟩ := bracket_of_inside hinside
        exact .between hinside hbracketed (celsius_of_bracket start step hinside hfound)

theorem length_le_of_falling {first : UInt16} {rest : List UInt16}
    (h : (first :: rest).Pairwise fun above below => below < above) :
    rest.length ≤ first.toNat := by
  induction rest generalizing first with
  | nil => exact Nat.zero_le _
  | cons second rest ih =>
    obtain ⟨hfirst, hrest⟩ := List.pairwise_cons.1 h
    have hlength := ih hrest
    have hstep := UInt16.lt_iff_toNat_lt.1 (hfirst second List.mem_cons_self)
    rw [List.length_cons]
    omega

theorem Bracketed.depth_bounds {code hi lo : UInt16} {upper : Nat}
    (h : Bracketed codes code upper hi lo) (hlength : codes.length ≤ 0x1000000) :
    rank (depth (upper - 1) hi lo code) ≤ rank (ofNat upper) ∧
      0 < rank (depth (upper - 1) hi lo code) ∧
      (depth (upper - 1) hi lo code).isFinite = true := by
  have hone := h.one_le
  have hlt := h.lt_length
  have hbefore : upper - 1 + 1 = upper := by omega
  have hwithin := (depth_within (by omega : upper - 1 + 1 < 0x1000000) h.lt_high h.low_le).2
  rw [hbefore] at hwithin
  exact hwithin

/-- A lower code is read no earlier in a table. -/
theorem Bracketed.depth_le {code higher hi lo hi' lo' : UInt16} {upper earlier : Nat}
    (h : Bracketed codes code upper hi lo) (h' : Bracketed codes higher earlier hi' lo')
    (hlength : codes.length ≤ 0x1000000) (hle : code ≤ higher) :
    rank (depth (earlier - 1) hi' lo' higher) ≤ rank (depth (upper - 1) hi lo code) := by
  have hlt := h.lt_length
  have hone := h'.one_le
  rcases Nat.lt_or_eq_of_le (h.upper_le h' hle) with hearlier | rfl
  · -- The entry at the end of the one step is at or before the start of the other.
    calc rank (depth (earlier - 1) hi' lo' higher) ≤ rank (ofNat earlier) :=
          (h'.depth_bounds hlength).1
      _ ≤ rank (ofNat (upper - 1)) := rank_ofNat_le (by omega) (by omega)
      _ ≤ rank (depth (upper - 1) hi lo code) :=
          (depth_within (by omega) h.lt_high h.low_le).1
  · obtain ⟨rfl, rfl⟩ := h.neighbours_eq h'
    exact depth_antitone (by omega) h.lt_high h.low_le h'.lt_high hle

/-- A lower code is never read as a lower temperature from a table of bounded length whose steps do
not go down. -/
theorem not_celsius_lt (start step : Float32) (hlength : codes.length ≤ 0x1000000)
    (hstep : ¬step < 0) {code higher : UInt16} (hle : code ≤ higher) :
    ¬(table start step codes).celsius code < (table start step codes).celsius higher := by
  have hend {first : UInt16} (h : codes.head? = some first) :
      (ofNat (codes.length - 1)).isFinite = true ∧ codes.length - 1 < codes.length := by
    have hpos : 0 < codes.length := by
      cases codes with
      | nil => cases h
      | cons head rest => exact Nat.succ_pos _
    exact ⟨(units_small (by omega)).2, by omega⟩
  cases reading start step codes higher with
  | cold _ h' =>
    rw [h']
    cases reading start step codes code with
    | cold _ h =>
      rw [h]
      exact not_lt_self start
    | hot hfirst _ _ _ h =>
      rw [h]
      exact not_add_mul_lt_self start step hstep (hend hfirst).1
        (rank_ofNat_le (Nat.zero_le _) (by omega))
    | between _ hbracketed h =>
      obtain ⟨_, hpos, hfinite⟩ := hbracketed.depth_bounds hlength
      rw [h]
      exact not_add_mul_lt_self start step hstep hfinite hpos.le
  | hot hfirst' habove' hlast' hle' h' =>
    cases reading start step codes code with
    | cold hcold _ =>
      exact absurd (hcold _ hfirst') (UInt16.not_le.2 (UInt16.lt_of_le_of_lt hle habove'))
    | hot _ _ _ _ h =>
      rw [h, h']
      exact not_lt_self _
    | between hinside _ _ =>
      obtain ⟨_, last, _, hlast, _, hbelow⟩ := hinside
      obtain rfl := Option.some.inj (hlast.symm.trans hlast')
      exact absurd (UInt16.le_trans hle hle') (UInt16.not_le.2 hbelow)
  | between hinside' hbracketed' h' =>
    obtain ⟨hdepth, hpos, hfinite⟩ := hbracketed'.depth_bounds hlength
    rw [h']
    cases reading start step codes code with
    | cold hcold _ =>
      obtain ⟨_, _, hfirst', _, habove', _⟩ := hinside'
      exact absurd (hcold _ hfirst') (UInt16.not_le.2 (UInt16.lt_of_le_of_lt hle habove'))
    | hot hfirst _ _ _ h =>
      have hlt := hbracketed'.lt_length
      rw [h]
      refine not_add_mul_lt start step hstep (hend hfirst).1 hfinite hpos ?_
      exact Int.le_trans hdepth (rank_ofNat_le (by omega) (by omega))
    | between _ hbracketed h =>
      rw [h]
      exact not_add_mul_lt start step hstep (hbracketed.depth_bounds hlength).2.2 hfinite hpos
        (hbracketed.depth_le hbracketed' hlength hle)

theorem isNaN_celsius {start step : Float32} (hlength : codes.length ≤ 0x1000000)
    (hstart : start.isFinite = true) (hstep : step.isFinite = true) (code : UInt16) :
    ((table start step codes).celsius code).isNaN = false := by
  cases reading start step codes code with
  | cold _ h =>
    rw [h]
    exact isNaN_of_isFinite hstart
  | hot _ _ _ _ h =>
    rw [h]
    exact isNaN_add hstart (isNaN_mul_of_finite hstep (units_small (by omega)).2)
  | between _ hbracketed h =>
    rw [h]
    exact isNaN_add hstart (isNaN_mul_of_finite hstep (hbracketed.depth_bounds hlength).2.2)

theorem place_of_bracketed {code : UInt16} (hinside : Inside codes code) :
    ∃ upper hi lo, Bracketed codes code upper hi lo ∧
      place? codes code = some (toLex (upper, share hi lo code)) ∧
      ∀ start step, (table start step codes).celsius code =
        start + step * depth (upper - 1) hi lo code := by
  obtain ⟨upper, hi, lo, hfound, hbracketed⟩ := bracket_of_inside hinside
  refine ⟨upper, hi, lo, hbracketed, ?_, fun start step =>
    celsius_of_bracket start step hinside hfound⟩
  unfold place?
  rw [hfound, Option.map_some]
  dsimp only
  rw [Nat.sub_add_cancel hbracketed.one_le]

theorem place_le {code higher : UInt16} (hinside : Inside codes code)
    (hinside' : Inside codes higher) (hle : code ≤ higher) {place place' : Nat ×ₗ ℚ}
    (h : place? codes code = some place) (h' : place? codes higher = some place') :
    place' ≤ place := by
  obtain ⟨upper, hi, lo, hbracketed, hplace, _⟩ := place_of_bracketed hinside
  obtain ⟨earlier, hi', lo', hbracketed', hplace', _⟩ := place_of_bracketed hinside'
  obtain rfl := Option.some.inj (h.symm.trans hplace)
  obtain rfl := Option.some.inj (h'.symm.trans hplace')
  rw [Prod.Lex.toLex_le_toLex]
  rcases Nat.lt_or_eq_of_le (hbracketed.upper_le hbracketed' hle) with hearlier | rfl
  · exact .inl hearlier
  · obtain ⟨rfl, rfl⟩ := hbracketed.neighbours_eq hbracketed'
    exact .inr ⟨rfl, share_antitone hbracketed.lt_high hbracketed.low_le hle⟩

/-- A code that no end of its table clamps, whatever the order of the entries, is read between two
neighbours that both stand in the table, the first one above the code and the second one the first
entry that is not. Their difference is positive and computed without loss, and the share of a step
after the first of them, exact as well as computed, is positive and at most one. The place of a
lower code, by the index and then by the exact share, is never before that of a higher one. So in a
falling table, whose steps go up as its codes go down, a lower code never reads as a lower
temperature, clamped or not and with all roundings, even if start or step is infinite or no
number. -/
theorem reading_between_entries (codes : List UInt16) :
    (∀ code, Inside codes code → ∃ upper hi lo, Bracketed codes code upper hi lo ∧
      place? codes code = some (toLex (upper, share hi lo code)) ∧
      (∀ start step, (table start step codes).celsius code =
        start + step * (ofNat (upper - 1) + fraction hi lo code)) ∧
      0 < hi.toNat - lo.toNat ∧ hi.toFloat32 - lo.toFloat32 = ofNat (hi.toNat - lo.toNat) ∧
      (0 < share hi lo code ∧ share hi lo code ≤ 1) ∧
      (0 < fraction hi lo code ∧ fraction hi lo code ≤ 1)) ∧
    (∀ code higher, Inside codes code → Inside codes higher → code ≤ higher →
      ∀ place place', place? codes code = some place → place? codes higher = some place' →
        place' ≤ place) ∧
    (codes.Pairwise (fun above below => below < above) →
      ∀ start step : Float32, ¬step < 0 → ∀ code higher, code ≤ higher →
        ¬(table start step codes).celsius code < (table start step codes).celsius higher ∧
        (start.isFinite = true → step.isFinite = true →
          (table start step codes).celsius higher ≤ (table start step codes).celsius code)) := by
  refine ⟨fun code hinside => ?_, fun code higher hinside hinside' hle place place' h h' =>
    place_le hinside hinside' hle h h', fun hfalling start step hstep code higher hle => ?_⟩
  · obtain ⟨upper, hi, lo, hbracketed, hplace, hcelsius⟩ := place_of_bracketed hinside
    have hgap := UInt16.lt_of_le_of_lt hbracketed.low_le hbracketed.lt_high
    exact ⟨upper, hi, lo, hbracketed, hplace, hcelsius,
      Nat.sub_pos_of_lt (UInt16.lt_iff_toNat_lt.1 hgap), sub_word_eq hgap,
      share_bounds hbracketed.lt_high hbracketed.low_le,
      fraction_bounds hbracketed.lt_high hbracketed.low_le⟩
  · have hlength : codes.length ≤ 0x1000000 := by
      cases codes with
      | nil => exact Nat.zero_le _
      | cons first rest =>
        have hrest := length_le_of_falling hfalling
        have hfirst := first.toNat_lt
        rw [List.length_cons]
        omega
    have hnot := not_celsius_lt start step hlength hstep hle
    refine ⟨hnot, fun hstart hfinite => ?_⟩
    exact le_of_not_lt (isNaN_celsius hlength hstart hfinite code)
      (isNaN_celsius hlength hstart hfinite higher) hnot

/-- A table out of order in which one entry stands twice, and the order of readings of one in
order. -/
theorem reading_between_485_and_505 :
    (∃ upper hi lo, Bracketed [500, 520, 480, 480, 510, 470] 485 upper hi lo ∧
      (0 < fraction hi lo 485 ∧ fraction hi lo 485 ≤ 1)) ∧
    (table (-40) 5 [520, 500, 480]).celsius 505 ≤ (table (-40) 5 [520, 500, 480]).celsius 485 := by
  have hinside : Inside [500, 520, 480, 480, 510, 470] 485 :=
    ⟨500, 470, rfl, rfl, by decide, by decide⟩
  obtain ⟨upper, hi, lo, hbracketed, _, _, _, _, _, hfraction⟩ :=
    (reading_between_entries [500, 520, 480, 480, 510, 470]).1 485 hinside
  refine ⟨⟨upper, hi, lo, hbracketed, hfraction⟩, ?_⟩
  exact ((reading_between_entries [520, 500, 480]).2.2 (by decide) (-40) 5 (by decide +kernel) 485
    505 (by decide)).2 (by decide +kernel) (by decide +kernel)

end HashBoard.Thermal.SensorCurve
