import HashBoard.Proofs.Single.Exact
import HashBoard.Proofs.Thermal.Readings

/-!
# Summaries of readings

Any readings but none at all have a summary, whatever share is to be trimmed. The order of the
readings is a total one in which nothing but equal bits is equal, so they can be put in order in
one way only and the summary does not depend on the order in which they came. Readings are given by
their bits here, since NaNs of different bits have different places. A NaN without a sign comes
last, and then the maximum says nothing of a hot chip.
-/

namespace HashBoard

open Single

namespace Thermal

namespace Statistics

variable {patterns ordered : List UInt32} {k n : Nat}

/-! ### One order -/

theorem Orders.unique {other : List UInt32} (h : Orders ordered patterns)
    (h' : Orders other patterns) : ordered = other :=
  List.Perm.eq_of_pairwise (fun _ _ _ _ => bitsLe_antisymm) h.2 h'.2 (h.1.trans h'.1.symm)

theorem sorted_eq_of_perm {other : List UInt32} (h : other.Perm patterns) :
    sorted other = sorted patterns :=
  Orders.unique ⟨(orders_sorted other).1.trans h, sorted_pairwise other⟩ (orders_sorted patterns)

/-! ### Median and mean -/

theorem drop_eq_getD_cons {values : List Float32} {i : Nat} (h : i < values.length) :
    values.drop i = values.getD i 0 :: values.drop (i + 1) := by
  rw [List.drop_eq_getElem_cons h, List.getD_eq_getElem?_getD, List.getElem?_eq_getElem h]
  rfl

/-- The middle one of some readings, or half the sum of the two in the middle. -/
theorem medianOf_middle {values : List Float32} (hne : values ≠ []) :
    ∃ below above, below.length = above.length ∧
      ((∃ middle, values = below ++ middle :: above ∧ medianOf values = middle) ∨
        ∃ left right, values = below ++ left :: right :: above ∧
          medianOf values = (left + right) / 2) := by
  have hpos := List.length_pos_of_ne_nil hne
  by_cases hodd : values.length % 2 = 1
  · refine ⟨values.take (values.length / 2), values.drop (values.length / 2 + 1), ?_,
      .inl ⟨_, ?_, if_pos hodd⟩⟩
    · simp only [List.length_take, List.length_drop]
      omega
    · rw [← drop_eq_getD_cons (by omega), List.take_append_drop]
  · refine ⟨values.take (values.length / 2 - 1), values.drop (values.length / 2 + 1), ?_,
      .inr ⟨_, _, ?_, if_neg hodd⟩⟩
    · simp only [List.length_take, List.length_drop]
      omega
    · have hleft := drop_eq_getD_cons (by omega : values.length / 2 - 1 < values.length)
      have hright := drop_eq_getD_cons (by omega : values.length / 2 < values.length)
      have hnext : values.length / 2 - 1 + 1 = values.length / 2 := by omega
      rw [hnext] at hleft
      rw [← hright, ← hleft, List.take_append_drop]

theorem trimCount_lt (hn : 0 < n) (trim : Float32) : 2 * trimCount n trim < n := by
  have hmost : trimCount n trim ≤ (n - 1) / 2 := Nat.min_le_right _ _
  omega

theorem take_kept_drop (h : 2 * k ≤ ordered.length) :
    ordered.take k ++ kept k ordered ++ ordered.drop (ordered.length - k) = ordered := by
  have hrest : ordered.drop (ordered.length - k) =
      (ordered.drop k).drop (ordered.length - 2 * k) := by
    rw [List.drop_drop]
    congr 1
    omega
  rw [hrest, kept, List.append_assoc, List.take_append_drop, List.take_append_drop]

theorem kept_map (f : UInt32 → Float32) (k : Nat) (ordered : List UInt32) :
    kept k (ordered.map f) = (kept k ordered).map f := by
  simp only [kept, List.map_take, List.map_drop, List.length_map]

/-! ### Summaries -/

/-- What a summary says of readings: the ends of their order, the middle of it, and the mean of
what is left of it when as many are dropped from each end as the share comes to, in whole readings
and below half of all. -/
structure Summarizes (stats : Statistics) (patterns : List UInt32) (trim : Float32) : Prop where
  samples : stats.samples = patterns.length
  extremes : ∃ lowest highest, stats.min = .ofBits lowest ∧ stats.max = .ofBits highest ∧
    lowest ∈ patterns ∧ highest ∈ patterns ∧
      ∀ reading ∈ patterns, bitsLe lowest reading = true ∧ bitsLe reading highest = true
  median : ∃ below above, below.length = above.length ∧
    ((∃ middle, Orders (below ++ middle :: above) patterns ∧ stats.median = .ofBits middle) ∨
      ∃ left right, Orders (below ++ left :: right :: above) patterns ∧
        stats.median = (.ofBits left + .ofBits right) / 2)
  mean : ∃ low rest high, Orders (low ++ rest ++ high) patterns ∧ rest ≠ [] ∧
    low.length = Min.min (wholePart (ofNat patterns.length * trim)) ((patterns.length - 1) / 2) ∧
    high.length = low.length ∧
    stats.mean = Single.sum (rest.map Float32.ofBits) / ofNat rest.length

theorem Orders.median (h : Orders ordered patterns) (hne : ordered ≠ []) :
    ∃ below above : List UInt32, below.length = above.length ∧
      ((∃ middle, Orders (below ++ middle :: above) patterns ∧
          medianOf (ordered.map Float32.ofBits) = .ofBits middle) ∨
        ∃ left right, Orders (below ++ left :: right :: above) patterns ∧
          medianOf (ordered.map Float32.ofBits) = (.ofBits left + .ofBits right) / 2) := by
  obtain ⟨below, above, heven, hmiddle | hmiddle⟩ :=
    medianOf_middle (mt List.map_eq_nil_iff.1 hne : ordered.map Float32.ofBits ≠ [])
  · obtain ⟨middle, hsplit, hmedian⟩ := hmiddle
    rw [hmedian]
    obtain ⟨lower, upper, rfl, rfl, hupper⟩ := List.map_eq_append_iff.1 hsplit
    obtain ⟨center, rest, rfl, rfl, rfl⟩ := List.map_eq_cons_iff.1 hupper
    rw [List.length_map, List.length_map] at heven
    exact ⟨lower, rest, heven, .inl ⟨center, h, rfl⟩⟩
  · obtain ⟨left, right, hsplit, hmedian⟩ := hmiddle
    rw [hmedian]
    obtain ⟨lower, upper, rfl, rfl, hupper⟩ := List.map_eq_append_iff.1 hsplit
    obtain ⟨first, others, rfl, rfl, hothers⟩ := List.map_eq_cons_iff.1 hupper
    obtain ⟨second, rest, rfl, rfl, rfl⟩ := List.map_eq_cons_iff.1 hothers
    rw [List.length_map, List.length_map] at heven
    exact ⟨lower, rest, heven, .inr ⟨first, second, h, rfl⟩⟩

theorem ofBits?_summarizes (h : patterns ≠ []) (trim : Float32) :
    ∃ stats, ofBits? patterns trim = some stats ∧ stats.Summarizes patterns trim := by
  have horders := orders_sorted patterns
  have hlength := horders.1.length_eq
  have hpos : 0 < (sorted patterns).length := hlength ▸ List.length_pos_of_ne_nil h
  obtain ⟨lowest, highest, hstats, hbounds⟩ := ofBits?_ends h trim
  refine ⟨_, hstats, rfl, ⟨lowest, highest, rfl, rfl, hbounds⟩,
    horders.median (List.ne_nil_of_length_pos hpos), ?_⟩
  have hfew := trimCount_lt hpos trim
  have hsplit := take_kept_drop (Nat.le_of_lt hfew)
  have hrest := length_kept (Nat.le_of_lt hfew)
  refine ⟨_, _, _, hsplit.symm ▸ horders, ?_, ?_, ?_, ?_⟩
  · exact List.ne_nil_of_length_pos (hrest ▸ Nat.sub_pos_of_lt hfew)
  · rw [List.length_take, hlength]
    show Min.min (Min.min (toWhole _) _) _ = _
    rw [toWhole_eq_wholePart]
    omega
  · rw [List.length_take, List.length_drop]
    omega
  · show meanOf _ = _
    rw [kept_map, meanOf, List.length_map, hlength]

/-- Any readings but none at all have a summary, whatever the share to be trimmed. When a reading
is dangerous, the maximum shows it if and only if there is no NaN without a sign among the readings,
and so it does when all come from known sensors. Numbers are summarized by their bits. The readings
in any other order are sorted to the same bits and have the same summary. -/
theorem summary_of_readings (h : patterns ≠ []) (trim : Float32) :
    ∃ stats, ofBits? patterns trim = some stats ∧ stats.Summarizes patterns trim ∧
      (∀ settings : Settings,
        (∃ reading ∈ patterns, settings.isDangerous (.ofBits reading) = true) →
          (settings.isDangerous stats.max = true ↔
            ∀ reading ∈ patterns, ¬IsPositiveNaN reading) ∧
          ((∀ reading ∈ patterns, ∃ g ∈ Generation.all, ∃ register,
              reading = (g.celsius register).toBits) →
            settings.isDangerous stats.max = true)) ∧
      (∀ readings : List Float32, readings.map Float32.toBits = patterns →
        ofReadings? readings trim = some stats) ∧
      ∀ other : List UInt32, other.Perm patterns →
        sorted other = sorted patterns ∧ ofBits? other trim = some stats := by
  obtain ⟨stats, hstats, hsummary⟩ := ofBits?_summarizes h trim
  obtain ⟨_, highest, _, hmax, _, hmem, hbounds⟩ := hsummary.extremes
  refine ⟨stats, hstats, hsummary, ?_, ?_, ?_⟩
  · rintro settings ⟨hot, hhot, hdanger⟩
    have hiff : settings.isDangerous stats.max = true ↔
        ∀ reading ∈ patterns, ¬IsPositiveNaN reading := by
      rw [hmax]
      constructor
      · intro hshown reading hreading hnan
        have hlast := (hnan.of_bitsLe (hbounds reading hreading).2).isNaN
        rw [Settings.isNaN_of_isDangerous hshown] at hlast
        cases hlast
      · intro hnone
        have hbelow := (hbounds hot hhot).2
        have hnumber := Settings.isNaN_of_isDangerous hdanger
        have hlast := isNaN_of_bitsLe hnumber hbelow (hnone highest hmem)
        exact Settings.isDangerous_of_totalLe hdanger ((totalLe_ofBits hnumber hlast).trans hbelow)
          hlast
    refine ⟨hiff, fun hsensors => hiff.2 fun reading hreading hnan => ?_⟩
    obtain ⟨g, hg, register, rfl⟩ := hsensors reading hreading
    have hnumber := hnan.isNaN
    rw [Float32.ofBits_toBits, Generation.isNaN_celsius hg] at hnumber
    cases hnumber
  · rintro readings rfl
    exact hstats
  · intro other hperm
    have hsame := sorted_eq_of_perm hperm
    refine ⟨hsame, ?_⟩
    rw [← hstats, ofBits?, ofBits?, hsame]

/-- A hot chip does not show beside a NaN without a sign, in whichever order they are read; beside
one with a sign it does. -/
theorem summary_of_hot_reading_beside_nan :
    Settings.standard.isDangerous (.ofBits 0x42fa0000) = true ∧
      (∃ stats, ofBits? [0x42fa0000, 0x7fc00000] standardTrim = some stats ∧
        ofBits? [0x7fc00000, 0x42fa0000] standardTrim = some stats ∧
        Settings.standard.isDangerous stats.max = false) ∧
      ∃ stats, ofBits? [0x42fa0000, 0xffc00000] standardTrim = some stats ∧
        Settings.standard.isDangerous stats.max = true := by
  have hdanger : Settings.standard.isDangerous (.ofBits 0x42fa0000) = true := by decide +kernel
  obtain ⟨hidden, hstats, _, hshown, _, hother⟩ :=
    summary_of_readings (List.cons_ne_nil 0x42fa0000 [0x7fc00000]) standardTrim
  obtain ⟨caught, hcaught, _, hplain, _⟩ :=
    summary_of_readings (List.cons_ne_nil 0x42fa0000 [0xffc00000]) standardTrim
  refine ⟨hdanger, ⟨hidden, hstats, (hother _ (.swap ..)).2, ?_⟩, caught, hcaught, ?_⟩
  · rw [← Bool.not_eq_true, (hshown .standard ⟨_, List.mem_cons_self, hdanger⟩).1]
    exact fun hnone => hnone 0x7fc00000 (by simp) (by decide)
  · refine (hplain .standard ⟨_, List.mem_cons_self, hdanger⟩).1.2 ?_
    simp only [List.forall_mem_cons]
    exact ⟨by decide, by decide, nofun⟩

end Statistics

end Thermal

end HashBoard
