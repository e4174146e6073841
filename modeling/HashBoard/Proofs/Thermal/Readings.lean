import HashBoard.Generation
import HashBoard.Thermal.Settings
import HashBoard.Proofs.Single.Numbers
import HashBoard.Proofs.Single.Patterns

/-!
# Readings and their maximum

The sensors of the known generations always read as numbers. The maximum of some readings is one of
them and comes last in their order, so it is dangerous as soon as one of them is, unless it is no
number.
-/

namespace HashBoard

open Single

namespace Thermal

/-! ### Sensor curves -/

namespace SensorCurve

theorem bracket_spec {code : UInt16} {codes : List UInt16} {before place : Nat} {hi lo : UInt16}
    (h : bracket code codes before = some (place, hi, lo)) :
    (hi, lo) ∈ codes.zip codes.tail ∧ place < before + codes.length := by
  fun_induction bracket code codes before with
  | case1 before hi' lo' rest hle =>
    cases h
    refine ⟨List.mem_cons_self, ?_⟩
    simp only [List.length_cons]
    omega
  | case2 before hi' lo' rest hle ih =>
    obtain ⟨hmem, hplace⟩ := ih h
    refine ⟨List.mem_cons_of_mem _ hmem, ?_⟩
    simp only [List.length_cons] at hplace ⊢
    omega
  | case3 => cases h

theorem isNaN_linear {offset scale : Float32} (hoffset : offset.isFinite = true)
    (hscale : isProper scale = true) (code : UInt16) :
    ((linear offset scale).celsius code).isNaN = false :=
  isNaN_mul_right (isNaN_sub hoffset (isNaN_ofUInt16 code)) hscale

theorem isNaN_table {start step : Float32} {codes : List UInt16} (hstart : start.isFinite = true)
    (hstep : isProper step = true)
    (hcodes : (codes.all fun code => code.toFloat32.isFinite) = true)
    (hgaps : ((codes.zip codes.tail).all fun (hi, lo) => isProper (hi.toFloat32 - lo.toFloat32)) =
      true)
    (hplaces : ((List.range codes.length).all fun place => (ofNat place).isFinite) = true)
    (code : UInt16) :
    ((table start step codes).celsius code).isNaN = false := by
  have hstart' : start.isNaN = false := isNaN_of_isFinite hstart
  show (interpolate start step codes code).isNaN = false
  unfold interpolate
  split
  · split
    · exact hstart'
    · split
      · exact isNaN_add hstart (isNaN_mul hstep (isNaN_ofNat _))
      · split
        · rename_i hbracket
          obtain ⟨hpair, hplace⟩ := bracket_spec hbracket
          rw [Nat.zero_add] at hplace
          have hhi := List.all_eq_true.1 hcodes _ (List.of_mem_zip hpair).1
          have hgap := List.all_eq_true.1 hgaps _ hpair
          have hbefore := List.all_eq_true.1 hplaces _ (List.mem_range.2 hplace)
          have hfraction := isNaN_div (isNaN_sub hhi (isNaN_ofUInt16 code)) hgap
          exact isNaN_add hstart (isNaN_mul hstep (isNaN_add hbefore hfraction))
        · exact hstart'
  · exact hstart'

theorem isNaN_tableA4 (code : UInt16) : (tableA4.celsius code).isNaN = false :=
  isNaN_table (by decide +kernel) (by decide +kernel) (by decide +kernel) (by decide +kernel)
    (by decide +kernel) code

theorem isNaN_linearA6 (code : UInt16) : (linearA6.celsius code).isNaN = false :=
  isNaN_linear (by decide +kernel) (by decide +kernel) code

end SensorCurve

end Thermal

theorem Generation.isNaN_celsius {g : Generation} (hg : g ∈ Generation.all)
    (register : Wire.Register) : (g.celsius register).isNaN = false := by
  simp only [Generation.all, List.mem_cons, List.not_mem_nil, or_false] at hg
  rcases hg with rfl | rfl
  · exact Thermal.SensorCurve.isNaN_linearA6 _
  · exact Thermal.SensorCurve.isNaN_tableA4 _

namespace Thermal

/-! ### Readings in order -/

theorem sorted_pairwise (patterns : List UInt32) :
    (Statistics.sorted patterns).Pairwise fun a b => bitsLe a b = true := by
  refine List.pairwise_mergeSort ?_ bitsLe_total patterns
  exact fun _ _ _ => bitsLe_trans

namespace Statistics

variable {patterns ordered : List UInt32}

/-- The readings put in their total order. -/
def Orders (ordered patterns : List UInt32) : Prop :=
  ordered.Perm patterns ∧ ordered.Pairwise fun a b => bitsLe a b = true

theorem orders_sorted (patterns : List UInt32) : Orders (sorted patterns) patterns :=
  ⟨List.mergeSort_perm _ _, sorted_pairwise patterns⟩

/-- The first and the last of some readings in order bound them all. -/
theorem Orders.bounds (h : Orders ordered patterns) (hne : patterns ≠ []) :
    ∃ lowest highest, ordered.head? = some lowest ∧ ordered.getLast? = some highest ∧
      lowest ∈ patterns ∧ highest ∈ patterns ∧
      ∀ reading ∈ patterns, bitsLe lowest reading = true ∧ bitsLe reading highest = true := by
  obtain ⟨hperm, hpairwise⟩ := h
  cases ordered with
  | nil => exact absurd hperm.symm.eq_nil hne
  | cons lowest rest =>
    obtain ⟨highest, hlast⟩ :=
      Option.ne_none_iff_exists'.1 (mt List.getLast?_eq_none_iff.1 (List.cons_ne_nil lowest rest))
    obtain ⟨others, hothers⟩ := List.getLast?_eq_some_iff.1 hlast
    refine ⟨lowest, highest, rfl, hlast, hperm.mem_iff.1 List.mem_cons_self,
      hperm.mem_iff.1 (List.mem_of_getLast? hlast), ?_⟩
    intro reading hreading
    have hmem := hperm.mem_iff.2 hreading
    constructor
    · rcases List.mem_cons.1 hmem with rfl | hrest
      · exact bitsLe_refl reading
      · exact (List.pairwise_cons.1 hpairwise).1 reading hrest
    · rw [hothers] at hmem hpairwise
      rcases List.mem_append.1 hmem with hbefore | hhighest
      · exact (List.pairwise_append.1 hpairwise).2.2 reading hbefore highest List.mem_cons_self
      · exact List.mem_singleton.1 hhighest ▸ bitsLe_refl highest

/-- The summary of some readings has the ends of their order, which bound them all. -/
theorem ofBits?_ends (h : patterns ≠ []) (trim : Float32) : ∃ lowest highest,
    ofBits? patterns trim = some {
      min := .ofBits lowest
      max := .ofBits highest
      median := medianOf ((sorted patterns).map Float32.ofBits)
      mean := meanOf (kept (trimCount patterns.length trim)
        ((sorted patterns).map Float32.ofBits))
      samples := patterns.length } ∧
    lowest ∈ patterns ∧ highest ∈ patterns ∧
      ∀ reading ∈ patterns, bitsLe lowest reading = true ∧ bitsLe reading highest = true := by
  have horders := orders_sorted patterns
  obtain ⟨lowest, highest, hhead, hlast, hbounds⟩ := horders.bounds h
  refine ⟨lowest, highest, ?_, hbounds⟩
  unfold ofBits? ofOrdered?
  rw [List.head?_map, List.getLast?_map, hhead, hlast, List.length_map, horders.1.length_eq]
  rfl

theorem ofReadings?_of_mem {readings : List Float32} {reading : Float32} (h : reading ∈ readings)
    (trim : Float32) : ∃ stats, ofReadings? readings trim = some stats ∧ stats.max ∈ readings ∧
      ∀ other ∈ readings, totalLe other stats.max = true := by
  have hne : readings.map Float32.toBits ≠ [] :=
    List.ne_nil_of_mem (List.mem_map_of_mem h)
  obtain ⟨_, highest, hstats, _, hmem, hbounds⟩ := ofBits?_ends hne trim
  obtain ⟨hottest, hhottest, hbits⟩ := List.mem_map.1 hmem
  have hmax : Float32.ofBits highest = hottest := by
    rw [← hbits, Float32.ofBits_toBits]
  refine ⟨_, hstats, hmax ▸ hhottest, fun other hother => ?_⟩
  have hlast := (hbounds other.toBits (List.mem_map_of_mem hother)).2
  show bitsLe other.toBits (Float32.ofBits highest).toBits = true
  rw [hmax, hbits]
  exact hlast

end Statistics

theorem Settings.isDangerous_of_totalLe {settings : Settings} {a b : Float32}
    (ha : settings.isDangerous a = true) (hab : totalLe a b = true) (hb : b.isNaN = false) :
    settings.isDangerous b = true :=
  decide_eq_true (le_of_le_of_totalLe (of_decide_eq_true ha) hab hb)

theorem Settings.isNaN_of_isDangerous {settings : Settings} {a : Float32}
    (ha : settings.isDangerous a = true) : a.isNaN = false :=
  (not_isNaN_of_le (of_decide_eq_true ha)).2

end Thermal

end HashBoard
