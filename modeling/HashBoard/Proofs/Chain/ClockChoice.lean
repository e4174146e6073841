import HashBoard.Proofs.Chain.DetectionOrder
import Mathlib.Data.List.Nodup

/-!
# The choice of a clock

The table of clocks falls, so the first of its entries that is not above a request is the fastest
such. From this come the order of the choices and that a clock chosen once is chosen again. The
sensors are set up for the clock that was chosen, which is slow enough for their divider to fit into
its byte.
-/

namespace HashBoard

open Bus

namespace Wire

/-! ### The table -/

/-- The supported clocks, fastest first. -/
def clocks : List UInt32 := clockTable.map Prod.fst

theorem clockTable_falls : clockTable.Pairwise fun faster slower => slower.1 < faster.1 := by
  decide

theorem clock_bounds {clock : UInt32} (h : clock ∈ clocks) : 120 ≤ clock ∧ clock ≤ 1300 := by
  have hall : (clocks.all fun clock => 120 ≤ clock ∧ clock ≤ 1300) = true := by decide
  exact of_decide_eq_true (List.all_eq_true.1 hall clock h)

/-- In a table by falling key the first entry not above a bound has the greatest such key. -/
theorem le_of_find?_falling {β : Type} {table : List (UInt32 × β)} {bound : UInt32}
    {entry : UInt32 × β} (hfalls : table.Pairwise fun above below => below.1 < above.1)
    (h : table.find? (fun entry => entry.1 ≤ bound) = some entry) :
    ∀ other ∈ table, other.1 ≤ bound → other.1 ≤ entry.1 := by
  obtain ⟨_, before, after, rfl, habove⟩ := List.find?_eq_some_iff_append.1 h
  intro other hmem hother
  rcases List.mem_append.1 hmem with hbefore | hrest
  · have hnot := habove other hbefore
    simp [hother] at hnot
  · have hbelow := (List.pairwise_cons.1 (List.pairwise_append.1 hfalls).2.1).1
    rcases List.mem_cons.1 hrest with rfl | hafter
    · exact UInt32.le_refl _
    · exact UInt32.le_of_lt (hbelow other hafter)

theorem eq_of_clock_eq {entry other : UInt32 × UInt8 × UInt8 × UInt8 × UInt8}
    (hentry : entry ∈ clockTable) (hother : other ∈ clockTable) (h : entry.1 = other.1) :
    entry = other := by
  have hdistinct : (clockTable.map Prod.fst).Nodup := by decide
  exact List.inj_on_of_nodup_map hdistinct hentry hother h

/-! ### Choosing -/

variable {mhz other : UInt32}

theorem selectClock_mem (mhz : UInt32) : selectClock mhz ∈ clocks :=
  List.mem_map_of_mem (clockEntry_mem mhz)

/-- The fastest clock not above the request, or the slowest of all. -/
theorem selectClock_cases (mhz : UInt32) :
    (selectClock mhz ≤ mhz ∧ ∀ clock ∈ clocks, clock ≤ mhz → clock ≤ selectClock mhz) ∨
      ((∀ clock ∈ clocks, mhz < clock) ∧ selectClock mhz = 120) := by
  unfold selectClock clockEntry clocks
  rw [List.forall_mem_map, List.forall_mem_map]
  cases hfound : clockTable.find? fun entry => entry.1 ≤ mhz with
  | some entry =>
    have hle : entry.1 ≤ mhz := by simpa using List.find?_some hfound
    exact .inl ⟨hle, le_of_find?_falling clockTable_falls hfound⟩
  | none =>
    refine .inr ⟨fun entry hmem => ?_, rfl⟩
    simpa using List.find?_eq_none.1 hfound entry hmem

theorem le_selectClock {clock : UInt32} (hmem : clock ∈ clocks) (h : clock ≤ mhz) :
    clock ≤ selectClock mhz := by
  rcases selectClock_cases mhz with ⟨_, hgreatest⟩ | ⟨hnone, _⟩
  · exact hgreatest clock hmem h
  · exact absurd (hnone clock hmem) (UInt32.not_lt.2 h)

theorem selectClock_mono (h : mhz ≤ other) : selectClock mhz ≤ selectClock other := by
  rcases selectClock_cases mhz with ⟨hle, _⟩ | ⟨_, hslowest⟩
  · exact le_selectClock (selectClock_mem mhz) (UInt32.le_trans hle h)
  · rw [hslowest]
    exact (clock_bounds (selectClock_mem other)).1

/-- A supported clock is chosen for itself. -/
theorem selectClock_of_mem (h : mhz ∈ clocks) : selectClock mhz = mhz := by
  rcases selectClock_cases mhz with ⟨hle, hgreatest⟩ | ⟨hnone, _⟩
  · exact UInt32.le_antisymm hle (hgreatest mhz h (UInt32.le_refl _))
  · exact absurd (hnone mhz h) (UInt32.lt_irrefl _)

theorem clockRegister_selectClock (mhz : UInt32) :
    clockRegister (selectClock mhz) = clockRegister mhz := by
  have hentry : clockEntry (selectClock mhz) = clockEntry mhz :=
    eq_of_clock_eq (clockEntry_mem _) (clockEntry_mem _) (selectClock_of_mem (selectClock_mem mhz))
  unfold clockRegister
  rw [hentry]

/-! ### The clock word -/

/-- The word makes a chip run at the clock: its fields give that frequency, the fixed ones are as
they have to be, and no bit outside the fields is set. -/
structure ClockWord.Programs (word : ClockWord) (mhz : UInt32) : Prop where
  frequency : word.frequency? = some mhz.toNat
  fixed : word.fixed = 0b010
  packed : ofFields? word.prediv word.fbdiv word.postdiv word.fixed = some word

theorem clockRegister_programs (mhz : UInt32) :
    (ClockWord.ofRegister (clockRegister mhz)).Programs (selectClock mhz) := by
  have htable : (clockTable.all fun entry =>
      let word : ClockWord := ⟨Bytes.be32 entry.2.1 entry.2.2.1 entry.2.2.2.1 entry.2.2.2.2⟩
      word.fixed = 0b010 ∧
        ClockWord.ofFields? word.prediv word.fbdiv word.postdiv word.fixed = some word) = true := by
    decide
  obtain ⟨hfixed, hpacked⟩ := of_decide_eq_true (List.all_eq_true.1 htable _ (clockEntry_mem mhz))
  exact ⟨frequency_clockRegister mhz, hfixed, hpacked⟩

/-! ### The sensor divider -/

/-- The divider for the sensors of a chip, in exact arithmetic. -/
def sensorShare (mhz : Nat) : Nat := mhz / 2 * 1000 / 16 / 650

/-- A divider that fits is computed as if there were no limits. -/
theorem sensorDivider_exact (hproduct : mhz.toNat / 2 * 1000 < 4294967296)
    (hshare : sensorShare mhz.toNat < 256) :
    ((Register.sensorDivider mhz).bytes[5]).toNat = sensorShare mhz.toNat := by
  have hword : (mhz / 2 * 1000).toNat = mhz.toNat / 2 * 1000 := by
    rw [UInt32.toNat_mul, UInt32.toNat_div]
    exact Nat.mod_eq_of_lt hproduct
  show (mhz / 2 * 1000 / 16 / 650).toUInt8.toNat = sensorShare mhz.toNat
  rw [UInt32.toNat_toUInt8, UInt32.toNat_div, UInt32.toNat_div, hword]
  exact Nat.mod_eq_of_lt hshare

theorem sensorShare_bounds {clock : UInt32} (h : clock ∈ clocks) :
    clock.toNat / 2 * 1000 < 4294967296 ∧ sensorShare clock.toNat < 256 := by
  have hfastest : clock.toNat ≤ 1300 := UInt32.le_iff_toNat_le.1 (clock_bounds h).2
  unfold sensorShare
  omega

end Wire

namespace Detection

open Wire

variable {τ : Type} [Channel τ]

/-! ### Detection -/

/-- The register writes of a detection are two broadcasts, the clock and then the sensors. -/
theorem stores_of_order {settings : DetectionSettings} {count : UInt8} {frame : Bytes}
    (h : frame ∈ order settings count) :
    (frame.headD 0 = Opcode.writeReg.code →
        frame = (clockRegister settings.targetMhz).storeFrame .writeReg broadcast) ∧
      (frame.headD 0 = Opcode.writeSecReg.code →
        frame = (Register.sensorDivider (selectClock settings.targetMhz)).storeFrame .writeSecReg
          broadcast) := by
  have hother {opcode : Opcode} {rest : Bytes} {p q : Prop}
      (hopcode : opcode.code ≠ Opcode.writeReg.code ∧ opcode.code ≠ Opcode.writeSecReg.code) :
      ((opcode.code :: rest).headD 0 = Opcode.writeReg.code → p) ∧
        ((opcode.code :: rest).headD 0 = Opcode.writeSecReg.code → q) :=
    ⟨fun h => absurd h hopcode.1, fun h => absurd h hopcode.2⟩
  rcases List.mem_append.1 h with hopening | hread
  · simp only [opening, List.mem_cons, List.not_mem_nil, or_false] at hopening
    rcases hopening with rfl | rfl | rfl | rfl | rfl | rfl
    · exact hother (by decide)
    · exact hother (by decide)
    · exact ⟨fun _ => rfl, fun h => absurd h (by decide : Opcode.writeReg.code ≠ _)⟩
    · exact hother (by decide)
    · exact hother (by decide)
    · exact ⟨fun h => absurd h (by decide : Opcode.writeSecReg.code ≠ _), fun _ => rfl⟩
  · obtain ⟨id, _, rfl⟩ := List.mem_map.1 hread
    exact hother (by decide)

/-- What a detection has written, in turn: a part of its order, and all of it if the chain was found. -/
theorem detect_writes (settings : DetectionSettings) (bus : Bus τ) :
    ∃ (count : UInt8) (written : List Bytes),
    (detect settings bus).2.frames = written.reverse ++ bus.frames ∧
      written <+: order settings count ∧
      ∀ found, (detect settings bus).1 = .ok found → written = order settings count := by
  obtain ⟨steps, last, reads, hsteps, hreads, hend⟩ := detect_inTurn settings bus
  obtain ⟨_, hopening⟩ := hsteps.written (List.forall₂_take _ (opening_writes settings))
  obtain ⟨_, hframes⟩ := hreads.written (probes_write 0 reads.length)
  refine ⟨reported steps, _, ?_, hend.written_isPrefix, fun found hfound => ?_⟩
  · rw [hframes, hopening, List.reverse_append, List.append_assoc]
  · rw [hfound] at hend
    exact hend.of_ok.1

/-- For every request the fastest supported clock that is not above it is chosen, or the slowest one,
120 MHz, if there is none. The register written for it makes a chip run at exactly that clock. A
higher request never gets a lower clock, and the clock chosen is chosen for itself. The sensor
divider of that clock is computed without loss, and it is what a detection sets the sensors up
with. -/
theorem clock_of_every_request (mhz : UInt32) :
    selectClock mhz ∈ clocks ∧
    ((selectClock mhz ≤ mhz ∧ ∀ clock ∈ clocks, clock ≤ mhz → clock ≤ selectClock mhz) ∨
      ((∀ clock ∈ clocks, mhz < clock) ∧ selectClock mhz = 120)) ∧
    (ClockWord.ofRegister (clockRegister mhz)).Programs (selectClock mhz) ∧
    (∀ other, mhz ≤ other → selectClock mhz ≤ selectClock other) ∧
    (selectClock (selectClock mhz) = selectClock mhz ∧
      clockRegister (selectClock mhz) = clockRegister mhz) ∧
    ((selectClock mhz).toNat / 2 * 1000 < 4294967296 ∧ sensorShare (selectClock mhz).toNat < 256 ∧
      ((Register.sensorDivider (selectClock mhz)).bytes[5]).toNat =
        sensorShare (selectClock mhz).toNat) ∧
    ∀ (limit : Option Nat) (bus : Bus τ), ∃ written : List Bytes,
      (detect ⟨mhz, limit⟩ bus).2.frames = written.reverse ++ bus.frames ∧
      (∀ frame ∈ written,
        (frame.headD 0 = Opcode.writeReg.code →
          frame = (clockRegister mhz).storeFrame .writeReg broadcast) ∧
        (frame.headD 0 = Opcode.writeSecReg.code →
          frame = (Register.sensorDivider (selectClock mhz)).storeFrame .writeSecReg broadcast)) ∧
      ∀ found, (detect ⟨mhz, limit⟩ bus).1 = .ok found →
        found.pllMhz = selectClock mhz ∧
        (clockRegister mhz).storeFrame .writeReg broadcast ∈ written ∧
        (Register.sensorDivider found.pllMhz).storeFrame .writeSecReg broadcast ∈ written := by
  have hmem := selectClock_mem mhz
  obtain ⟨hproduct, hshare⟩ := sensorShare_bounds hmem
  refine ⟨hmem, selectClock_cases mhz, clockRegister_programs mhz, ?_, ?_, ?_, ?_⟩
  · exact fun other h => selectClock_mono h
  · exact ⟨selectClock_of_mem hmem, clockRegister_selectClock mhz⟩
  · refine ⟨hproduct, hshare, ?_⟩
    exact sensorDivider_exact hproduct hshare
  intro limit bus
  obtain ⟨count, written, hframes, hpart, hwhole⟩ := detect_writes ⟨mhz, limit⟩ bus
  have hstores (frame : Bytes) (hmem : frame ∈ written) := stores_of_order (hpart.subset hmem)
  refine ⟨written, hframes, hstores, fun found hfound => ?_⟩
  have hclock : found.pllMhz = selectClock mhz := detect_clock (Prod.ext hfound rfl)
  rw [hwhole found hfound, hclock]
  exact ⟨rfl, List.mem_append_left _ (by simp [opening]),
    List.mem_append_left _ (by simp [opening])⟩

end Detection

end HashBoard
