import HashBoard.Proofs.Chain.Filling
import HashBoard.Proofs.Chain.Service
import HashBoard.Proofs.Chain.ThermalPass
import HashBoard.Proofs.Thermal.Readings

/-!
# The thermal interlock of a worker

A worker powers its chain off when a full pass finds a dangerous temperature, but only if the scan
goes on to its end: a failure while results are read ends the scan, and the temperature is not
looked at.
-/

namespace HashBoard

open Bus Wire

namespace Worker

variable {τ : Type}

theorem fill_eq (w : Worker τ) : ∃ queue source pending,
    w.fill = { w with chain := { w.chain with queue }, source, pending } := by
  obtain ⟨offers, hfills⟩ := w.fill_fills
  obtain ⟨_, source, pending, hfilled, _, _⟩ := hfills.serves
  exact ⟨_, source, pending, hfilled⟩

theorem answerDanger_of_isDangerous (w : Worker τ) {tally : ScanTally} {stats : Thermal.Statistics}
    (hstats : tally.temperature = some stats) (hdanger : w.thermal.isDangerous stats.max = true) :
    ∃ chain, w.answerDanger tally =
        (true, { w with
          chain
          alarms := ⟨some w.chain.id, stats.max, "chip temperature at or above danger threshold"⟩ ::
            w.alarms }) ∧
      chain.power = w.chain.power.map fun line => (line.ask .off).2 := by
  unfold answerDanger
  simp only [hstats, if_pos hdanger]
  refine ⟨_, rfl, ?_⟩
  rw [Chain.switchOff_snd]

theorem answerDanger_of_not_isDangerous (w : Worker τ) {tally : ScanTally}
    {stats : Thermal.Statistics} (hstats : tally.temperature = some stats)
    (hsafe : ¬w.thermal.isDangerous stats.max = true) : w.answerDanger tally = (false, w) := by
  unfold answerDanger
  simp only [hstats, if_neg hsafe]

variable [Channel τ]

theorem step_of_full (w : Worker τ) (now : Nat) (hcores : w.chain.numCores ≠ 0)
    (hdue : w.chain.schedule.due now = some .full) :
    ∃ w' : Worker τ, w'.thermal = w.thermal ∧ w'.alarms = w.alarms ∧ w'.chain.id = w.chain.id ∧
      w'.chain.power = w.chain.power ∧
      ((∃ cause, w.chain.resultsAfterPass = .error cause ∧ w.step now = (.goOn true, w')) ∨
        (w.chain.resultsAfterPass = .ok () ∧ ∃ tally, tally.temperature = w.chain.fullPass? ∧
          w.step now =
            match w'.answerDanger tally with
            | (true, w) => (.tripped, w)
            | (false, w) => (.goOn tally.isUneventful, w))) := by
  obtain ⟨queue, source, pending, hfill⟩ := w.fill_eq
  have hscan := Chain.scan_of_full { w.chain with queue } w.sink w.overview now hcores hdue
  unfold step
  simp only [hfill]
  generalize Chain.scan { w.chain with queue } w.sink w.overview now = scanned at hscan ⊢
  obtain ⟨result, chain, sink, overview⟩ := scanned
  obtain ⟨hresult, hid, hpower⟩ := hscan
  refine ⟨⟨chain, source, sink, overview, w.thermal, pending, w.alarms⟩, rfl, rfl, hid, hpower, ?_⟩
  rcases hresult with ⟨cause, hcause, rfl⟩ | ⟨hok, tally, rfl, hfindings⟩
  · exact .inl ⟨cause, hcause, rfl⟩
  · obtain ⟨hidle, htemperature⟩ := Prod.mk.inj hfindings
    refine .inr ⟨hok, tally, htemperature, ?_⟩
    simp only [hidle]
    rfl

/-- A step in which a full pass reads a dangerous temperature cuts the power and raises one alarm
with the maximum exactly when the results can be read through after the pass and the maximum is a
number. Else the worker goes on as if nothing had happened. With the sensor of a known generation
the maximum is a number, unless readings of an earlier pass are left over. -/
theorem step_of_dangerous_reading (w : Worker τ) (now : Nat) (hcores : w.chain.numCores ≠ 0)
    (hdue : w.chain.schedule.due now = some .full) {reading : UInt8 × Float32}
    (hread : reading ∈ (temperatures w.chain.chips w.chain.bus).1)
    (hdanger : w.thermal.isDangerous reading.2 = true) :
    ∃ stats, w.chain.fullPass? = some stats ∧ stats.max ∈ w.chain.passReadings ∧
      (∀ other ∈ w.chain.passReadings, Single.totalLe other stats.max = true) ∧
      (w.chain.resultsAfterPass = .ok () ∧ stats.max.isNaN = false →
        (w.step now).1 = .tripped ∧
        (w.step now).2.chain.power = w.chain.power.map (fun line => (line.ask .off).2) ∧
        (w.step now).2.alarms = ⟨some w.chain.id, stats.max,
          "chip temperature at or above danger threshold"⟩ :: w.alarms) ∧
      (¬(w.chain.resultsAfterPass = .ok () ∧ stats.max.isNaN = false) →
        (∃ quiet, (w.step now).1 = .goOn quiet) ∧
        (w.step now).2.chain.power = w.chain.power ∧
        (w.step now).2.alarms = w.alarms) ∧
      (w.chain.generation ∈ Generation.all → w.chain.schedule.readings = [] →
        stats.max.isNaN = false) := by
  have hmem : reading.2 ∈ w.chain.passReadings :=
    List.mem_map_of_mem (List.mem_append_right _ hread)
  obtain ⟨stats, hstats, hmax, hlast⟩ :=
    Thermal.Statistics.ofReadings?_of_mem hmem w.chain.schedule.trim
  refine ⟨stats, hstats, hmax, hlast, ?_⟩
  obtain ⟨w', hthermal, halarms, hid, hpower, hstep⟩ := w.step_of_full now hcores hdue
  rw [← and_assoc]
  constructor
  · rcases hstep with ⟨cause, hcause, hstep⟩ | ⟨hok, tally, htemperature, hstep⟩
    · -- The scan ended with an error, and its tally is gone.
      rw [hstep, hcause]
      refine ⟨?_, fun _ => ⟨⟨true, rfl⟩, hpower, halarms⟩⟩
      rintro ⟨hok, _⟩
      cases hok
    · have htemperature := htemperature.trans hstats
      rw [hstep]
      by_cases hnumber : stats.max.isNaN = false
      · have hmaxdanger : w'.thermal.isDangerous stats.max = true := by
          rw [hthermal]
          exact Thermal.Settings.isDangerous_of_totalLe hdanger (hlast _ hmem) hnumber
        obtain ⟨chain, hanswer, hcut⟩ := w'.answerDanger_of_isDangerous htemperature hmaxdanger
        rw [hanswer, ← halarms, ← hid, ← hpower]
        exact ⟨fun _ => ⟨rfl, hcut, rfl⟩, fun hnot => absurd ⟨hok, hnumber⟩ hnot⟩
      · have hsafe : ¬w'.thermal.isDangerous stats.max = true :=
          fun h => hnumber (Thermal.Settings.isNaN_of_isDangerous h)
        rw [w'.answerDanger_of_not_isDangerous htemperature hsafe]
        exact ⟨fun h => absurd h.2 hnumber, fun _ => ⟨⟨_, rfl⟩, hpower, halarms⟩⟩
  · intro hgen hreadings
    obtain ⟨other, hother, heq⟩ := List.mem_map.1 hmax
    rw [hreadings] at hother
    obtain ⟨register, hregister⟩ := exists_register_of_mem_temperatures hother
    rw [← heq, hregister]
    exact Generation.isNaN_celsius hgen register

/-- A worker with one chip at 125 °C, on a bus on which some writes fail; a full pass is due after a
minute. -/
def withHotChip? (failWrites : List Nat) : Option (Worker Script) :=
  let bus := Service.oneChip [Service.chipReply false]
  let failing := { bus with channel := { bus.channel with failWrites } }
  (Service.ofBus? failing 60000).map fun s =>
    { chain := s.chain.poweredBy ⟨fun _ _ => .ok (), []⟩
      source := .ofList []
      sink := s.sink
      overview := .empty
      thermal := .standard
      pending := none
      alarms := [] }

def readsDanger (w : Worker Script) (through : Bool) : Bool :=
  w.chain.numCores != 0 &&
    (match w.chain.schedule.due 60000 with | some .full => true | _ => false) &&
    (temperatures w.chain.chips w.chain.bus).1.any (fun reading => w.thermal.isDangerous reading.2) &&
    (match w.chain.resultsAfterPass with | .ok () => through | .error _ => !through) &&
    w.chain.fullPass?.all fun stats => !stats.max.isNaN

theorem of_readsDanger {w : Worker Script} {through : Bool} (h : readsDanger w through = true) :
    w.chain.numCores ≠ 0 ∧ w.chain.schedule.due 60000 = some .full ∧
      (∃ reading ∈ (temperatures w.chain.chips w.chain.bus).1,
        w.thermal.isDangerous reading.2 = true) ∧
      (w.chain.resultsAfterPass = .ok () ↔ through = true) ∧
      ∀ stats, w.chain.fullPass? = some stats → stats.max.isNaN = false := by
  unfold readsDanger at h
  simp only [Bool.and_eq_true, bne_iff_ne] at h
  obtain ⟨⟨⟨⟨hcores, hdue⟩, hany⟩, hresults⟩, hnumber⟩ := h
  refine ⟨hcores, ?_, List.any_eq_true.1 hany, ?_, ?_⟩
  · split at hdue
    · assumption
    · cases hdue
  · split at hresults
    · rename_i hok
      exact ⟨fun _ => hresults, fun _ => hok⟩
    · rename_i cause hcause
      rw [hcause]
      constructor
      · intro hok
        cases hok
      · intro hthrough
        rw [hthrough] at hresults
        cases hresults
  · intro stats hstats
    rw [hstats] at hnumber
    simpa only [Option.all_some, Bool.not_eq_true'] using hnumber

theorem of_withHotChip? {w : Worker Script} {failWrites : List Nat}
    (h : w ∈ withHotChip? failWrites) :
    w.chain.power = some ⟨fun _ _ => .ok (), []⟩ ∧ w.alarms = [] := by
  obtain ⟨s, _, rfl⟩ := Option.map_eq_some_iff.1 h
  exact ⟨rfl, rfl⟩

theorem step_of_hot_chip :
    (∃ w ∈ withHotChip? [], (w.step 60000).1 = .tripped ∧
      (w.step 60000).2.chain.power.map PowerLine.calls = some [.off] ∧
      ∃ alarm : Thermal.Alarm, (w.step 60000).2.alarms = [alarm] ∧ alarm.chain = some w.chain.id) ∧
    ∃ w ∈ withHotChip? [9], (∃ quiet, (w.step 60000).1 = .goOn quiet) ∧
      (w.step 60000).2.chain.power.map PowerLine.calls = some [] ∧
      (w.step 60000).2.alarms = [] := by
  have hthrough : ((withHotChip? []).any fun w => readsDanger w true) = true := by decide +kernel
  have hended : ((withHotChip? [9]).any fun w => readsDanger w false) = true := by decide +kernel
  constructor
  · obtain ⟨w, hw, hcheck⟩ := (Option.any_eq_true _ _).1 hthrough
    obtain ⟨hcores, hdue, ⟨reading, hread, hdanger⟩, hresults, hnumber⟩ := of_readsDanger hcheck
    obtain ⟨hline, halarms⟩ := of_withHotChip? hw
    obtain ⟨stats, hstats, _, _, htrips, _⟩ :=
      w.step_of_dangerous_reading 60000 hcores hdue hread hdanger
    obtain ⟨hstep, hpower, halarm⟩ := htrips ⟨hresults.2 rfl, hnumber stats hstats⟩
    refine ⟨w, hw, hstep, ?_, _, halarm.trans (congrArg (List.cons _) halarms), rfl⟩
    rw [hpower, hline]
    rfl
  · obtain ⟨w, hw, hcheck⟩ := (Option.any_eq_true _ _).1 hended
    obtain ⟨hcores, hdue, ⟨reading, hread, hdanger⟩, hresults, _⟩ := of_readsDanger hcheck
    obtain ⟨hline, halarms⟩ := of_withHotChip? hw
    obtain ⟨stats, _, _, _, _, hgoes, _⟩ :=
      w.step_of_dangerous_reading 60000 hcores hdue hread hdanger
    obtain ⟨hstep, hpower, halarm⟩ := hgoes fun h => Bool.false_ne_true (hresults.1 h.1)
    refine ⟨w, hw, hstep, ?_, ?_⟩
    · rw [hpower, hline]
      rfl
    · rw [halarm, halarms]

end Worker

end HashBoard
