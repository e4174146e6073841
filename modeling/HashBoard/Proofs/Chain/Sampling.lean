import HashBoard.Proofs.Chain.Succession
import HashBoard.Proofs.Chain.ThermalPass
import HashBoard.Proofs.Thermal.PassHistory

/-!
# Sampling a chain

The calls that the scans of a chain make on its schedule: a full pass records what its chips report
and ends, a quick pass asks one chip. The schedule that a run reaches follows from these calls, and
the chip of a quick pass is found at the place that its address gives.
-/

namespace HashBoard

open Bus Wire

namespace Chain

open HashBoard.Cycle Thermal

variable {τ : Type} [Channel τ] (c : Chain τ) (sink : Sink) (overview : Thermal.Overview) (now : Nat)

/-! ### Calls -/

/-- What the chip with an address reports when it is asked first, if it can be read. -/
def reading? (id : UInt8) : Option Float32 :=
  (temperatures c.chips[id.toNat - 1]?.toList c.bus).1.head?.map Prod.snd

/-- The calls that a scan makes on the schedule of its chain. -/
def sampling : List Schedule.Call :=
  if c.numCores = 0 then []
  else
    match c.schedule.due now with
    | none => []
    | some .full =>
      (temperatures c.chips c.bus).1.map (fun reading => .record reading.1 reading.2) ++
        [.endFull now]
    | some (.quick id) => [.endQuick now (c.reading? id)]

theorem sampling_of_full (hcores : c.numCores ≠ 0) (hdue : c.schedule.due now = some .full) :
    c.sampling now =
      (temperatures c.chips c.bus).1.map (fun reading => .record reading.1 reading.2) ++
        [.endFull now] := by
  rw [sampling, if_neg hcores, hdue]

theorem sampling_of_quick {id : UInt8} (hcores : c.numCores ≠ 0)
    (hdue : c.schedule.due now = some (.quick id)) :
    c.sampling now = [.endQuick now (c.reading? id)] := by
  rw [sampling, if_neg hcores, hdue]

theorem id_of_record {chip : UInt8} {celsius : Float32}
    (h : .record chip celsius ∈ c.sampling now) : chip ∈ c.chips.map Chip.id := by
  unfold sampling at h
  split at h
  · cases h
  · split at h
    · cases h
    · rcases List.mem_append.1 h with hrecorded | hended
      · obtain ⟨reading, hreading, heq⟩ := List.mem_map.1 hrecorded
        cases heq
        exact (temperatures_sublist c.chips c.bus).subset (List.mem_map_of_mem hreading)
      · cases List.mem_singleton.1 hended
    · cases List.mem_singleton.1 h

/-! ### Scans -/

theorem sample_of_quick {id : UInt8} (hdue : c.schedule.due now = some (.quick id)) :
    ∃ chips cy, (c.counted.cycle sink).sample c.options.tolerance now c.chips c.schedule =
      ((c.schedule.endQuick now (c.reading? id)).1, chips,
        (c.schedule.endQuick now (c.reading? id)).2, cy) := by
  unfold sample reading?
  rw [hdue]
  cases hplace : c.chips[id.toNat - 1]? with
  | none =>
    simp only [hplace]
    exact ⟨_, _, rfl⟩
  | some chip =>
    have hreading := measure_reading c.options.tolerance now chip (c.counted.cycle sink)
    simp only [hplace, hreading]
    exact ⟨_, _, rfl⟩

theorem sample_schedule (hcores : c.numCores ≠ 0) :
    ((c.counted.cycle sink).sample c.options.tolerance now c.chips c.schedule).2.2.1 =
      c.schedule.calls (c.sampling now) := by
  cases hdue : c.schedule.due now with
  | none =>
    unfold sample
    rw [hdue, sampling, if_neg hcores, hdue]
    rfl
  | some pass =>
    cases pass with
    | full =>
      obtain ⟨chips, cy, hsample, _⟩ := c.sample_of_full sink now hdue
      rw [hsample, c.sampling_of_full now hcores hdue, Schedule.calls_append,
        Schedule.calls_record]
      rfl
    | quick id =>
      obtain ⟨chips, cy, hsample⟩ := c.sample_of_quick sink now hdue
      rw [hsample, c.sampling_of_quick now hcores hdue]
      rfl

theorem scan_schedule :
    (c.scan sink overview now).chain.schedule = c.schedule.calls (c.sampling now) := by
  by_cases hcores : c.numCores = 0
  · rw [c.scan_of_numCores_eq_zero sink overview now hcores, sampling, if_pos hcores]
    rfl
  · rw [c.scan_of_numCores_ne_zero sink overview now hcores,
      ← c.sample_schedule sink now hcores]
    generalize (c.counted.cycle sink).sample c.options.tolerance now c.chips c.schedule = sampled
    obtain ⟨stats, chips, schedule, cy⟩ := sampled
    obtain ⟨_, _, _, _, hchain, _⟩ :=
      c.counted.afterPass_steps (c.published overview stats) now stats chips schedule cy
    simp only [hchain]
    rfl

/-- The readings of a full pass are consumed by the scan that records them. -/
theorem readings_scan (h : c.schedule.readings = []) :
    (c.scan sink overview now).chain.schedule.readings = [] := by
  rw [scan_schedule, sampling]
  split
  · exact h
  · split
    · exact h
    · rw [Schedule.calls_append]
      rfl
    · exact (c.schedule.endQuick_keeps now _).1.trans h

theorem scan_of_full_pass (hcores : c.numCores ≠ 0) (hdue : c.schedule.due now = some .full)
    (hconsumed : c.schedule.readings = []) :
    let readings := (temperatures c.chips c.bus).1
    let after := (c.scan sink overview now).chain.schedule
    after.stats = Statistics.ofReadings? (readings.map Prod.snd) c.schedule.trim ∧
      after.typical = after.stats.bind fun stats => typical? stats.mean readings := by
  rw [scan_schedule, c.sampling_of_full now hcores hdue, Schedule.calls_append,
    Schedule.calls_record, hconsumed]
  exact ⟨rfl, rfl⟩

theorem scan_of_failed_quick {id : UInt8} (hcores : c.numCores ≠ 0)
    (hdue : c.schedule.due now = some (.quick id)) (hread : c.reading? id = none) :
    (c.scan sink overview now).chain.schedule = { c.schedule with lastQuick := some now } ∧
      (c.scan sink overview now).overview = overview ∧
      ∀ tally, (c.scan sink overview now).result = .ok tally → tally.temperature = none := by
  have hfailed := c.schedule.endQuick_of_failed now
  refine ⟨?_, ?_⟩
  · rw [c.scan_schedule, c.sampling_of_quick now hcores hdue, hread]
    exact congrArg Prod.snd hfailed
  · obtain ⟨chips, cy, hsample⟩ := c.sample_of_quick sink now hdue
    rw [hread, hfailed] at hsample
    rw [c.scan_of_numCores_ne_zero sink overview now hcores, hsample]
    refine ⟨c.counted.afterPass_overview .., ?_⟩
    intro tally htally
    rcases c.counted.afterPass_result overview now none chips _ cy with
      ⟨cause, _, hresult⟩ | ⟨_, tally', hresult, hfindings⟩
    · cases hresult.symm.trans htally
    · obtain rfl := Except.ok.inj (hresult.symm.trans htally)
      exact congrArg Prod.snd hfindings

end Chain

namespace Service

open Thermal

variable {τ : Type} [Channel τ]

/-! ### Runs -/

/-- The calls on the schedule while a request is served. -/
def asked (s : Service τ) : Request → List Schedule.Call
  | .scan _ now => s.chain.sampling now
  | _ => []

def sampling : Service τ → List Request → List Schedule.Call
  | _, [] => []
  | s, request :: rest => s.asked request ++ (s.after request).sampling rest

theorem schedule_after (s : Service τ) (request : Request) :
    (s.after request).chain.schedule = s.chain.schedule.calls (s.asked request) := by
  cases request with
  | offer work =>
    rcases s.after_offer work with ⟨_, heq⟩ | ⟨_, heq⟩
    · rw [heq]
      rfl
    · rw [heq]
      rfl
  | scan overview now => exact s.chain.scan_schedule s.sink overview now
  | reclaim =>
    obtain ⟨_, _, heq⟩ := s.after_reclaim
    rw [heq]
    rfl

theorem schedule_run (s : Service τ) (requests : List Request) :
    (s.run requests).chain.schedule = s.chain.schedule.calls (s.sampling requests) := by
  induction requests generalizing s with
  | nil => rfl
  | cons request rest ih =>
    refine (ih (s.after request)).trans ?_
    rw [s.schedule_after request, sampling, Schedule.calls_append]

theorem readings_run {s : Service τ} (h : s.chain.schedule.readings = [])
    (requests : List Request) : (s.run requests).chain.schedule.readings = [] := by
  induction requests generalizing s with
  | nil => exact h
  | cons request rest ih =>
    refine ih ?_
    cases request with
    | scan overview now => exact s.chain.readings_scan s.sink overview now h
    | offer work =>
      rw [schedule_after]
      exact h
    | reclaim =>
      rw [schedule_after]
      exact h

theorem id_of_recorded {s : Service τ} (h : Cycle.Sound s.moment) {requests : List Request}
    {chip : UInt8} {celsius : Float32} (hrecord : .record chip celsius ∈ s.sampling requests) :
    chip ∈ s.chain.chips.map Chip.id := by
  induction requests generalizing s with
  | nil => cases hrecord
  | cons request rest ih =>
    obtain ⟨hnext, hsucc⟩ := after_sound h request
    rcases List.mem_append.1 hrecord with hfirst | hlater
    · cases request with
      | scan overview now => exact s.chain.id_of_record now hfirst
      | offer _ | reclaim => cases hfirst
    · rw [← hsucc.ids_eq]
      exact ih hnext hlater

/-- The schedule of a chain after any requests since its detection. The statistics of a full pass
are those of the readings recorded since the full pass before it ended, which in a scan are those
that the chips report during this scan. There are statistics just when there is a representative,
and this is a chip that the last full pass recorded; it is found at the place that its address
gives. A quick pass that cannot read it leaves both as they are and reports nothing. -/
theorem sampling_sound {settings : DetectionSettings} {bus bus' : Bus τ} {found : DetectedChain}
    (hfound : Detection.detect settings bus = (.ok found, bus')) (id : UInt8)
    (options : DrivingOptions) (fullInterval quickInterval : Nat) (trim : Float32)
    (power : Option PowerLine) (publishes : Bool)
    (judge : List SinkEvent → Work → UInt8 → UInt32 → Bool) (requests : List Request) :
    let schedule := Schedule.start fullInterval quickInterval trim
    let s := start { Chain.ofDetection id bus' found options schedule with power, publishes } judge
    let c := (s.run requests).chain
    c.schedule = schedule.calls (s.sampling requests) ∧
    (∀ cs now, ((schedule.calls cs).endFull now).1 =
      Statistics.ofReadings? ((Schedule.current cs).map Prod.snd) trim) ∧
    (∀ sink overview now, c.numCores ≠ 0 → c.schedule.due now = some .full →
      let readings := (temperatures c.chips c.bus).1
      let after := (c.scan sink overview now).chain.schedule
      after.stats = Statistics.ofReadings? (readings.map Prod.snd) trim ∧
      after.typical = after.stats.bind fun stats => typical? stats.mean readings) ∧
    c.schedule.stats.isSome = c.schedule.typical.isSome ∧
    (∀ chip celsius, c.schedule.typical = some (chip, celsius) →
      chip ∈ (Schedule.completed (s.sampling requests)).map Prod.fst ∧
      1 ≤ chip.toNat ∧ chip.toNat ≤ c.chips.length) ∧
    ∀ sink overview now chip, c.numCores ≠ 0 → c.schedule.due now = some (.quick chip) →
      1 ≤ chip.toNat ∧
      (∃ typical, c.chips[chip.toNat - 1]? = some typical ∧ typical.id = chip) ∧
      (c.reading? chip = none →
        (c.scan sink overview now).chain.schedule.stats = c.schedule.stats ∧
        (c.scan sink overview now).chain.schedule.typical = c.schedule.typical ∧
        (c.scan sink overview now).overview = overview ∧
        ∀ tally, (c.scan sink overview now).result = .ok tally → tally.temperature = none) := by
  intro schedule s c
  have hrun : c.schedule = schedule.calls (s.sampling requests) := s.schedule_run requests
  have hfollows : Schedule.Follows (s.sampling requests) c.schedule := by
    rw [hrun]
    exact Schedule.follows_calls fullInterval quickInterval trim (s.sampling requests)
  have hconsumed : c.schedule.readings = [] := readings_run (s := s) rfl requests
  have htrim : c.schedule.trim = trim := by
    rw [hrun]
    exact Schedule.trim_calls schedule (s.sampling requests)
  have hsound : Cycle.Sound s.moment :=
    (Reachable.detected hfound id options schedule power publishes judge).sound
  obtain ⟨hlast, hsucc⟩ := run_sound hsound requests
  have hplace (chip : UInt8) (celsius : Float32) (h : c.schedule.typical = some (chip, celsius)) :
      1 ≤ chip.toNat ∧ ∃ typical, c.chips[chip.toNat - 1]? = some typical ∧ typical.id = chip := by
    obtain ⟨⟨_, reading⟩, hreading, rfl⟩ := List.mem_map.1 (hfollows.typical chip celsius h)
    have hid := id_of_recorded hsound (Schedule.record_of_mem_completed hreading)
    rw [← hsucc.ids_eq] at hid
    exact hlast.numbered.exists_of_id hid
  refine ⟨hrun, Schedule.endFull_calls fullInterval quickInterval trim, ?_, hfollows.paired, ?_, ?_⟩
  · intro sink overview now hcores hdue
    rw [← htrim]
    exact c.scan_of_full_pass sink overview now hcores hdue hconsumed
  · intro chip celsius htypical
    obtain ⟨hpos, typical, hget, _⟩ := hplace chip celsius htypical
    have hlt := (List.getElem?_eq_some_iff.1 hget).1
    exact ⟨hfollows.typical chip celsius htypical, hpos, by omega⟩
  · intro sink overview now chip hcores hdue
    obtain ⟨celsius, htypical⟩ := Schedule.due_eq_quick hdue
    obtain ⟨hpos, hfound⟩ := hplace chip celsius htypical
    refine ⟨hpos, hfound, fun hread => ?_⟩
    obtain ⟨hschedule, hrest⟩ := c.scan_of_failed_quick sink overview now hcores hdue hread
    rw [hschedule]
    exact ⟨rfl, rfl, hrest⟩

/-- One chip after its first full pass; on a bus that falls silent it is cooling by then. -/
def sampledOnce (found : DetectedChain) (bus : Bus Script) : Service Script :=
  (start (Chain.ofDetection 0 bus found .standard (Schedule.start 60000 5000 0))
    fun _ _ _ _ => true).run [.scan .empty 0]

theorem sampling_sound_of_silent_chip : ∃ found bus',
    Detection.detect ⟨600, none⟩ (oneChip [chipReply false]) = (.ok found, bus') ∧
      let c := (sampledOnce found bus').chain
      let after := (c.scan ⟨fun _ _ _ _ => true, []⟩ .empty 5000).chain
      c.numCores ≠ 0 ∧ c.schedule.due 5000 = some (.quick 1) ∧ c.reading? 1 = none ∧
      c.chips[0]?.map Chip.id = some 1 ∧
      c.schedule.stats.isSome = true ∧ after.schedule.stats = c.schedule.stats ∧
      after.schedule.typical = c.schedule.typical := by
  have hcheck : (match Detection.detect ⟨600, none⟩ (oneChip [chipReply false]) with
      | (.ok found, bus') =>
        let c := (sampledOnce found bus').chain
        c.numCores != 0 && c.schedule.due 5000 = some (.quick 1) && (c.reading? 1).isNone
      | (.error _, _) => false) = true := by
    decide +kernel
  cases hdetect : Detection.detect ⟨600, none⟩ (oneChip [chipReply false]) with
  | mk answer bus' =>
    rw [hdetect] at hcheck
    cases answer with
    | error cause => cases hcheck
    | ok found =>
      simp only [Bool.and_eq_true, bne_iff_ne, decide_eq_true_eq, Option.isNone_iff_eq_none] at hcheck
      obtain ⟨⟨hcores, hdue⟩, hread⟩ := hcheck
      obtain ⟨_, _, _, hpaired, _, hquick⟩ := sampling_sound hdetect 0 .standard 60000 5000 0 none
        false (fun _ _ _ _ => true) [.scan .empty 0]
      obtain ⟨_, ⟨chip, hplace, hid⟩, hkept⟩ :=
        hquick ⟨fun _ _ _ _ => true, []⟩ .empty 5000 1 hcores hdue
      obtain ⟨hstats, htypical, _⟩ := hkept hread
      obtain ⟨celsius, hsome⟩ := Schedule.due_eq_quick hdue
      refine ⟨found, bus', rfl, hcores, hdue, hread, ?_, ?_, hstats, htypical⟩
      · exact (congrArg (Option.map Chip.id) hplace).trans (congrArg some hid)
      · exact hpaired.trans (congrArg Option.isSome hsome)

end Service

end HashBoard
