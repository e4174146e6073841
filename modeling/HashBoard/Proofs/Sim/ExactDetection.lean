import HashBoard.Proofs.Chain.Detected
import HashBoard.Proofs.Sim.Exchanges
import Mathlib.Algebra.GroupWithZero.Nat

/-!
# Exact detection of simulated chains

A fresh simulated chain is detected as what it is. Each broadcast of a detection finds the chain as
the one before it left it, with the register writes taken so far, and each register read gives the
cores of the chip at its position.
-/

namespace HashBoard

open Bus Wire SimulatedChain Serving

/-- A simulated chain with the given cores on which nothing fails, and the register writes that it
took, latest first. -/
structure Intact (g : Generation) (cores : List UInt8) (writes : List (UInt8 × Bytes))
    (bus : Bus SimulatedChain) : Prop where
  attentive : Attentive bus
  generation : bus.generation = g
  results : bus.channel.results = []
  profiles : bus.channel.profiles = cores.map fun count => (count, 0)
  registerWrites : bus.channel.registerWrites = writes

namespace Intact

variable {g : Generation} {cores : List UInt8} {writes writes' : List (UInt8 × Bytes)}
  {bus after : Bus SimulatedChain}

theorem start (g : Generation) (cores : List UInt8) {limits : PollLimits}
    (hbytes : 6 ≤ limits.maxBytes) (htime : 0 < limits.timeout) :
    Intact g cores [] (Bus.start (SimulatedChain.ofCores g cores) g limits) := by
  refine ⟨⟨rfl, rfl, htime, hbytes⟩, rfl, rfl, ?_, rfl⟩
  exact List.map_map

theorem length_chips (h : Intact g cores writes bus) :
    bus.channel.chips.length = cores.length := by
  have hlength := congrArg List.length h.profiles
  rw [SimulatedChain.profiles, List.length_map, List.length_map] at hlength
  exact hlength

/-- Whatever frame the chips obey, nothing fails after it either. -/
theorem obeyed (h : Intact g cores writes bus) {frame : Bytes}
    (hlistened : Listened (obeyed bus frame) after)
    (hwrites : (obeyed bus frame).channel.registerWrites = writes') :
    Intact g cores writes' after := by
  have hreads : ∀ profile ∈ bus.channel.profiles, profile.2 = 0 := by
    intro profile hmem
    rw [h.profiles] at hmem
    obtain ⟨_, _, rfl⟩ := List.mem_map.1 hmem
    rfl
  have hnoted : Alike bus.channel { bus.channel with writes := frame :: bus.channel.writes } :=
    ⟨rfl, rfl, rfl, rfl, rfl⟩
  have halike : Alike bus.channel (Serving.obeyed bus frame).channel :=
    hnoted.trans (obey_alike (s := { bus.channel with writes := frame :: bus.channel.writes })
      h.results hreads frame)
  obtain ⟨_, _, _, rfl⟩ := hlistened
  exact ⟨⟨halike.generation.trans h.attentive.generation,
    halike.failingWrites.trans h.attentive.failingWrites, h.attentive.patient, h.attentive.room⟩,
    h.generation, halike.results.trans h.results, halike.profiles.trans h.profiles, hwrites⟩

/-! ### Broadcasts -/

theorem acknowledged (h : Intact g cores writes bus) (opcode : Opcode)
    (hopcode : opcode ∈ [.reset, .collectSelfTest, .fixSelfTest]) : ∃ after,
    (acknowledged opcode broadcast).runOn bus = (.ok (), after) ∧ Intact g cores writes after ∧
      (opcode = .reset → after.channel.armed = true) := by
  let frame : Bytes := [opcode.code, broadcast, 0, 0]
  have hobeyed : (Serving.obeyed bus frame).channel.reply =
        List.replicate filler 0 ++ opcode.code :: broadcast :: [0, 0] ∧
      (Serving.obeyed bus frame).channel.registerWrites = writes ∧
      (opcode = .reset → (Serving.obeyed bus frame).channel.armed = true) ∧
      opcode ≠ .readRegResp := by
    rcases List.mem_cons.1 hopcode with rfl | hopcode
    · exact ⟨rfl, h.registerWrites, fun _ => Bool.or_true _, nofun⟩
    · rcases List.mem_cons.1 hopcode with rfl | hopcode
      · exact ⟨rfl, h.registerWrites, nofun, nofun⟩
      · obtain rfl := List.mem_singleton.1 hopcode
        exact ⟨rfl, h.registerWrites, nofun, nofun⟩
  obtain ⟨hreply, hwrites, harmed, hne⟩ := hobeyed
  obtain ⟨after, hexpect, hlistened⟩ :=
    h.attentive.discard_expect_of_reply acknowledgementLength hne hreply rfl
  refine ⟨after, ?_, h.obeyed hlistened hwrites, fun hreset => ?_⟩
  · exact (runOn_bind_of_ok (h.attentive.runOn_send frame) _).trans hexpect
  · obtain ⟨_, _, _, rfl⟩ := hlistened
    exact harmed hreset

theorem startSelfTest (h : Intact g cores writes bus) (harmed : bus.channel.armed = true) :
    ∃ after, (startSelfTest broadcast).runOn bus = (.ok (UInt8.ofNat cores.length), after) ∧
      Intact g cores writes after := by
  obtain ⟨after, hanswer, hlistened⟩ := h.attentive.startSelfTest_answer
  rw [harmed, if_pos rfl, h.length_chips] at hanswer
  exact ⟨after, hanswer, h.obeyed hlistened h.registerWrites⟩

/-- A register write is taken, and the chips echo as many bytes of it as are expected. -/
theorem stored (h : Intact g cores writes bus) (hwide : 12 ≤ g.regLen) {opcode : Opcode}
    {extra : Nat} (hopcode : opcode = .writeReg ∧ extra = 0 ∨
      opcode = .writeSecReg ∧ extra = secondaryExtra) (register : Register) : ∃ after,
    (stored opcode extra broadcast register).runOn bus = (.ok (), after) ∧
      Intact g cores ((opcode.code, register.storeFrame opcode broadcast) :: writes) after := by
  let frame := register.storeFrame opcode broadcast
  obtain ⟨length, hlength⟩ : ∃ length, length = bus.generation.regLen + extra := ⟨_, rfl⟩
  have hextra : extra = if opcode = .writeReg then 0 else 4 := by
    rcases hopcode with ⟨rfl, rfl⟩ | ⟨rfl, rfl⟩
    · rfl
    · rfl
  have hlong : 14 ≤ frame.length := by
    rw [register.length_storeFrame]
    decide
  have htaken : (Serving.obeyed bus frame).channel =
      (noting bus.channel frame).takeRegisterWrite opcode frame := by
    rcases hopcode with ⟨rfl, _⟩ | ⟨rfl, _⟩
    · rfl
    · rfl
  have hregLen : (noting bus.channel frame).generation.regLen = bus.generation.regLen :=
    congrArg Generation.regLen h.attentive.generation
  rw [takeRegisterWrite_of_sealed opcode hlong (register.isSealed_storeFrame ..),
    register.take_storeFrame, hregLen, ← hextra, ← hlength] at htaken
  obtain ⟨n, rfl⟩ : ∃ n, length = n + 2 := by
    refine ⟨length - 2, ?_⟩
    rw [h.generation] at hlength
    omega
  rw [Register.storeBody, Bytes.fit_succ_cons, Bytes.fit_succ_cons] at htaken
  have hreply : (Serving.obeyed bus frame).channel.reply = List.replicate filler 0 ++
      opcode.code :: broadcast :: Bytes.fit n (register.toBytes.take 10) := by
    rw [htaken]
    rfl
  have hne : opcode ≠ .readRegResp := by
    rcases hopcode with ⟨rfl, _⟩ | ⟨rfl, _⟩
    · decide
    · decide
  obtain ⟨after, hexpect, hlistened⟩ :=
    h.attentive.discard_expect_of_reply (n + 2) hne hreply (Bytes.length_fit ..)
  refine ⟨after, ?_, h.obeyed hlistened ?_⟩
  · rw [Bus.stored, runOn_bind_of_ok (h.attentive.runOn_send _), runOn_get_bind]
    show (discard (expect opcode (bus.generation.regLen + extra))).runOn _ = _
    rw [← hlength]
    exact hexpect
  · rw [htaken]
    exact congrArg _ h.registerWrites

/-! ### Register reads -/

theorem fetchRegister (h : Intact g cores writes bus) (hwide : 12 ≤ g.regLen) {id count : UInt8}
    {place : Nat} (hid : id.toNat = place + 1) (hcount : cores[place]? = some count) :
    ∃ register after, (fetchRegister id).runOn bus = (.ok register, after) ∧
      register.coreNumber = count ∧ Intact g cores writes after := by
  have hprofile : (bus.channel.chips[place]?).map SimulatedChip.profile = some (count, 0) := by
    rw [← List.getElem?_map]
    show bus.channel.profiles[place]? = _
    rw [h.profiles, List.getElem?_map, hcount]
    rfl
  obtain ⟨chip, hchip, hsame⟩ := Option.map_eq_some_iff.1 hprofile
  obtain ⟨hcores, hreads⟩ := Prod.mk.inj hsame
  have hfound : bus.channel.chip? id = some chip := (chip?_of_place hid).trans hchip
  rw [← h.generation] at hwide
  obtain ⟨after, hread, hlistened⟩ := h.attentive.fetchRegister_of_reading hwide hfound hreads
  refine ⟨_, after, hread, (coreNumber_registerBlock ..).trans hcores, h.obeyed hlistened ?_⟩
  rw [h.attentive.obeyed_read hfound hreads]
  exact h.registerWrites

end Intact

namespace Detection

variable {g : Generation} {cores : List UInt8} {writes : List (UInt8 × Bytes)}
  {bus after : Bus SimulatedChain}

/-- Each of the chips probed is found at its position with the cores that it has. -/
theorem probeAll_intact {first count : Nat} {chips : List Chip} (h : Intact g cores writes bus)
    (hwide : 12 ≤ g.regLen) (hchips : first + count ≤ cores.length) (hlast : first + count < 256)
    (hprobes : (probeAll first count).run bus = (chips, after)) :
    Intact g cores writes after ∧ ∀ place chip, chips[place]? = some chip →
      chip.id.toNat = first + place + 1 ∧ cores[first + place]? = some chip.cores ∧
        chip.condition = if g.brokenCores ≤ chip.cores then .active else .disabled 0 := by
  induction count generalizing first bus chips with
  | zero =>
    obtain ⟨rfl, rfl⟩ := Prod.mk.inj hprobes
    exact ⟨h, nofun⟩
  | succ count ih =>
    obtain ⟨chip, middle, rest, hprobe, hothers, rfl⟩ := probeAll_succ hprobes
    obtain ⟨answer, hread, rfl⟩ := probe_eq hprobe
    have hplace : first < cores.length := by omega
    have hid : (UInt8.ofNat (first + 1)).toNat = first + 1 := by
      rw [UInt8.toNat_ofNat']
      omega
    have hcount : cores[first]? = some cores[first] := List.getElem?_eq_getElem hplace
    obtain ⟨register, middle', hanswer, hnumber, hmiddle⟩ := h.fetchRegister hwide hid hcount
    obtain ⟨rfl, rfl⟩ := Prod.mk.inj (hread.symm.trans hanswer)
    obtain ⟨hafter, hrest⟩ := ih hmiddle (by omega) (by omega) hothers
    refine ⟨hafter, ?_⟩
    intro place chip hchip
    cases place with
    | zero =>
      obtain rfl := Option.some.inj hchip
      obtain ⟨hsame, hcores, hcondition⟩ :=
        classify_reading bus.generation (UInt8.ofNat (first + 1)) register
      rw [hsame, hcores, hnumber, hcondition, hnumber, h.generation]
      exact ⟨hid, hcount, rfl⟩
    | succ place =>
      obtain ⟨hplace', hcores, hcondition⟩ := hrest place chip hchip
      rw [Nat.add_right_comm first 1 place] at hplace' hcores
      exact ⟨hplace', hcores, hcondition⟩

/-! ### The whole detection -/

theorem step_bind_of_ok {α β : Type} {x : Exchange SimulatedChain α}
    {f : α → Step SimulatedChain β} {a : α} (h : x.runOn bus = (.ok a, after)) :
    (step x >>= f).run.run bus = (f a).run.run after := by
  have hstep : (step x).run.run bus = ((x.runOn bus).1.mapError .protocol, (x.runOn bus).2) := rfl
  rw [run_bind, hstep, h]
  rfl

/-- What a detection finds of a simulated chain with the given cores, and what it leaves there. -/
structure Exact (g : Generation) (cores : List UInt8) (settings : DetectionSettings)
    (found : DetectedChain) (sim : SimulatedChain) : Prop where
  numChips : found.numChips = cores.length
  length : found.chips.length =
    settings.chipLimit.elim cores.length fun limit => min limit cores.length
  chips : ∀ place chip, found.chips[place]? = some chip →
    chip.id.toNat = place + 1 ∧ cores[place]? = some chip.cores ∧
      chip.condition = if g.brokenCores ≤ chip.cores then .active else .disabled 0
  numCores : found.numCores =
    ((found.chips.filter fun chip => chip.condition.isActive).map fun chip => chip.cores.toNat).sum
  pllMhz : found.pllMhz = selectClock settings.targetMhz
  clock : (ClockWord.ofRegister (clockRegister settings.targetMhz)).frequency? =
    some found.pllMhz.toNat
  /-- The clock was set first, and the sensor divider for that clock after it. -/
  registerWrites : sim.registerWrites.reverse =
    [(Opcode.writeReg.code, (clockRegister settings.targetMhz).storeFrame .writeReg broadcast),
     (Opcode.writeSecReg.code,
       (Register.sensorDivider found.pllMhz).storeFrame .writeSecReg broadcast)]
  lostSensor : g.sensorPlace.isSome = true → sim.lostSensor = false

theorem workingCores_eq_sum {chips : List Chip}
    (h : ∀ chip ∈ chips, (!chip.condition.isDisabled) = chip.condition.isActive) :
    workingCores chips =
      ((chips.filter fun chip => chip.condition.isActive).map fun chip => chip.cores.toNat).sum := by
  rw [workingCores, List.filter_congr h, List.sum, List.foldr_map]

theorem tune_exact {count : UInt8} (h : Intact g cores [] bus) (hwide : 12 ≤ g.regLen)
    (hcount : count.toNat = cores.length) (settings : DetectionSettings) :
    ∃ found after, (tune settings count).run.run bus = (.ok found, after) ∧
      Exact g cores settings found after.channel := by
  obtain ⟨bus1, hclock, h1⟩ := h.stored hwide (.inl ⟨rfl, rfl⟩) (clockRegister settings.targetMhz)
  obtain ⟨bus2, hcollect, h2, _⟩ := h1.acknowledged .collectSelfTest (by decide)
  obtain ⟨bus3, hfix, h3, _⟩ := h2.acknowledged .fixSelfTest (by decide)
  obtain ⟨bus4, hsensor, h4⟩ := h3.stored hwide (.inr ⟨rfl, rfl⟩)
    (Register.sensorDivider (selectClock settings.targetMhz))
  have hbyte := count.toNat_lt
  let driven := settings.chipLimit.elim count.toNat fun limit => Nat.min limit count.toNat
  have hdriven : driven ≤ count.toNat := driven_le settings.chipLimit count.toNat
  let probed := (probeAll 0 driven).run bus4
  have hprobes : (probeAll 0 driven).run bus4 = (probed.1, probed.2) := rfl
  obtain ⟨hafter, hchips⟩ := probeAll_intact h4 hwide (by omega) (by omega) hprobes
  simp only [Nat.zero_add] at hchips
  have hrun : (tune settings count).run.run bus = (.ok ⟨count.toNat, probed.1,
      workingCores probed.1, selectClock settings.targetMhz⟩, probed.2) :=
    (step_bind_of_ok hclock).trans ((step_bind_of_ok hcollect).trans
      ((step_bind_of_ok hfix).trans ((step_bind_of_ok hsensor).trans rfl)))
  refine ⟨_, _, hrun, hcount, ?_, hchips, workingCores_eq_sum ?_, rfl,
    frequency_clockRegister _, ?_, ?_⟩
  · rw [← hcount]
    exact (probeAll_classified hprobes).1
  · intro chip hmem
    obtain ⟨place, hplace⟩ := List.mem_iff_getElem?.1 hmem
    obtain ⟨_, _, hcondition⟩ := hchips place chip hplace
    rw [hcondition]
    split
    · rfl
    · rfl
  · rw [hafter.registerWrites]
    rfl
  · intro hplace
    obtain ⟨place, hplace⟩ := Option.isSome_iff_exists.1 hplace
    rw [SimulatedChain.lostSensor, hafter.attentive.generation, hafter.generation, hplace]
    rfl

/-- A fresh simulated chain is detected exactly, whatever its length, the clock and the limit. -/
theorem detect_exact {g : Generation} (hwide : 12 ≤ g.regLen) (cores : List UInt8)
    {limits : PollLimits} (hbytes : 6 ≤ limits.maxBytes) (htime : 0 < limits.timeout)
    (settings : DetectionSettings) :
    let detected := detect settings (Bus.start (SimulatedChain.ofCores g cores) g limits)
    (cores.length = 0 → detected.1 = .error .noChips) ∧
      (65 ≤ cores.length ∧ cores.length ≤ 255 →
        detected.1 = .error (.tooManyChips cores.length 64)) ∧
      (1 ≤ cores.length ∧ cores.length ≤ 64 → ∃ found, detected.1 = .ok found ∧
        Exact g cores settings found detected.2.channel) := by
  intro detected
  obtain ⟨bus1, hreset, h1, harmed⟩ :=
    (Intact.start g cores hbytes htime).acknowledged .reset (by decide)
  obtain ⟨bus2, htest, h2⟩ := h1.startSelfTest (harmed rfl)
  let count := UInt8.ofNat cores.length
  have hcount (hbyte : cores.length < 256) : count.toNat = cores.length := by
    rw [UInt8.toNat_ofNat']
    omega
  have hcounted : detected = (if count.toNat = 0 then throw .noChips
      else if longestChain < count.toNat then throw (.tooManyChips count.toNat longestChain)
      else tune settings count).run.run bus2 := by
    show (Detection.run settings).run.run _ = _
    rw [run_eq]
    exact (step_bind_of_ok hreset).trans (step_bind_of_ok htest)
  refine ⟨?_, ?_, ?_⟩
  · intro hnone
    have hzero : count.toNat = 0 := by
      rw [hcount (by omega), hnone]
    rw [hcounted, if_pos hzero]
    rfl
  · rintro ⟨hmany, hbyte⟩
    have hsame := hcount (by omega)
    have hsome : ¬count.toNat = 0 := by omega
    have hlong : longestChain < count.toNat := by
      rw [hsame]
      exact hmany
    rw [hcounted, if_neg hsome, if_pos hlong, hsame]
    rfl
  · rintro ⟨hone, hfew⟩
    have hsame := hcount (by omega)
    have hsome : ¬count.toNat = 0 := by omega
    have hshort : ¬longestChain < count.toNat := by
      rw [hsame]
      exact Nat.not_lt.2 hfew
    obtain ⟨found, after, hrun, hexact⟩ := tune_exact h2 hwide hsame settings
    rw [hcounted, if_neg hsome, if_neg hshort, hrun]
    exact ⟨found, rfl, hexact⟩

/-- Chips with a longer register than usual, one of them with too few cores and one not driven. -/
theorem detect_exact_of_wideChips :
    let g : Generation := { Generation.a6 with regLen := 40 }
    let cores : List UInt8 := [40, 20, 28, 40]
    let limits : PollLimits := ⟨6, 1⟩
    12 ≤ g.regLen ∧ 6 ≤ limits.maxBytes ∧ 0 < limits.timeout ∧ ∃ found sim,
      (detect ⟨650, some 3⟩ (Bus.start (SimulatedChain.ofCores g cores) g limits)).1 = .ok found ∧
        Exact g cores ⟨650, some 3⟩ found sim ∧ found.chips.length = 3 ∧ found.numCores = 68 ∧
          found.pllMhz = 600 := by
  intro g cores limits
  have hwide : 12 ≤ g.regLen := by decide
  have hbytes : 6 ≤ limits.maxBytes := Nat.le_refl 6
  have htime : 0 < limits.timeout := Nat.one_pos
  obtain ⟨_, _, hdetected⟩ := detect_exact hwide cores hbytes htime ⟨650, some 3⟩
  obtain ⟨found, hfound, hexact⟩ := hdetected (by decide)
  have hchecked : ((detect ⟨650, some 3⟩
      (Bus.start (SimulatedChain.ofCores g cores) g limits)).1.toOption.any fun found =>
        decide (found.numCores = 68)) = true := by
    decide +kernel
  rw [hfound] at hchecked
  exact ⟨hwide, hbytes, htime, found, _, hfound, hexact, hexact.length, of_decide_eq_true hchecked,
    hexact.pllMhz⟩

end Detection

end HashBoard
