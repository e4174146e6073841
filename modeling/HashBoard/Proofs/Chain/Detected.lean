import HashBoard.Chain.Detection
import HashBoard.Proofs.Bus.Addresses

/-!
# Detected chains

What every successful detection gives: the chips in order of their positions, numbered from 1 on,
with empty slots, on a bus on which no job waits for its acknowledgement. Each chip was written to
once, for the register by which it is judged.
-/

namespace HashBoard

open Bus Wire

def Numbered (chips : List Chip) : Prop :=
  ∀ place chip, chips[place]? = some chip → chip.id.toNat = place + 1

namespace Numbered

variable {chips chips' before after : List Chip} {chip other : Chip}

theorem of_ids_eq (h : Numbered chips) (hids : chips'.map Chip.id = chips.map Chip.id) :
    Numbered chips' := by
  intro place chip' hchip'
  have hid : (chips'.map Chip.id)[place]? = some chip'.id := by
    rw [List.getElem?_map, hchip']
    rfl
  rw [hids, List.getElem?_map] at hid
  obtain ⟨chip, hchip, hsame⟩ := Option.map_eq_some_iff.1 hid
  rw [← hsame]
  exact h place chip hchip

theorem nodup (h : Numbered chips) : (chips.map Chip.id).Nodup := by
  apply List.pairwise_iff_getElem.2
  intro place later hplace hlater hlt hsame
  rw [List.length_map] at hplace hlater
  simp only [List.getElem_map] at hsame
  have hfirst := h place chips[place] (List.getElem?_eq_getElem hplace)
  have hsecond := h later chips[later] (List.getElem?_eq_getElem hlater)
  rw [hsame] at hfirst
  omega

theorem eq_of_id_eq (h : Numbered chips) (hchip : chip ∈ chips) (hother : other ∈ chips)
    (hid : other.id = chip.id) : other = chip := by
  obtain ⟨place, hplace⟩ := List.mem_iff_getElem?.1 hchip
  obtain ⟨place', hplace'⟩ := List.mem_iff_getElem?.1 hother
  have hfirst := h place chip hplace
  have hsecond := h place' other hplace'
  rw [hid, hfirst] at hsecond
  have hsame : place = place' := by omega
  rw [hsame, hplace'] at hplace
  exact Option.some.inj hplace

/-- A chip beside the one that changes is another chip, and stays. -/
theorem eq_or_elsewhere (h : Numbered (before ++ chip :: after))
    (hother : other ∈ before ++ chip :: after) :
    other = chip ∨ (other.id ≠ chip.id ∧ ∀ chip', other ∈ before ++ chip' :: after) := by
  have hself : chip ∈ before ++ chip :: after := List.mem_append_cons_self
  by_cases hid : other.id = chip.id
  · exact .inl (h.eq_of_id_eq hself hother hid)
  · refine .inr ⟨hid, fun chip' => ?_⟩
    rcases List.mem_append.1 hother with hmem | hmem
    · exact List.mem_append_left _ hmem
    · rcases List.mem_cons.1 hmem with rfl | hmem
      · exact absurd rfl hid
      · exact List.mem_append_right _ (List.mem_cons_of_mem _ hmem)

theorem id_eq (h : Numbered (before ++ chip :: after)) : chip.id.toNat = before.length + 1 := by
  refine h before.length chip ?_
  rw [List.getElem?_append_right (Nat.le_refl _), Nat.sub_self]
  rfl

theorem id_ne_of_mem (h : Numbered (before ++ chip :: after)) (hother : other ∈ before ++ after) :
    other.id ≠ chip.id := by
  intro hsame
  have hid := h.id_eq
  rw [← hsame] at hid
  rcases List.mem_append.1 hother with hmem | hmem
  · obtain ⟨place, hplace⟩ := List.mem_iff_getElem?.1 hmem
    have hlt := (List.getElem?_eq_some_iff.1 hplace).1
    have hnum := h place other (by rw [List.getElem?_append_left hlt, hplace])
    omega
  · obtain ⟨place, hplace⟩ := List.mem_iff_getElem?.1 hmem
    have hnum := h (before.length + (place + 1)) other (by
      rw [List.getElem?_append_right (Nat.le_add_right _ _), Nat.add_sub_cancel_left]
      exact hplace)
    omega

theorem id_ne_broadcast (h : Numbered chips) (hmem : chip ∈ chips) : chip.id ≠ broadcast := by
  obtain ⟨place, hplace⟩ := List.mem_iff_getElem?.1 hmem
  have hnum := h place chip hplace
  intro hzero
  rw [hzero] at hnum
  cases hnum

/-- A chip is found at the place that its address gives. -/
theorem exists_of_id {id : UInt8} (h : Numbered chips) (hid : id ∈ chips.map Chip.id) :
    1 ≤ id.toNat ∧ ∃ chip, chips[id.toNat - 1]? = some chip ∧ chip.id = id := by
  obtain ⟨chip, hmem, rfl⟩ := List.mem_map.1 hid
  obtain ⟨place, hplace⟩ := List.mem_iff_getElem?.1 hmem
  have hnum := h place chip hplace
  refine ⟨by omega, chip, ?_, rfl⟩
  rw [hnum]
  exact hplace

end Numbered

namespace Detection

variable {τ : Type} {bus after : Bus τ}

theorem step_ok {α : Type} {x : Exchange τ α} {a : α}
    (h : (step x).run.run bus = (.ok a, after)) : x.runOn bus = (.ok a, after) := by
  have hstep : (step x).run.run bus = ((x.runOn bus).1.mapError .protocol, (x.runOn bus).2) := rfl
  rw [hstep] at h
  obtain ⟨hok, hafter⟩ := Prod.mk.inj h
  cases hx : x.runOn bus with
  | mk answer last =>
    rw [hx] at hok hafter
    cases answer with
    | ok b =>
      cases hok
      rw [← hafter]
    | error cause => cases hok

/-- A step either gets past its exchange, or fails as that does. -/
theorem step_cases {α β : Type} {x : Exchange τ α} {f : α → Step τ β}
    {answer : Except DetectionError β} (h : (step x >>= f).run.run bus = (answer, after)) :
    (∃ a middle, x.runOn bus = (.ok a, middle) ∧ (f a).run.run middle = (answer, after)) ∨
      (∃ cause, x.runOn bus = (.error cause, after) ∧ answer = .error (.protocol cause)) := by
  rcases run_bind_cases h with ⟨a, middle, hx, hf⟩ | ⟨cause, hx, rfl⟩
  · exact .inl ⟨a, middle, step_ok hx, hf⟩
  · have hstep : (step x).run.run bus = ((x.runOn bus).1.mapError .protocol, (x.runOn bus).2) := rfl
    rw [hstep] at hx
    cases hrun : x.runOn bus with
    | mk result last =>
      rw [hrun] at hx
      obtain ⟨hfail, rfl⟩ := Prod.mk.inj hx
      cases result with
      | ok a => cases hfail
      | error failure =>
        cases hfail
        exact .inr ⟨failure, rfl, rfl⟩

theorem ok_of_step_bind {α β : Type} {x : Exchange τ α} {f : α → Step τ β} {b : β}
    (h : (step x >>= f).run.run bus = (.ok b, after)) :
    ∃ a middle, x.runOn bus = (.ok a, middle) ∧ (f a).run.run middle = (.ok b, after) := by
  rcases step_cases h with ⟨a, middle, hx, hf⟩ | ⟨cause, _, hfail⟩
  · exact ⟨a, middle, hx, hf⟩
  · cases hfail

variable [Channel τ]

/-! ### Probes -/

theorem classify_id (g : Generation) (id : UInt8) (answer : Except ExchangeError Register) :
    (classify g id answer).id = id := by
  cases answer with
  | error cause => rfl
  | ok register =>
    rw [classify]
    split <;> rfl

theorem classify_slots (g : Generation) (id : UInt8) (answer : Except ExchangeError Register) :
    (classify g id answer).slots = .empty := by
  cases answer with
  | error cause => rfl
  | ok register =>
    rw [classify]
    split <;> rfl

theorem classify_cores {g : Generation} {id : UInt8} {answer : Except ExchangeError Register}
    (h : (classify g id answer).condition.isDisabled = false) :
    g.brokenCores ≤ (classify g id answer).cores := by
  cases answer with
  | error cause => cases h
  | ok register =>
    rw [classify] at h ⊢
    split at h
    · cases h
    · rename_i hcores
      simp only [if_neg hcores]
      exact UInt8.not_lt.1 hcores

theorem classify_reading (g : Generation) (id : UInt8) (register : Register) :
    (classify g id (.ok register)).id = id ∧
      (classify g id (.ok register)).cores = register.coreNumber ∧
      (classify g id (.ok register)).condition =
        if g.brokenCores ≤ register.coreNumber then .active else .disabled 0 := by
  refine ⟨classify_id .., ?_, ?_⟩
  · rw [classify]
    split
    · rfl
    · rfl
  · by_cases hcores : g.brokenCores ≤ register.coreNumber
    · rw [if_pos hcores, classify]
      exact (congrArg Chip.condition (if_neg (UInt8.not_lt.2 hcores))).trans rfl
    · rw [if_neg hcores, classify]
      exact (congrArg Chip.condition (if_pos (UInt8.not_le.1 hcores))).trans rfl

theorem probe_eq {id : UInt8} {chip : Chip} (h : (probe id).run bus = (chip, after)) :
    ∃ answer, (fetchRegister id).runOn bus = (answer, after) ∧
      chip = classify bus.generation id answer := by
  obtain ⟨rfl, rfl⟩ := Prod.mk.inj h
  have hread : (fetchRegister id).runOn bus = (_, _) := rfl
  have hgen := (fetchRegister_jobless hread).generation
  exact ⟨_, hread, congrArg (classify · id _) hgen⟩

theorem probeAll_succ {first count : Nat} {chips : List Chip}
    (h : (probeAll first (count + 1)).run bus = (chips, after)) : ∃ chip middle rest,
      (probe (UInt8.ofNat (first + 1))).run bus = (chip, middle) ∧
        (probeAll (first + 1) count).run middle = (rest, after) ∧ chips = chip :: rest := by
  obtain ⟨rfl, rfl⟩ := Prod.mk.inj h
  exact ⟨_, _, _, rfl, rfl, rfl⟩

theorem probeAll_classified {first count : Nat} {chips : List Chip}
    (h : (probeAll first count).run bus = (chips, after)) :
    chips.length = count ∧
      (∀ place chip, chips[place]? = some chip → ∃ answer,
        chip = classify bus.generation (UInt8.ofNat (first + place + 1)) answer) ∧
      after.generation = bus.generation ∧ (Settled bus → Settled after) := by
  induction count generalizing first bus chips with
  | zero =>
    obtain ⟨rfl, rfl⟩ := Prod.mk.inj h
    refine ⟨rfl, ?_, rfl, id⟩
    intro place chip hchip
    cases hchip
  | succ count ih =>
    obtain ⟨chip, middle, rest, hprobe, hprobes, rfl⟩ := probeAll_succ h
    obtain ⟨answer, hread, rfl⟩ := probe_eq hprobe
    have hjobless := fetchRegister_jobless hread
    obtain ⟨hlen, hrest, hgen, hsettled⟩ := ih hprobes
    have hsame := hgen.trans hjobless.generation
    refine ⟨congrArg (· + 1) hlen, ?_, hsame, fun hs => hsettled (hjobless.settled hs)⟩
    intro place chip hchip
    cases place with
    | zero =>
      obtain rfl := Option.some.inj hchip
      exact ⟨answer, rfl⟩
    | succ place =>
      obtain ⟨later, hlater⟩ := hrest place chip hchip
      refine ⟨later, ?_⟩
      rw [hlater, hjobless.generation, Nat.add_right_comm first 1 place]
      rfl

/-- Each of the positions asked is written to once. -/
theorem probeAll_framesTo {first count : Nat} {chips : List Chip}
    (h : (probeAll first count).run bus = (chips, after)) (hlast : first + count < 256)
    (address : UInt8) : after.framesTo address =
      if first < address.toNat ∧ address.toNat ≤ first + count then
        readFrame address :: bus.framesTo address
      else bus.framesTo address := by
  induction count generalizing first bus chips with
  | zero =>
    obtain ⟨rfl, rfl⟩ := Prod.mk.inj h
    have hnone : ¬(first < address.toNat ∧ address.toNat ≤ first + 0) := by omega
    rw [if_neg hnone]
  | succ count ih =>
    obtain ⟨chip, middle, rest, hprobe, hprobes, rfl⟩ := probeAll_succ h
    obtain ⟨answer, hread, rfl⟩ := probe_eq hprobe
    have hid : (UInt8.ofNat (first + 1)).toNat = first + 1 := by
      rw [UInt8.toNat_ofNat']
      omega
    rw [ih hprobes (by omega)]
    by_cases hself : address = UInt8.ofNat (first + 1)
    · have hafter : ¬(first + 1 < address.toNat ∧ address.toNat ≤ first + 1 + count) := by
        rw [hself, hid]
        omega
      have hhere : first < address.toNat ∧ address.toNat ≤ first + (count + 1) := by
        rw [hself, hid]
        omega
      rw [if_neg hafter, if_pos hhere, hself, fetchRegister_framesTo hread]
    · have hne : address.toNat ≠ first + 1 := by
        rw [← hid]
        exact fun hsame => hself (UInt8.toNat_inj.1 hsame)
      have hrange : (first + 1 < address.toNat ∧ address.toNat ≤ first + 1 + count) ↔
          (first < address.toNat ∧ address.toNat ≤ first + (count + 1)) := by omega
      rw [(fetchRegister_writesTo hread).framesTo hself]
      simp only [hrange]

/-! ### Whole detections -/

/-- A detection that counted its chips and can address them all. -/
def tune (settings : DetectionSettings) (count : UInt8) : Step τ DetectedChain := do
  step (storeRegister broadcast (clockRegister settings.targetMhz))
  step (collectSelfTest broadcast)
  step (fixSelfTest broadcast)
  step (storeSecondary broadcast (Register.sensorDivider (selectClock settings.targetMhz)))
  let chips ← (probeAll 0 (settings.chipLimit.elim count.toNat fun limit =>
    Nat.min limit count.toNat) : StateM (Bus τ) (List Chip))
  return ⟨count.toNat, chips, workingCores chips, selectClock settings.targetMhz⟩

/-- The count of the self-test decides how a detection goes on. -/
theorem run_eq (settings : DetectionSettings) : run (τ := τ) settings = (do
    step (reset broadcast)
    let count ← step (startSelfTest broadcast)
    if count.toNat = 0 then throw .noChips
    else if longestChain < count.toNat then throw (.tooManyChips count.toNat longestChain)
    else tune settings count) := by
  unfold run
  refine bind_congr fun _ => bind_congr fun count => ?_
  by_cases hzero : count.toNat = 0
  · simp only [if_pos hzero]
    rfl
  · simp only [if_neg hzero]
    by_cases hmany : longestChain < count.toNat
    · simp only [if_pos hmany]
      rfl
    · simp only [if_neg hmany]
      rfl

/-- A detection succeeds only when the broadcasts do and the self-test reports a count that a chain
can address. -/
theorem detect_exchanges {settings : DetectionSettings} {found : DetectedChain}
    (h : detect settings bus = (.ok found, after)) :
    ∃ (count : UInt8) (bus1 bus2 bus3 bus4 bus5 last : Bus τ),
      (reset broadcast).runOn bus = (.ok (), bus1) ∧
        (startSelfTest broadcast).runOn bus1 = (.ok count, bus2) ∧
        count.toNat ≠ 0 ∧ count.toNat ≤ longestChain ∧
        (storeRegister broadcast (clockRegister settings.targetMhz)).runOn bus2 = (.ok (), bus3) ∧
        (collectSelfTest broadcast).runOn bus3 = (.ok (), bus4) ∧
        (fixSelfTest broadcast).runOn bus4 = (.ok (), bus5) ∧
        (storeSecondary broadcast
          (Register.sensorDivider (selectClock settings.targetMhz))).runOn bus5 = (.ok (), last) ∧
        (probeAll 0 (settings.chipLimit.elim count.toNat fun limit =>
          Nat.min limit count.toNat)).run last = (found.chips, after) ∧
        found.numChips = count.toNat ∧ found.numCores = workingCores found.chips ∧
        found.pllMhz = selectClock settings.targetMhz := by
  unfold detect run at h
  obtain ⟨_, bus1, hreset, h⟩ := ok_of_step_bind h
  obtain ⟨count, bus2, htest, h⟩ := ok_of_step_bind h
  by_cases hzero : count.toNat = 0
  · simp only [if_pos hzero] at h
    cases (Prod.mk.inj h).1
  · simp only [if_neg hzero] at h
    by_cases hmany : longestChain < count.toNat
    · simp only [if_pos hmany] at h
      cases (Prod.mk.inj h).1
    · simp only [if_neg hmany] at h
      obtain ⟨_, bus3, hclock, h⟩ := ok_of_step_bind h
      obtain ⟨_, bus4, hcollect, h⟩ := ok_of_step_bind h
      obtain ⟨_, bus5, hfix, h⟩ := ok_of_step_bind h
      obtain ⟨_, bus6, hsensor, h⟩ := ok_of_step_bind h
      obtain ⟨hfound, hafter⟩ := Prod.mk.inj h
      obtain rfl := Except.ok.inj hfound
      exact ⟨count, bus1, bus2, bus3, bus4, bus5, bus6, hreset, htest, hzero,
        Nat.le_of_not_lt hmany, hclock, hcollect, hfix, hsensor, Prod.ext rfl hafter, rfl, rfl, rfl⟩

theorem detect_clock {settings : DetectionSettings} {found : DetectedChain}
    (h : detect settings bus = (.ok found, after)) :
    found.pllMhz = selectClock settings.targetMhz := by
  obtain ⟨_, _, _, _, _, _, _, _, _, _, _, _, _, _, _, _, _, _, hclock⟩ := detect_exchanges h
  exact hclock

/-- Before the chips are asked one by one, nothing is written but broadcasts, the last of them no
job. -/
theorem detect_ok {settings : DetectionSettings} {found : DetectedChain}
    (h : detect settings bus = (.ok found, after)) : ∃ (count : UInt8) (last : Bus τ),
      count.toNat ≠ 0 ∧ count.toNat ≤ longestChain ∧ Settled last ∧
        (∀ address, address ≠ broadcast → last.framesTo address = bus.framesTo address) ∧
        (probeAll 0 (settings.chipLimit.elim count.toNat fun limit =>
          Nat.min limit count.toNat)).run last = (found.chips, after) ∧
        found.numChips = count.toNat ∧ found.numCores = workingCores found.chips := by
  obtain ⟨count, _, _, _, _, _, last, hreset, htest, hzero, hcount, hclock, hcollect, hfix, hsensor,
    hprobes, hnum, hcores, _⟩ := detect_exchanges h
  obtain ⟨_, ht1, hex1⟩ := acknowledged_exchanged hreset
  obtain ⟨_, ht2, hex2⟩ := startSelfTest_exchanged htest
  obtain ⟨_, ht3, hex3⟩ := stored_exchanged hclock
  obtain ⟨_, ht4, hex4⟩ := acknowledged_exchanged hcollect
  obtain ⟨_, ht5, hex5⟩ := acknowledged_exchanged hfix
  obtain ⟨_, ht6, hex6⟩ := stored_exchanged hsensor
  have hsettled : Settled last :=
    settled_of_exchanged (isJob_eq_false (by rw [ht6]; exact isJobFrame_code (by decide) _)) hex6
  refine ⟨count, last, hzero, hcount, hsettled, ?_, hprobes, hnum, hcores⟩
  intro address hne
  have hquiet : WritesTo broadcast bus last :=
    (((((WritesTo.of_one hex1 ht1).trans (.of_one hex2 ht2)).trans (.of_one hex3 ht3)).trans
      (.of_one hex4 ht4)).trans (.of_one hex5 ht5)).trans (.of_one hex6 ht6)
  exact hquiet.framesTo hne

theorem driven_le (limit? : Option Nat) (count : Nat) :
    (limit?.elim count fun limit => Nat.min limit count) ≤ count := by
  cases limit? with
  | none => exact Nat.le_refl _
  | some limit => exact Nat.min_le_right _ _

theorem detect_numbered {settings : DetectionSettings} {found : DetectedChain}
    (h : detect settings bus = (.ok found, after)) :
    Numbered found.chips ∧ (∀ chip ∈ found.chips, chip.slots = .empty) ∧ Settled after := by
  obtain ⟨count, last, _, hcount, hsettled, _, hprobes, _, _⟩ := detect_ok h
  obtain ⟨hlen, hchips, _, hkept⟩ := probeAll_classified hprobes
  refine ⟨?_, ?_, hkept hsettled⟩
  · intro place chip hchip
    have hlt := (List.getElem?_eq_some_iff.1 hchip).1
    have hdriven := driven_le settings.chipLimit count.toNat
    obtain ⟨answer, rfl⟩ := hchips place chip hchip
    rw [classify_id, UInt8.toNat_ofNat']
    unfold longestChain at hcount
    omega
  · intro chip hmem
    obtain ⟨place, hchip⟩ := List.mem_iff_getElem?.1 hmem
    obtain ⟨answer, rfl⟩ := hchips place chip hchip
    exact classify_slots ..

theorem detect_counts {settings : DetectionSettings} {found : DetectedChain}
    (h : detect settings bus = (.ok found, after)) :
    1 ≤ found.numChips ∧ found.numChips ≤ longestChain ∧ found.chips.length ≤ found.numChips ∧
      found.numCores = workingCores found.chips ∧
        ∀ chip ∈ found.chips, chip.condition.isDisabled = false →
          after.generation.brokenCores ≤ chip.cores := by
  obtain ⟨count, last, hzero, hcount, _, _, hprobes, hnum, hcores⟩ := detect_ok h
  obtain ⟨hlen, hchips, hgen, _⟩ := probeAll_classified hprobes
  rw [hnum, hlen]
  refine ⟨Nat.pos_of_ne_zero hzero, hcount, driven_le .., hcores, ?_⟩
  intro chip hmem hworks
  obtain ⟨place, hchip⟩ := List.mem_iff_getElem?.1 hmem
  obtain ⟨answer, rfl⟩ := hchips place chip hchip
  rw [hgen]
  exact classify_cores hworks

/-- The one frame addressed to a chip while its chain is detected asks for its register. -/
theorem detect_framesTo {settings : DetectionSettings} {found : DetectedChain}
    (h : detect settings bus = (.ok found, after)) {chip : Chip} (hmem : chip ∈ found.chips) :
    after.framesTo chip.id = readFrame chip.id :: bus.framesTo chip.id := by
  obtain ⟨hnumbered, _, _⟩ := detect_numbered h
  obtain ⟨count, last, _, hcount, _, hquiet, hprobes, _, _⟩ := detect_ok h
  obtain ⟨hlen, _, _, _⟩ := probeAll_classified hprobes
  obtain ⟨place, hchip⟩ := List.mem_iff_getElem?.1 hmem
  have hplace : chip.id.toNat = place + 1 := hnumbered place chip hchip
  have hlt := (List.getElem?_eq_some_iff.1 hchip).1
  have hdriven := driven_le settings.chipLimit count.toNat
  have hasked := probeAll_framesTo hprobes
  unfold longestChain at hcount
  rw [hasked (by omega), if_pos (by omega), hquiet chip.id (hnumbered.id_ne_broadcast hmem)]

end Detection

end HashBoard
