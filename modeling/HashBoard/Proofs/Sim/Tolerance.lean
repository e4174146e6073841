import HashBoard.Proofs.Sim.Detected
import HashBoard.Proofs.Sim.FaultyScans
import HashBoard.Sim.Event

/-!
# Failed reads are tolerated

A chip of a freshly detected simulated chain is told to ignore some register reads. Every scan
succeeds all the same. Without a cooldown, one scan more than the chip ignores reads decides its
fate: it is active again when it ignored fewer reads than the threshold, and otherwise it was
disabled by one of the scans and took its cores with it. No other chip is concerned.
-/

namespace HashBoard

open Bus Wire Detection SimulatedChain HashBoard.Cycle

theorem SimulatedChain.failReads_eq {s s' : SimulatedChain} {address : UInt8} {reads : Nat}
    (h : s.after? (.failReads address reads) = some s') : address ≠ broadcast ∧ s' = { s with
      chips := s.chips.modify (address.toNat - 1) fun c => { c with failingReads := reads } } := by
  unfold after? modifyChip? at h
  by_cases hnone : address = broadcast ∨ s.chips.length < address.toNat
  · simp only [if_pos hnone] at h
    cases h
  · simp only [if_neg hnone] at h
    exact ⟨fun hzero => hnone (.inl hzero), (Option.some.inj h).symm⟩

namespace Service

/-! ### Runs -/

/-- The chips that some reports count as disabled. -/
def disabledIn (reports : List ScanTally) : Nat := reports.foldr (fun r n => r.disabled + n) 0

theorem disabledIn_cons (report : ScanTally) (reports : List ScanTally) :
    disabledIn (report :: reports) = report.disabled + disabledIn reports := rfl

/-- Between two requests: what each chip was to ignore, by its place, and a bound on the scans until
it is settled. -/
structure Tolerating (policy : Tolerance) (budget bound : Nat → Nat) (s : Service SimulatedChain) :
    Prop where
  tied : Tied s.moment
  sound : Sound s.moment
  tolerance : s.chain.options.tolerance = policy
  phase : Holds (fun place x => Phase policy.disableThreshold (budget place) x) s.moment
  settles : Holds (fun place x => Standing.weight x ≤ bound place) s.moment

namespace Tolerating

variable {policy : Tolerance} {budget bound : Nat → Nat} {s : Service SimulatedChain}

theorem offer (h : Tolerating policy budget bound s) (work : Work) :
    Tolerating policy budget bound (s.after (.offer work)) ∧
      (s.after (.offer work)).chain.chips = s.chain.chips := by
  rcases s.after_offer work with ⟨_, heq⟩ | ⟨_, heq⟩
  · rw [heq]
    exact ⟨⟨h.tied, h.sound, h.tolerance, h.phase, h.settles⟩, rfl⟩
  · rw [heq]
    exact ⟨⟨⟨h.tied.serving, h.tied.numbered, h.tied.simulated⟩, h.sound.of_same rfl rfl, h.tolerance,
      h.phase, h.settles⟩, rfl⟩

theorem exists_standing (h : Tolerating policy budget bound s) {place : Nat} {chip : Chip}
    (hchip : s.chain.chips[place]? = some chip) :
    ∃ reads, (standings s.moment)[place]? = some (chip.condition, reads) := by
  obtain ⟨before, after, hlength, hsplit, _⟩ := exists_split_of_getElem? hchip
  have htied : Tied (before ++ chip :: after, s.moment.2) := by
    rw [← hsplit]
    exact h.tied
  obtain ⟨m, _, _, hstanding⟩ := htied.exists_simulated
  rw [hlength, ← hsplit] at hstanding
  exact ⟨m.failingReads, hstanding⟩

/-- A chain without working cores has no chip left that is not disabled. -/
theorem weight_of_numCores_eq_zero (h : Tolerating policy budget bound s)
    (hcores : s.chain.numCores = 0) : Holds (fun _ x => Standing.weight x = 0) s.moment := by
  intro place x hx
  obtain ⟨chip, profile, hchip, _, rfl⟩ := exists_of_standing hx
  have hmem : chip ∈ s.chain.chips := List.mem_of_getElem? hchip
  have hworking : s.chain.numCores = workingCores s.chain.chips := h.sound.cores
  have hle := coresOf_le hmem
  cases hdisabled : chip.condition.isDisabled with
  | true => exact Standing.weight_of_isDisabled hdisabled
  | false =>
    have hbroken := Generation.brokenCores_pos h.tied.serving.known
    have hcapable := UInt8.le_iff_toNat_le.1 (h.sound.capable chip hmem hdisabled)
    rw [coresOf, hdisabled, if_neg Bool.false_ne_true] at hle
    omega

theorem scan (h : Tolerating policy budget bound s) (hcooldown : policy.cooldown = 0)
    (overview : Thermal.Overview) (now : Nat) :
    Tolerating policy budget (fun place => bound place - 1) (s.after (.scan overview now)) ∧
      ∃ tally, (s.chain.scan s.sink overview now).result = .ok tally ∧
        tally.disabled + disabledCount s.chain.chips =
          disabledCount (s.after (.scan overview now)).chain.chips := by
  have hpolicy : (s.after (.scan overview now)).chain.options.tolerance = policy := by
    rw [← h.tolerance]
    exact congrArg DrivingOptions.tolerance (s.chain.scan_options s.sink overview now)
  have hsound := (scan_sound h.sound overview now).1
  by_cases hcores : s.chain.numCores = 0
  · have hidle := s.chain.scan_of_numCores_eq_zero s.sink overview now hcores
    have hmoment : (s.after (.scan overview now)).moment =
        (s.chain.chips, { s.moment.2 with counters := s.chain.counted.counters }) := by
      show ((s.chain.scan s.sink overview now).chain.chips,
        (s.chain.scan s.sink overview now).chain.cycle (s.chain.scan s.sink overview now).sink) = _
      rw [hidle]
      rfl
    refine ⟨⟨?_, hsound, hpolicy, ?_, ?_⟩, { ScanTally.zero with idle := true }, ?_, ?_⟩
    · rw [hmoment]
      exact ⟨h.tied.serving, h.tied.numbered, h.tied.simulated⟩
    · rw [hmoment]
      exact h.phase
    · rw [hmoment]
      intro place x hx
      rw [h.weight_of_numCores_eq_zero hcores place x hx]
      exact Nat.zero_le _
    · rw [hidle]
    · have hchips : (s.after (.scan overview now)).chain.chips = s.chain.chips :=
        congrArg Prod.fst hmoment
      rw [hchips]
      exact Nat.zero_add _
  · obtain ⟨q, hend, hresult, hdisabled, htied, hholds, hweight⟩ :=
      Chain.scan_served h.tied hcores overview now
    have hsame : (s.after (.scan overview now)).moment = (q.1, q.2.count fun _ => .zero) := hend
    refine ⟨⟨?_, hsound, hpolicy, ?_, ?_⟩, q.2.tally, hresult, ?_⟩
    · rw [hsame]
      exact ⟨htied.serving, htied.numbered, htied.simulated⟩
    · rw [hsame]
      refine hholds _ ?_ h.phase
      intro now place x y hturn hx
      rw [h.tolerance] at hturn
      exact hturn.phase hx
    · rw [hsame]
      refine hweight _ ?_ h.settles
      rw [h.tolerance, hcooldown]
    · rw [hdisabled]
      exact (congrArg (fun p => disabledCount p.1) hsame).symm

/-- While work is offered and the chain is scanned, every scan succeeds and brings each chip one scan
nearer to being settled. -/
theorem run (h : Tolerating policy budget bound s) (hcooldown : policy.cooldown = 0)
    {requests : List Request} (hoffers : Request.reclaim ∉ requests) :
    Tolerating policy budget (fun place => bound place - requests.countP Request.isScan)
        (s.run requests) ∧
      ∃ reports : List ScanTally, s.reports requests = reports.map .ok ∧
        disabledIn reports + disabledCount s.chain.chips =
          disabledCount (s.run requests).chain.chips := by
  induction requests generalizing s bound with
  | nil => exact ⟨h, [], rfl, Nat.zero_add _⟩
  | cons request rest ih =>
    have hrest : Request.reclaim ∉ rest := fun hmem => hoffers (List.mem_cons_of_mem _ hmem)
    cases request with
    | offer work =>
      obtain ⟨hnext, hchips⟩ := h.offer work
      obtain ⟨hlast, reports, hreports, hsum⟩ := ih hnext hrest
      rw [hchips] at hsum
      refine ⟨?_, reports, hreports, hsum⟩
      rw [List.countP_cons_of_neg (by nofun)]
      exact hlast
    | scan overview now =>
      obtain ⟨hnext, tally, hresult, hone⟩ := h.scan hcooldown overview now
      obtain ⟨hlast, reports, hreports, hsum⟩ := ih hnext hrest
      refine ⟨?_, tally :: reports, ?_, ?_⟩
      · have hbound : (fun place => bound place -
            (Request.scan overview now :: rest).countP Request.isScan) =
            fun place => bound place - 1 - rest.countP Request.isScan := by
          funext place
          rw [List.countP_cons_of_pos rfl, Nat.sub_sub, Nat.add_comm]
        rw [hbound]
        exact hlast
      · rw [Service.reports, hresult, hreports, List.map_cons]
      · rw [disabledIn_cons]
        show _ = disabledCount ((s.after (.scan overview now)).run rest).chain.chips
        omega
    | reclaim => exact absurd (List.mem_cons_self ..) hoffers

/-! ### Outcomes -/

/-- A chip that was to ignore no read is active. -/
theorem active (h : Tolerating policy budget bound s) (hthreshold : 1 ≤ policy.disableThreshold)
    {place : Nat} {chip : Chip} (hchip : s.chain.chips[place]? = some chip)
    (hbudget : budget place = 0) : chip.condition = .active := by
  obtain ⟨reads, hstanding⟩ := h.exists_standing hchip
  have hphase : Phase policy.disableThreshold (budget place) (chip.condition, reads) :=
    h.phase place _ hstanding
  rw [hbudget] at hphase
  exact hphase.active_of_zero hthreshold

theorem settled (h : Tolerating policy budget bound s) (hthreshold : 1 ≤ policy.disableThreshold)
    {place : Nat} {chip : Chip} (hchip : s.chain.chips[place]? = some chip)
    (hbound : bound place = 0) :
    (budget place < policy.disableThreshold ∧ chip.condition = .active) ∨
      (policy.disableThreshold ≤ budget place ∧ chip.condition.isDisabled = true) := by
  obtain ⟨reads, hstanding⟩ := h.exists_standing hchip
  refine (h.phase place _ hstanding).outcome hthreshold ?_
  exact Nat.le_zero.1 (hbound ▸ h.settles place _ hstanding)

end Tolerating

/-! ### One chip that ignores reads -/

/-- What each chip is to ignore when only the one with an address does. -/
def ignoring (address : UInt8) (reads place : Nat) : Nat :=
  if place + 1 = address.toNat then reads else 0

theorem Tolerating.others_active {policy : Tolerance} {bound : Nat → Nat} {address : UInt8}
    {reads : Nat} {s : Service SimulatedChain}
    (h : Tolerating policy (ignoring address reads) bound s)
    (hthreshold : 1 ≤ policy.disableThreshold) {chip : Chip} (hchip : chip ∈ s.chain.chips)
    (hid : chip.id ≠ address) : chip.condition = .active := by
  obtain ⟨place, hplace⟩ := List.mem_iff_getElem?.1 hchip
  have hnum : chip.id.toNat = place + 1 := h.tied.numbered place chip hplace
  refine h.active hthreshold hplace (if_neg ?_)
  rw [← hnum]
  exact fun hsame => hid (UInt8.toNat_inj.1 hsame)

theorem profile_of_failReads {s s' : SimulatedChain} {address : UInt8} {reads place : Nat}
    {profile : UInt8 × Nat} (h : s.after? (.failReads address reads) = some s')
    (hzero : ∀ profile ∈ s.profiles, profile.2 = 0) (hprofile : s'.profiles[place]? = some profile) :
    profile.2 = ignoring address reads place := by
  obtain ⟨hne, rfl⟩ := SimulatedChain.failReads_eq h
  have hpos : address.toNat ≠ 0 := fun h => hne (UInt8.toNat_inj.1 h)
  rw [profiles, List.getElem?_map, List.getElem?_modify] at hprofile
  cases hm : s.chips[place]? with
  | none =>
    rw [hm] at hprofile
    cases hprofile
  | some m =>
    rw [hm] at hprofile
    obtain rfl := Option.some.inj hprofile
    by_cases hplace : address.toNat - 1 = place
    · have hself : place + 1 = address.toNat := by omega
      rw [ignoring, if_pos hself]
      simp only [if_pos hplace, SimulatedChip.profile]
    · have hother : place + 1 ≠ address.toNat := by omega
      rw [ignoring, if_neg hother]
      simp only [if_neg hplace]
      exact hzero _ (List.mem_map_of_mem (List.mem_of_getElem? hm))

theorem tolerating_start {g : Generation} (hg : g ∈ Generation.all) {cores : List UInt8}
    (hcores : ∀ count ∈ cores, g.brokenCores ≤ count) {limits : PollLimits}
    (hbytes : 6 ≤ limits.maxBytes) (htime : 0 < limits.timeout) {settings : DetectionSettings}
    {found : DetectedChain} {bus : Bus SimulatedChain}
    (hfound : detect settings (Bus.start (SimulatedChain.ofCores g cores) g limits) =
      (.ok found, bus))
    {address : UInt8} {reads : Nat} {sim : SimulatedChain}
    (hsim : bus.channel.after? (.failReads address reads) = some sim)
    (id : UInt8) (options : DrivingOptions) (schedule : Thermal.Schedule)
    (power : Option PowerLine) (publishes : Bool)
    (judge : List SinkEvent → Work → UInt8 → UInt32 → Bool) :
    Tolerating options.tolerance (ignoring address reads) (ignoring address reads)
        (start { Chain.ofDetection id { bus with channel := sim } found options schedule with
          power, publishes } judge) ∧
      ∀ chip ∈ found.chips, chip.condition = .active := by
  have hfresh : Serving (Bus.start (SimulatedChain.ofCores g cores) g limits) :=
    ⟨hg, rfl, rfl, rfl, rfl, htime, hbytes⟩
  have hprofiles : ∀ profile ∈ (SimulatedChain.ofCores g cores).profiles,
      profile.2 = 0 ∧ g.brokenCores ≤ profile.1 := by
    intro profile hmem
    obtain ⟨m, hm, rfl⟩ := List.mem_map.1 hmem
    obtain ⟨count, hcount, rfl⟩ := List.mem_map.1 hm
    exact ⟨rfl, hcores count hcount⟩
  obtain ⟨hundisturbed, hlength, hactive⟩ := detect_active hfresh
    (fun profile hmem => (hprofiles profile hmem).1) (fun profile hmem => (hprofiles profile hmem).2)
    hfound
  obtain ⟨hnumbered, hslots, _⟩ := detect_numbered hfound
  obtain ⟨_, _, _, hworking, hcapable⟩ := detect_counts hfound
  have hserving := hundisturbed.serving hfresh
  have hzero : ∀ profile ∈ bus.channel.profiles, profile.2 = 0 := by
    rw [hundisturbed.channel.profiles]
    exact fun profile hmem => (hprofiles profile hmem).1
  have hstanding (place : Nat) (x : Standing)
      (hx : (standingsOf found.chips sim.profiles)[place]? = some x) :
      x = (.active, ignoring address reads place) := by
    obtain ⟨chip, profile, hchip, hprofile, rfl⟩ := exists_of_standing hx
    rw [hactive chip (List.mem_of_getElem? hchip), profile_of_failReads hsim hzero hprofile]
  obtain ⟨_, heq⟩ := SimulatedChain.failReads_eq hsim
  refine ⟨⟨⟨?_, hnumbered, ?_⟩, ⟨hnumbered, fun chip hmem _ => hslots chip hmem, hcapable, hworking⟩,
    rfl, ?_, ?_⟩, hactive⟩
  · show Serving { bus with channel := sim }
    rw [heq]
    exact ⟨hserving.known, hserving.generation, hserving.failingWrites, hserving.results,
      hserving.dropJobs, hserving.patient, hserving.room⟩
  · show found.chips.length ≤ sim.profiles.length
    rw [heq, profiles, List.length_map, List.length_modify]
    rw [profiles, List.length_map] at hlength
    exact hlength
  · intro place x hx
    rw [hstanding place x hx]
    exact .active (.inl rfl)
  · intro place x hx
    rw [hstanding place x hx]
    exact Nat.le_refl _

/-! ### The outcome -/

theorem disabledCount_eq_zero {chips : List Chip}
    (h : ∀ chip ∈ chips, chip.condition = .active) : disabledCount chips = 0 := by
  refine List.countP_eq_zero.2 fun chip hchip => ?_
  rw [h chip hchip]
  nofun

theorem disabledCount_eq_one {before after : List Chip} {chip : Chip}
    (hothers : ∀ other ∈ before ++ after, other.condition = .active)
    (hchip : chip.condition.isDisabled = true) : disabledCount (before ++ chip :: after) = 1 := by
  have hbefore : disabledCount before = 0 :=
    disabledCount_eq_zero fun other hmem => hothers other (List.mem_append_left _ hmem)
  have hafter : disabledCount after = 0 :=
    disabledCount_eq_zero fun other hmem => hothers other (List.mem_append_right _ hmem)
  rw [disabledCount_append_cons, hbefore, hafter, if_pos hchip]

theorem disabled_eq_zero {reports : List ScanTally} (h : disabledIn reports = 0) :
    ∀ report ∈ reports, report.disabled = 0 := by
  induction reports with
  | nil => exact List.forall_mem_nil _
  | cons report rest ih =>
    rw [disabledIn_cons] at h
    exact List.forall_mem_cons.2 ⟨by omega, ih (by omega)⟩

theorem exists_one_of_disabledIn {reports : List ScanTally} (h : disabledIn reports = 1) :
    ∃ before report after, reports = before ++ report :: after ∧ report.disabled = 1 ∧
      ∀ other ∈ before ++ after, other.disabled = 0 := by
  induction reports with
  | nil => cases h
  | cons report rest ih =>
    rw [disabledIn_cons] at h
    rcases Nat.eq_zero_or_pos report.disabled with hzero | hpos
    · obtain ⟨before, one, after, rfl, hone, hothers⟩ := ih (by omega)
      refine ⟨report :: before, one, after, rfl, hone, fun other hother => ?_⟩
      rcases List.mem_cons.1 hother with rfl | hother
      · exact hzero
      · exact hothers other hother
    · have hrest : disabledIn rest = 0 := by omega
      exact ⟨[], report, rest, rfl, by omega, disabled_eq_zero hrest⟩

/-- Once the chip that ignores reads is settled, it alone may not be active. -/
theorem Tolerating.outcome {policy : Tolerance} {bound : Nat → Nat} {reads : Nat}
    {s : Service SimulatedChain} {front back : List Chip} {chip : Chip}
    (h : Tolerating policy (ignoring chip.id reads) bound s)
    (hthreshold : 1 ≤ policy.disableThreshold) (hchips : s.chain.chips = front ++ chip :: back)
    (hbound : bound front.length = 0) :
    (∀ other ∈ front ++ back, other.condition = .active) ∧
      ((reads < policy.disableThreshold ∧ chip.condition = .active) ∨
        (policy.disableThreshold ≤ reads ∧ chip.condition.isDisabled = true)) := by
  have hnumbered : Numbered (front ++ chip :: back) := by
    rw [← hchips]
    exact h.tied.numbered
  have hbudget : ignoring chip.id reads front.length = reads := if_pos hnumbered.id_eq.symm
  have hplace : s.chain.chips[front.length]? = some chip := by
    rw [hchips, List.getElem?_append_right (Nat.le_refl _), Nat.sub_self]
    rfl
  refine ⟨fun other hother => ?_, ?_⟩
  · refine h.others_active hthreshold ?_ (hnumbered.id_ne_of_mem hother)
    rw [hchips]
    rcases List.mem_append.1 hother with hmem | hmem
    · exact List.mem_append_left _ hmem
    · exact List.mem_append_right _ (List.mem_cons_of_mem _ hmem)
  · have hsettled := h.settled hthreshold hplace hbound
    rw [hbudget] at hsettled
    exact hsettled

/-- A chip of a freshly detected simulated chain ignores its next reads. While work is offered and
the chain is scanned every scan succeeds and no other chip is affected. Without a cooldown, after
one scan more than there were reads to ignore, the chip is active again if they were fewer than the
threshold; otherwise one scan reported it disabled, and its cores are gone. -/
theorem failed_reads_tolerated {g : Generation} (hg : g ∈ Generation.all) {cores : List UInt8}
    (hcores : ∀ count ∈ cores, g.brokenCores ≤ count) {limits : PollLimits}
    (hbytes : 6 ≤ limits.maxBytes) (htime : 0 < limits.timeout) {settings : DetectionSettings}
    {found : DetectedChain} {bus : Bus SimulatedChain}
    (hfound : detect settings (Bus.start (SimulatedChain.ofCores g cores) g limits) =
      (.ok found, bus))
    {k : Chip} (hk : k ∈ found.chips) {reads : Nat} {sim : SimulatedChain}
    (hsim : bus.channel.after? (.failReads k.id reads) = some sim)
    {options : DrivingOptions} (hcooldown : options.tolerance.cooldown = 0)
    (hthreshold : 1 ≤ options.tolerance.disableThreshold)
    (id : UInt8) (schedule : Thermal.Schedule) (power : Option PowerLine) (publishes : Bool)
    (judge : List SinkEvent → Work → UInt8 → UInt32 → Bool)
    {requests : List Request} (hoffers : Request.reclaim ∉ requests)
    (hscans : reads + 1 ≤ requests.countP Request.isScan) :
    let s := start { Chain.ofDetection id { bus with channel := sim } found options schedule with
      power, publishes } judge
    let later := (s.run requests).chain
    ∃ reports : List ScanTally, s.reports requests = reports.map .ok ∧
      (∀ earlier, earlier <+: requests → ∀ chip ∈ (s.run earlier).chain.chips, chip.id ≠ k.id →
        chip.condition = .active) ∧
      later.chips.map Chip.id = found.chips.map Chip.id ∧
      ∃ chip ∈ later.chips, chip.id = k.id ∧
        (reads < options.tolerance.disableThreshold →
          chip.condition = .active ∧ chip.condition.failures = 0 ∧
            later.numCores = found.numCores) ∧
        (options.tolerance.disableThreshold ≤ reads →
          chip.condition.isDisabled = true ∧
            (∃ before report after, reports = before ++ report :: after ∧ report.disabled = 1 ∧
              ∀ other ∈ before ++ after, other.disabled = 0) ∧
            later.numCores + k.cores.toNat = found.numCores) := by
  intro s later
  obtain ⟨hstart, hactive⟩ := tolerating_start hg hcores hbytes htime hfound hsim id options schedule
    power publishes judge
  obtain ⟨hlater, reports, hreports, hsum⟩ := hstart.run hcooldown hoffers
  have hsucc : Succession found.chips later.chips := (run_sound hstart.sound requests).2
  obtain ⟨front, back, hsplit⟩ := List.append_of_mem hk
  rw [hsplit] at hsucc
  obtain ⟨front', k', back', hchips, hfront, hfollows, hback⟩ := hsucc.exists_split
  have hplace : k.id.toNat = front'.length + 1 := by
    have hnumbered : Numbered (front' ++ k' :: back') := by
      rw [← hchips]
      exact hlater.tied.numbered
    rw [← hfollows.id, hnumbered.id_eq]
  have hbound : ignoring k.id reads front'.length - requests.countP Request.isScan = 0 := by
    rw [ignoring, if_pos hplace.symm]
    omega
  rw [← hfollows.id] at hlater
  obtain ⟨hothers, hcases⟩ := hlater.outcome hthreshold hchips (by rw [hfollows.id]; exact hbound)
  have hstand (chip : Chip) (hmem : chip ∈ front' ++ back') : chip.condition.isDisabled = false := by
    rw [hothers chip hmem]
    rfl
  have hcores : later.numCores + k.cores.toNat = found.numCores + coresOf k' := by
    have hnow : later.numCores = workingCores later.chips := hlater.sound.cores
    have hfirst : found.numCores = workingCores found.chips := hstart.sound.cores
    have hone := hfront.workingCores_add_coresOf k k' hback hstand
    rw [coresOf, hactive k hk, if_neg (by decide)] at hone
    rw [hnow, hfirst, hchips, hsplit]
    exact hone
  refine ⟨reports, hreports, ?_, ?_, k', ?_, hfollows.id, ?_, ?_⟩
  · intro earlier hearlier chip hchip hid
    have hsome : Request.reclaim ∉ earlier := fun hmem => hoffers (hearlier.subset hmem)
    exact (hstart.run hcooldown hsome).1.others_active hthreshold hchip hid
  · rw [hsplit]
    exact hsucc.ids_eq
  · rw [hchips]
    exact List.mem_append_cons_self
  · intro hfew
    rcases hcases with ⟨_, hk'⟩ | ⟨hmany, _⟩
    · refine ⟨hk', by rw [hk']; rfl, ?_⟩
      rw [coresOf, hk', if_neg (by decide), hfollows.cores] at hcores
      exact Nat.add_right_cancel hcores
    · omega
  · intro hmany
    rcases hcases with ⟨hfew, _⟩ | ⟨_, hk'⟩
    · omega
    · refine ⟨hk', exists_one_of_disabledIn ?_, ?_⟩
      · have hnone : disabledCount s.chain.chips = 0 := disabledCount_eq_zero hactive
        have hone : disabledCount later.chips = 1 := by
          rw [hchips]
          exact disabledCount_eq_one hothers hk'
        have hall : disabledIn reports + disabledCount s.chain.chips =
            disabledCount later.chips := hsum
        omega
      · rw [coresOf, if_pos hk'] at hcores
        exact hcores

/-- The second of two chips of forty cores ignores four reads, and four are too many. -/
theorem failed_reads_tolerated_of_two_chips :
    ∃ (s : Service SimulatedChain) (requests : List Request) (reports : List ScanTally),
      s.chain.numCores = 80 ∧ s.reports requests = reports.map .ok ∧
        (∃ before report after, reports = before ++ report :: after ∧ report.disabled = 1 ∧
          ∀ other ∈ before ++ after, other.disabled = 0) ∧
        (s.run requests).chain.numCores = 40 := by
  let fresh : Bus SimulatedChain := Bus.start (SimulatedChain.ofCores .a4 [40, 40]) .a4 ⟨6, 1000⟩
  let options : DrivingOptions := { DrivingOptions.standard with tolerance := ⟨0, 4⟩ }
  let requests : List Request := (List.range 5).map (Request.scan .empty)
  have hchecked : ((detect ⟨600, none⟩ fresh).1.toOption.any fun found =>
      decide (found.numCores = 80 ∧
        (found.chips.map fun chip => (chip.id, chip.cores)) = [(1, 40), (2, 40)] ∧
        ((detect ⟨600, none⟩ fresh).2.channel.after? (.failReads 2 4)).isSome = true)) = true := by
    decide +kernel
  cases hfound : detect ⟨600, none⟩ fresh with
  | mk answer bus =>
    rw [hfound] at hchecked
    cases answer with
    | error cause => cases hchecked
    | ok found =>
      obtain ⟨hcores, hchips, hsome⟩ := of_decide_eq_true hchecked
      obtain ⟨sim, hsim⟩ := Option.isSome_iff_exists.1 hsome
      have hmem : ((2, 40) : UInt8 × UInt8) ∈ found.chips.map fun chip => (chip.id, chip.cores) := by
        rw [hchips]
        decide
      obtain ⟨k, hk, hpair⟩ := List.mem_map.1 hmem
      obtain ⟨hid, hforty⟩ := Prod.mk.inj hpair
      have hknown : Generation.a4 ∈ Generation.all :=
        List.mem_cons_of_mem _ (List.mem_singleton_self _)
      have henough : ∀ count ∈ ([40, 40] : List UInt8), Generation.a4.brokenCores ≤ count := by
        intro count hcount
        have hforty : count = 40 := by simpa only [List.mem_cons, List.not_mem_nil, or_false, or_self]
          using hcount
        rw [hforty]
        decide
      have hcooldown : options.tolerance.cooldown = 0 := rfl
      have hthreshold : 1 ≤ options.tolerance.disableThreshold := by decide
      have hoffers : Request.reclaim ∉ requests := by
        intro hmem
        obtain ⟨_, _, hscan⟩ := List.mem_map.1 hmem
        cases hscan
      have hscans : requests.countP Request.isScan = 5 := rfl
      obtain ⟨reports, hreports, _, _, _, _, _, _, hmany⟩ :=
        failed_reads_tolerated hknown henough (Nat.le_refl 6) (by decide) hfound hk
          (by rw [hid]; exact hsim) hcooldown hthreshold 0 (.start 60000 5000 0) none false
          (fun _ _ _ _ => true) hoffers (Nat.le_of_eq hscans.symm)
      obtain ⟨_, hone, hleft⟩ := hmany (Nat.le_refl 4)
      rw [hforty, hcores] at hleft
      exact ⟨_, requests, reports, hcores, hreports, hone, Nat.add_right_cancel hleft⟩

end Service

end HashBoard
