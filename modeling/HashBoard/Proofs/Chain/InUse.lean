import HashBoard.Proofs.Bus.WellFormed
import HashBoard.Proofs.Chain.Attribution

/-!
# Chains in use

A bus on which a chain is detected and then used, in any order, while its channel may change on its
own between two requests. Detection, scans and reclaims make calls and nothing else, and each frame
among them is well formed for the chips driven; what such calls keep is therefore kept in any use.
-/

namespace HashBoard

open Bus Wire Relation

/-! ### Detection -/

namespace Detection

/-- The broadcasts that a detection starts with. -/
def opening (settings : DetectionSettings) : List Bytes :=
  [[Opcode.reset.code, broadcast, 0, 0], [Opcode.startSelfTest.code, broadcast, 0, 0],
   (clockRegister settings.targetMhz).storeFrame .writeReg broadcast,
   [Opcode.collectSelfTest.code, broadcast, 0, 0], [Opcode.fixSelfTest.code, broadcast, 0, 0],
   (Register.sensorDivider (selectClock settings.targetMhz)).storeFrame .writeSecReg broadcast]

theorem opening_wellFormed (g : Generation) (driven : List UInt8) (settings : DetectionSettings) :
    ∀ frame ∈ opening settings, WellFormed g driven frame := by
  have hplain (opcode : Opcode) (hopcode : opcode ∈ [.startSelfTest, .fixSelfTest, .reset,
      .fetchResult, .readReg, .collectSelfTest]) :
      WellFormed g driven [opcode.code, broadcast, 0, 0] :=
    .of_plain hopcode rfl (by decide) (.inl rfl)
  have hstore (opcode : Opcode) (hopcode : opcode = .writeReg ∨ opcode = .writeSecReg)
      (register : Register) : WellFormed g driven (register.storeFrame opcode broadcast) :=
    .storeFrame hopcode register (.inl rfl)
  unfold opening
  simp only [List.forall_mem_cons]
  exact ⟨hplain .reset (by decide), hplain .startSelfTest (by decide), hstore .writeReg (.inl rfl) _,
    hplain .collectSelfTest (by decide), hplain .fixSelfTest (by decide),
    hstore .writeSecReg (.inr rfl) _, List.forall_mem_nil _⟩

variable {τ : Type} [Channel τ] {P : Bytes → Prop} {bus after : Bus τ}

/-- Calls with the property come first, and if all goes well then the chips found are probed. -/
def Opens (P : Bytes → Prop) (x : Step τ DetectedChain) : Prop :=
  ∀ bus after answer, x.run.run bus = (answer, after) → ∃ last, Calls P bus last ∧
    match answer with
    | .ok found => (probeAll 0 found.chips.length).run last = (found.chips, after)
    | .error _ => after = last

theorem Opens.step {α : Type} {x : Exchange τ α} {f : α → Step τ DetectedChain} (hx : Sends P x)
    (hf : ∀ a, Opens P (f a)) : Opens P (step x >>= f) := by
  intro bus after answer h
  rcases step_cases h with ⟨a, middle, hfirst, hrest⟩ | ⟨cause, hfail, rfl⟩
  · obtain ⟨last, hcalls, hend⟩ := hf a middle after answer hrest
    exact ⟨last, (hx.calls hfirst).trans hcalls, hend⟩
  · exact ⟨after, hx.calls hfail, rfl⟩

theorem Opens.throw (cause : DetectionError) : Opens (τ := τ) P (throw cause) := by
  intro bus after answer h
  obtain ⟨rfl, rfl⟩ := Prod.mk.inj h
  exact ⟨bus, .refl, rfl⟩

theorem run_opens {settings : DetectionSettings} (hopening : ∀ frame ∈ opening settings, P frame) :
    Opens (τ := τ) P (run settings) := by
  unfold opening at hopening
  simp only [List.forall_mem_cons] at hopening
  obtain ⟨hreset, htest, hclock, hcollect, hfix, hsensor, _⟩ := hopening
  rw [run_eq]
  refine .step (acknowledged_sends hreset) fun _ => .step (startSelfTest_sends htest) fun count => ?_
  have htune : Opens (τ := τ) P (tune settings count) := by
    refine .step (stored_sends hclock _) fun _ => .step (acknowledged_sends hcollect) fun _ =>
      .step (acknowledged_sends hfix) fun _ => .step (stored_sends hsensor _) fun _ => ?_
    intro bus after answer h
    obtain ⟨rfl, rfl⟩ := Prod.mk.inj h
    refine ⟨bus, .refl, ?_⟩
    have hprobes : (probeAll 0 (settings.chipLimit.elim count.toNat fun limit =>
        Nat.min limit count.toNat)).run bus = (_, _) := rfl
    simp only
    rw [(probeAll_classified hprobes).1]
    exact hprobes
  split
  · exact .throw _
  · split
    · exact .throw _
    · exact htune

theorem probeAll_calls {first count : Nat} {chips : List Chip}
    (h : (probeAll first count).run bus = (chips, after))
    (hread : ∀ chip ∈ chips, P (readFrame chip.id)) : Calls P bus after := by
  induction count generalizing first bus chips with
  | zero =>
    obtain ⟨rfl, rfl⟩ := Prod.mk.inj h
    exact .refl
  | succ count ih =>
    obtain ⟨chip, middle, rest, hprobe, hprobes, rfl⟩ := probeAll_succ h
    obtain ⟨answer, hfetch, rfl⟩ := probe_eq hprobe
    have hself := hread _ (List.mem_cons_self ..)
    rw [classify_id] at hself
    exact ((fetchRegister_sends hself).calls hfetch).trans
      (ih hprobes fun chip hmem => hread chip (List.mem_cons_of_mem _ hmem))

/-- The ids of the chips that a detection found, none if it failed. -/
def drivenBy : Except DetectionError DetectedChain → List UInt8
  | .ok found => found.chips.map Chip.id
  | .error _ => []

theorem detect_calls (g : Generation) {settings : DetectionSettings}
    {answer : Except DetectionError DetectedChain}
    (h : detect settings bus = (answer, after)) :
    Calls (WellFormed g (drivenBy answer)) bus after := by
  obtain ⟨last, hcalls, hend⟩ :=
    run_opens (opening_wellFormed g (drivenBy answer) settings) bus after answer h
  cases answer with
  | error cause =>
    rw [hend]
    exact hcalls
  | ok found =>
    refine hcalls.trans (probeAll_calls hend fun chip hmem => ?_)
    exact .readFrame (.inr (List.mem_map_of_mem hmem))

end Detection

variable {τ : Type} [Channel τ]

/-! ### Scans -/

namespace Cycle

variable {options : DrivingOptions} {now : Nat} {round : Round}

theorem toNat_slotAt_range (place : Fin 4) :
    1 ≤ (JobSlots.slotAt place).toNat ∧ (JobSlots.slotAt place).toNat ≤ 4 := by
  revert place
  decide

theorem ChipStep.calls {chip chip' : Chip} {cy cy' : Cycle τ} {driven : List UInt8}
    (h : ChipStep options now round chip cy chip' cy') (hg : cy.bus.generation ∈ Generation.all)
    (hchip : chip.id ∈ driven) : Calls (WellFormed cy.bus.generation driven) cy.bus cy'.bus := by
  have hread {bus : Bus τ} {answer : Except ExchangeError Register}
      (h : (fetchRegister chip.id).runOn cy.bus = (answer, bus)) :
      Calls (WellFormed cy.bus.generation driven) cy.bus bus :=
    (fetchRegister_sends (.readFrame (.inr hchip))).calls h
  have hsend {work : Work} {bus : Bus τ} {answer : Except ExchangeError Unit}
      (h : (sendJob ((nextJob options work chip).frame cy.bus.generation.jobCrc)).runOn cy.bus =
        (answer, bus)) : Calls (WellFormed cy.bus.generation driven) cy.bus bus := by
    obtain ⟨hcode, hslot⟩ := firstByte_slotAt chip.slots.cursor
    have hrange : 1 ≤ (Job.firstByte (JobSlots.slotAt chip.slots.cursor) >>> 4).toNat ∧
        (Job.firstByte (JobSlots.slotAt chip.slots.cursor) >>> 4).toNat ≤ 4 := by
      rw [hslot]
      exact toNat_slotAt_range chip.slots.cursor
    have hjob : WellFormed cy.bus.generation driven (jobBytes cy.bus.generation
        ((nextJob options work chip).frame cy.bus.generation.jobCrc)) :=
      .jobBytes (j := nextJob options work chip) hg hcode hrange hchip
    refine sendJob_calls hjob ?_ h
    rw [chipOf_frame]
    exact .readFrame (.inr hchip)
  cases h with
  | measured _ hfetch => exact hread hfetch
  | probed _ hfetch => exact hread hfetch
  | missed _ hfetch =>
    rw [fail_bus]
    exact hread hfetch
  | sent _ _ _ _ hjob =>
    show Calls _ _ (retire _ _).bus
    rw [retire_bus]
    exact hsend hjob
  | unsent _ _ _ _ hjob =>
    rw [fail_bus]
    exact hsend hjob
  | recovered _ hfetch => exact hread hfetch
  | missedAgain _ hfetch =>
    rw [fail_bus]
    exact hread hfetch

theorem Step.calls {p q : Moment τ} (h : Step options now round p q)
    (hg : p.2.bus.generation ∈ Generation.all) :
    Calls (WellFormed p.2.bus.generation (p.1.map Chip.id)) p.2.bus q.2.bus := by
  cases h with
  | chip hchip => exact hchip.calls hg (List.mem_map_of_mem List.mem_append_cons_self)
  | listened hread _ _ => exact (fetchResult_sends .resultRequest).calls hread
  | spoilt hread => exact (fetchResult_sends .resultRequest).calls hread
  | dropped hread _ => exact (fetchResult_sends .resultRequest).calls hread
  | credited hread _ _ _ =>
    rw [(credit_keeps _ _ _).2.1]
    exact (fetchResult_sends .resultRequest).calls hread

end Cycle

namespace Chain

theorem scan_calls (c : Chain τ) (sink : Sink) (overview : Thermal.Overview) (now : Nat)
    (hg : c.bus.generation ∈ Generation.all) :
    (c.scan sink overview now).chain.chips.map Chip.id = c.chips.map Chip.id ∧
      Calls (WellFormed c.bus.generation (c.chips.map Chip.id)) c.bus
        (c.scan sink overview now).chain.bus := by
  refine c.scan_induction sink overview now (fun p => p.1.map Chip.id = c.chips.map Chip.id ∧
    Calls (WellFormed c.bus.generation (c.chips.map Chip.id)) c.bus p.2.bus) ?_ ?_ ⟨rfl, .refl⟩
  · rintro round p q hstep ⟨hids, hcalls⟩
    have hmore := hstep.calls (by rw [hcalls.generation]; exact hg)
    rw [hids, hcalls.generation] at hmore
    exact ⟨hstep.ids_eq.trans hids, hcalls.trans hmore⟩
  · exact fun _ _ _ h => h

/-! ### Reclaims -/

theorem reclaimChips_calls {driven : List UInt8} (g : Generation) (reset : Bool) (chips : List Chip)
    (bus : Bus τ) (sink : Sink) (n : Nat)
    (hchips : ∀ chip ∈ chips, chip.id ≠ broadcast ∧ chip.id ∈ driven) :
    Calls (WellFormed g driven) bus (reclaimChips reset chips bus sink n).2.1 := by
  induction chips generalizing bus sink n with
  | nil => exact .refl
  | cons chip rest ih =>
    obtain ⟨hid, hdriven⟩ := hchips chip (List.mem_cons_self ..)
    refine .trans ?_ (ih _ _ _ fun other hmem => hchips other (List.mem_cons_of_mem _ hmem))
    by_cases hreset : (reset && chip.condition.isActive) = true
    · rw [if_pos hreset]
      refine emptyJobQueue_sends (.queueResetFrame (.inr hdriven)) ?_ bus
      rw [if_neg hid]
      exact .readFrame (.inr hdriven)
    · rw [if_neg hreset]

theorem reclaim_calls (c : Chain τ) (g : Generation) (sink : Sink)
    (hids : broadcast ∉ c.chips.map Chip.id) :
    Calls (WellFormed g (c.chips.map Chip.id)) c.bus (c.reclaim sink).2.1.bus := by
  refine reclaimChips_calls g c.options.resetQueuesOnReclaim c.chips c.bus sink 0 fun chip hmem => ?_
  have hid : chip.id ∈ c.chips.map Chip.id := List.mem_map_of_mem hmem
  exact ⟨ne_of_mem_of_not_mem hid hids, hid⟩

end Chain

/-! ### Any use -/

/-- A chain detected on a bus and then used, while `R` says how its channel may change between two
requests. -/
inductive InUse (R : τ → τ → Prop) (settings : DetectionSettings) (begun : Bus τ) :
    Service τ → Prop
  | detected {bus : Bus τ} {found : DetectedChain}
    (hfound : Detection.detect settings begun = (.ok found, bus))
    (id : UInt8) (options : DrivingOptions) (schedule : Thermal.Schedule)
    (power : Option PowerLine) (publishes : Bool)
    (judge : List SinkEvent → Work → UInt8 → UInt32 → Bool) :
    InUse R settings begun (Service.start
      { Chain.ofDetection id bus found options schedule with power, publishes } judge)
  | after {s : Service τ} (h : InUse R settings begun s) (request : Request) :
    InUse R settings begun (s.after request)
  | stirred {s : Service τ} (h : InUse R settings begun s) {channel : τ}
    (hchannel : R s.chain.bus.channel channel) :
    InUse R settings begun { s with
      chain := { s.chain with bus := { s.chain.bus with channel } } }

/-- A bus on which a detection failed, or on which a chain is in use, with the ids of the chips
driven. -/
inductive OnWire (R : τ → τ → Prop) (settings : DetectionSettings) (begun : Bus τ) :
    List UInt8 → Bus τ → Prop
  | undetected {cause : DetectionError} {bus : Bus τ}
    (h : Detection.detect settings begun = (.error cause, bus)) : OnWire R settings begun [] bus
  | inUse {s : Service τ} (h : InUse R settings begun s) :
    OnWire R settings begun (s.chain.chips.map Chip.id) s.chain.bus

variable {R : τ → τ → Prop} {settings : DetectionSettings} {begun bus : Bus τ}

theorem InUse.run {s : Service τ} (h : InUse R settings begun s) (requests : List Request) :
    InUse R settings begun (s.run requests) := by
  induction requests generalizing s with
  | nil => exact h
  | cons request rest ih => exact ih (h.after request)

theorem inUse_of_ofBus? {quietUntil : Nat} {s : Service τ}
    (h : Service.ofBus? begun quietUntil = some s) : InUse R ⟨600, none⟩ begun s := by
  unfold Service.ofBus? at h
  cases hd : Detection.detect ⟨600, none⟩ begun with
  | mk answer bus =>
    rw [hd] at h
    cases answer with
    | ok found =>
      obtain rfl := Option.some.inj h
      exact .detected hd 0 .standard _ none false _
    | error cause => cases h

theorem Service.after_calls (s : Service τ) (hg : s.chain.bus.generation ∈ Generation.all)
    (hids : broadcast ∉ s.chain.chips.map Chip.id) (request : Request) :
    (s.after request).chain.chips.map Chip.id = s.chain.chips.map Chip.id ∧
      Calls (WellFormed s.chain.bus.generation (s.chain.chips.map Chip.id)) s.chain.bus
        (s.after request).chain.bus := by
  cases request with
  | offer work =>
    rcases s.after_offer work with ⟨_, heq⟩ | ⟨_, heq⟩
    · rw [heq]
      exact ⟨rfl, .refl⟩
    · rw [heq]
      exact ⟨rfl, .refl⟩
  | scan overview now => exact s.chain.scan_calls s.sink overview now hg
  | reclaim =>
    refine ⟨?_, s.chain.reclaim_calls _ s.sink hids⟩
    obtain ⟨bus, _, heq⟩ := s.after_reclaim
    rw [heq]
    exact ids_withoutJobs _

/-- What calls with well-formed frames keep, and changes of the channel between requests too, holds
wherever a chain is in use. -/
theorem InUse.induction {J : List UInt8 → Bus τ → Prop} {s : Service τ}
    (h : InUse R settings begun s) (hg : begun.generation ∈ Generation.all)
    (hcalls : ∀ driven bus bus', Calls (WellFormed begun.generation driven) bus bus' →
      J driven bus → J driven bus')
    (hstirred : ∀ driven (bus : Bus τ) channel, R bus.channel channel → J driven bus →
      J driven { bus with channel })
    (hbegun : ∀ driven, J driven begun) :
    s.chain.bus.generation = begun.generation ∧ broadcast ∉ s.chain.chips.map Chip.id ∧
      J (s.chain.chips.map Chip.id) s.chain.bus := by
  induction h with
  | detected hfound id options schedule power publishes judge =>
    have hopening := Detection.detect_calls begun.generation hfound
    obtain ⟨hnumbered, _, _⟩ := Detection.detect_numbered hfound
    refine ⟨hopening.generation, ?_, hcalls _ _ _ hopening (hbegun _)⟩
    intro hmem
    obtain ⟨chip, hchip, hzero⟩ := List.mem_map.1 hmem
    exact hnumbered.id_ne_broadcast hchip hzero
  | @after s _ request ih =>
    obtain ⟨hgeneration, hids, hJ⟩ := ih
    obtain ⟨hsame, hmore⟩ := s.after_calls (by rw [hgeneration]; exact hg) hids request
    have hkept := hmore.generation
    rw [hgeneration] at hmore hkept
    rw [hsame]
    exact ⟨hkept, hids, hcalls _ _ _ hmore hJ⟩
  | stirred _ hchannel ih =>
    obtain ⟨hgeneration, hids, hJ⟩ := ih
    exact ⟨hgeneration, hids, hstirred _ _ _ hchannel hJ⟩

theorem OnWire.induction {J : List UInt8 → Bus τ → Prop} {driven : List UInt8}
    (h : OnWire R settings begun driven bus) (hg : begun.generation ∈ Generation.all)
    (hcalls : ∀ driven bus bus', Calls (WellFormed begun.generation driven) bus bus' →
      J driven bus → J driven bus')
    (hstirred : ∀ driven (bus : Bus τ) channel, R bus.channel channel → J driven bus →
      J driven { bus with channel })
    (hbegun : ∀ driven, J driven begun) : J driven bus := by
  cases h with
  | undetected h => exact hcalls _ _ _ (Detection.detect_calls begun.generation h) (hbegun _)
  | inUse h => exact (h.induction hg hcalls hstirred hbegun).2.2

end HashBoard
