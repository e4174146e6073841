import HashBoard.Proofs.Chain.InUse
import HashBoard.Proofs.Sim.Exchanges
import HashBoard.Sim.Event

/-!
# Clean frames on the wire

Every frame that is written while a chain is detected and used is well formed, whatever the channel
answers. Simulated chips of the same generation count a damaged frame only when it is not, so they
count none, whatever else happens to them in the meantime.
-/

namespace HashBoard

open Bus Wire

namespace SimulatedChain

variable {s s' s'' : SimulatedChain}

/-- No damaged frame was counted from one state to the other. -/
structure Clean (s s' : SimulatedChain) : Prop where
  generation : s'.generation = s.generation
  crcErrors : s'.crcErrors = s.crcErrors

theorem Clean.refl (s : SimulatedChain) : Clean s s := ⟨rfl, rfl⟩

theorem Clean.trans (h1 : Clean s s') (h2 : Clean s' s'') : Clean s s'' :=
  ⟨h2.generation.trans h1.generation, h2.crcErrors.trans h1.crcErrors⟩

theorem modifyAddressed_clean (s : SimulatedChain) (address : UInt8)
    (f : SimulatedChip → SimulatedChip) : Clean s (s.modifyAddressed address f) := by
  unfold modifyAddressed
  split
  · exact ⟨rfl, rfl⟩
  · exact ⟨rfl, rfl⟩

/-! ### Frames -/

theorem replyWith_clean (bytes : Bytes) : Clean s (s.replyWith bytes) := ⟨rfl, rfl⟩

theorem takeReset_clean (s : SimulatedChain) (first address : UInt8) (frame : Bytes) :
    Clean s (s.takeReset first address frame) := by
  have hidle (s : SimulatedChain) :
      Clean s (s.modifyAddressed address fun c => { c with busy := false }) :=
    modifyAddressed_clean s address _
  have harmed : Clean s { s with armed := s.armed || address == broadcast } := ⟨rfl, rfl⟩
  refine .trans ?_ (replyWith_clean _)
  split
  · split
    · exact .refl s
    · exact hidle s
  · exact harmed.trans (hidle _)

theorem takeRegisterWrite_clean (opcode : Opcode) {frame : Bytes} (hlength : frame.length = 16)
    (hsealed : isSealed (frame.take 14) = true) : Clean s (s.takeRegisterWrite opcode frame) := by
  rw [takeRegisterWrite_of_sealed opcode (by rw [hlength]; decide) hsealed]
  exact ⟨rfl, rfl⟩

theorem answerRegisterRead_clean (s : SimulatedChain) (address : UInt8) :
    Clean s (s.answerRegisterRead address) := by
  unfold answerRegisterRead
  cases s.chip? address with
  | none => exact .refl s
  | some chip =>
    simp only
    split
    · exact modifyAddressed_clean s address _
    · exact ⟨rfl, rfl⟩

theorem takeJob_clean {first address : UInt8} {frame : Bytes}
    (hform : if s.generation.jobCrc then
        frame.length = 102 ∧ isSealed (frame.take 92) = true ∧ frame.drop 92 = List.replicate 10 0
      else frame.length = 90) : Clean s (s.takeJob first address frame) := by
  have hgood : (frame.length < bareJobLength + (if s.generation.jobCrc then jobChecksumLength else 0)
      || (s.generation.jobCrc && !isSealed (frame.take
        (bareJobLength + if s.generation.jobCrc then jobChecksumLength else 0)))) = false := by
    cases hcrc : s.generation.jobCrc with
    | true =>
      rw [hcrc] at hform
      obtain ⟨hlength, hsealed, _⟩ := hform
      have hninety : isSealed (frame.take (bareJobLength + jobChecksumLength)) = true := hsealed
      simp only [if_true, hlength, hninety]
      rfl
    | false =>
      rw [hcrc] at hform
      have hlength : frame.length = 90 := hform
      rw [hlength]
      rfl
  unfold takeJob
  simp only [hgood]
  by_cases hlost : s.dropJobs = true
  · simp only [hlost, if_true]
    exact .refl s
  · simp only [hlost]
    cases s.chip? address with
    | none => exact .refl s
    | some chip => exact modifyAddressed_clean s address _

theorem answerResultRead_clean (s : SimulatedChain) : Clean s s.answerResultRead := by
  unfold answerResultRead
  split
  · exact .refl s
  · exact ⟨rfl, rfl⟩

theorem code_of_ofFirstByte? {first : UInt8} {opcode : Opcode}
    (h : Opcode.ofFirstByte? first = some opcode) (hne : opcode ≠ .readRegResp) :
    first &&& 0x0f = opcode.code := by
  unfold Opcode.ofFirstByte? at h
  split at h
  · exact absurd (Option.some.inj h).symm hne
  · have hcode := List.find?_some h
    exact (beq_iff_eq.1 hcode).symm

/-- Simulated chips find no fault with a frame that is well formed for their generation. -/
theorem obey_clean {driven : List UInt8} {frame : Bytes}
    (h : WellFormed s.generation driven frame) : Clean s (s.obey frame) := by
  obtain ⟨first, address, rest, rfl, _⟩ := h.heading
  have hcleared : Clean s { s with reply := [] } := ⟨rfl, rfl⟩
  refine hcleared.trans ?_
  unfold obey
  simp only
  cases hopcode : Opcode.ofFirstByte? first with
  | none => exact .refl _
  | some opcode =>
    cases opcode with
    | reset => exact takeReset_clean ..
    | startSelfTest => exact ⟨rfl, rfl⟩
    | collectSelfTest => exact replyWith_clean _
    | fixSelfTest => exact replyWith_clean _
    | writeReg =>
      obtain ⟨hlength, hsealed⟩ := h.registerWrite (.inl (code_of_ofFirstByte? hopcode nofun))
      exact takeRegisterWrite_clean .writeReg hlength hsealed
    | writeSecReg =>
      obtain ⟨hlength, hsealed⟩ := h.registerWrite (.inr (code_of_ofFirstByte? hopcode nofun))
      exact takeRegisterWrite_clean .writeSecReg hlength hsealed
    | readReg => exact answerRegisterRead_clean ..
    | sendJob =>
      obtain ⟨_, hform⟩ := h.job (code_of_ofFirstByte? hopcode nofun)
      exact takeJob_clean (s := { s with reply := [] }) hform
    | fetchResult => exact answerResultRead_clean _
    | readRegResp => exact .refl _

/-! ### Calls and events -/

theorem write_clean {driven : List UInt8} {frame : Bytes}
    (h : WellFormed s.generation driven frame) : Clean s (Channel.write frame s).2 := by
  show Clean s (write frame s).2
  unfold write
  split
  · exact ⟨rfl, rfl⟩
  · have hnoted : Clean s { s with writes := frame :: s.writes } := ⟨rfl, rfl⟩
    exact hnoted.trans (obey_clean (s := { s with writes := frame :: s.writes }) h)

theorem after?_clean {event : SimulatedEvent} (h : s.after? event = some s') : Clean s s' := by
  have hmodify {address : UInt8} {f : SimulatedChip → SimulatedChip}
      (h : s.modifyChip? address f = some s') : Clean s s' := by
    unfold modifyChip? at h
    split at h
    · cases h
    · obtain rfl := Option.some.inj h
      exact ⟨rfl, rfl⟩
  have hsome {other : SimulatedChain} (h : some other = some s') (hother : Clean s other) :
      Clean s s' := by
    rw [← Option.some.inj h]
    exact hother
  cases event with
  | failReads chip count => exact hmodify h
  | setBusy chip busy => exact hmodify h
  | setTemperature chip code => exact hmodify h
  | failWrites count => exact hsome h ⟨rfl, rfl⟩
  | completeJobs => exact hsome h ⟨rfl, rfl⟩
  | dropJobs on => exact hsome h ⟨rfl, rfl⟩
  | ignoreQueueResets on => exact hsome h ⟨rfl, rfl⟩
  | queueResult result => exact hsome h ⟨rfl, rfl⟩
  | queueCorruptResult result => exact hsome h ⟨rfl, rfl⟩
  | clearWrites => exact hsome h ⟨rfl, rfl⟩

theorem calls_clean {driven : List UInt8} {bus after : Bus SimulatedChain}
    (h : Calls (WellFormed bus.channel.generation driven) bus after) :
    Clean bus.channel after.channel := by
  refine h.channel (I := fun s => Clean bus.channel s) ?_ ?_ ?_ (.refl _)
  · intro frame s hframe hs
    rw [← hs.generation] at hframe
    exact hs.trans (write_clean hframe)
  · exact fun n s hs => hs.trans ⟨rfl, rfl⟩
  · exact fun s hs => hs

/-- What can happen to simulated chips between two requests. -/
def Stirred (s s' : SimulatedChain) : Prop := ∃ event, s.after? event = some s'

end SimulatedChain

open SimulatedChain

/-- Whatever a channel answers and however it changes between two requests, every frame written in
detecting and using a chain is well formed; simulated chips of the same generation count no damaged
frame in any such run. -/
theorem onWire_wellFormed {g : Generation} (hg : g ∈ Generation.all) (limits : PollLimits)
    (settings : DetectionSettings) :
    (∀ {τ : Type} [Channel τ] (R : τ → τ → Prop) (channel : τ) (driven : List UInt8) (bus : Bus τ),
      OnWire R settings (Bus.start channel g limits) driven bus →
        ∀ frame ∈ bus.frames, WellFormed g driven frame) ∧
    ∀ (sim : SimulatedChain) (driven : List UInt8) (bus : Bus SimulatedChain), sim.generation = g →
      OnWire Stirred settings (Bus.start sim g limits) driven bus →
        bus.channel.crcErrors = sim.crcErrors := by
  refine ⟨?_, ?_⟩
  · intro τ _ R channel driven bus h
    refine h.induction (J := fun driven bus => ∀ frame ∈ bus.frames, WellFormed g driven frame) hg
      ?_ ?_ ?_
    · exact fun driven bus bus' hcalls => hcalls.frames
    · exact fun driven bus channel _ hframes => hframes
    · exact fun driven => List.forall_mem_nil _
  · intro sim driven bus hsim h
    have hclean : Clean sim bus.channel := by
      refine h.induction (J := fun _ bus => Clean sim bus.channel) hg ?_ ?_ ?_
      · intro driven bus bus' hcalls hbus
        have hgeneration : bus.channel.generation = g := hbus.generation.trans hsim
        have hcalls' : Calls (WellFormed bus.channel.generation driven) bus bus' := by
          rw [hgeneration]
          exact hcalls
        exact hbus.trans (calls_clean hcalls')
      · rintro driven bus channel ⟨event, hevent⟩ hbus
        exact hbus.trans (after?_clean hevent)
      · exact fun _ => .refl sim
    exact hclean.crcErrors

/-- One chip is sent a job with a checksum, and is then asked to give it back. -/
theorem onWire_wellFormed_of_sealedJob : ∃ s : Service SimulatedChain,
    InUse Stirred ⟨600, none⟩ (Bus.start (.ofCores .a6 [40]) .a6 ⟨6, 1000⟩) s ∧
      (∃ frame ∈ s.chain.bus.frames, isJobFrame frame = true ∧ WellFormed .a6 [1] frame) ∧
      s.chain.bus.channel.crcErrors = 0 := by
  let fresh : Bus SimulatedChain := Bus.start (.ofCores .a6 [40]) .a6 ⟨6, 1000⟩
  let requests : List Request := [.offer (KnownAnswer.work 1), .scan .empty 0, .reclaim]
  have hany : ((Service.ofBus? fresh 60000).any fun s =>
      decide ((s.run requests).chain.chips.map Chip.id = [1]) &&
        (s.run requests).chain.bus.frames.any isJobFrame) = true := by
    decide +kernel
  obtain ⟨s, hs, hcheck⟩ := (Option.any_eq_true _ _).1 hany
  obtain ⟨hids, hjob⟩ := Bool.and_eq_true_iff.1 hcheck
  obtain ⟨frame, hmem, hframe⟩ := List.any_eq_true.1 hjob
  have huse : InUse Stirred ⟨600, none⟩ fresh (s.run requests) := (inUse_of_ofBus? hs).run requests
  have hwire := OnWire.inUse huse
  rw [of_decide_eq_true hids] at hwire
  have hknown : Generation.a6 ∈ Generation.all := List.mem_cons_self ..
  obtain ⟨hframes, hcount⟩ := onWire_wellFormed hknown ⟨6, 1000⟩ ⟨600, none⟩
  exact ⟨_, huse, ⟨frame, hmem, hframe, hframes Stirred _ _ _ hwire frame hmem⟩,
    hcount _ _ _ rfl hwire⟩

end HashBoard
