import HashBoard.Proofs.Chain.InUse

/-!
# The order of a detection

A detection makes six broadcasts in turn and then asks the positions one by one. Each of these
exchanges writes one frame. A broadcast that fails is the last of them and its error is the answer;
a position that does not answer is given up, and the next one is asked all the same.
-/

namespace HashBoard

open Bus Wire

/-! ### Exchanges in turn -/

namespace Bus

variable {τ α β : Type}

/-- Exchanges made one after the other, whatever they answer, and their answers. -/
inductive InTurn : List (Exchange τ α) → Bus τ → List (Except ExchangeError α) → Bus τ → Prop
  | done (bus : Bus τ) : InTurn [] bus [] bus
  | next {x : Exchange τ α} {later : List (Exchange τ α)} {bus middle last : Bus τ}
    {answer : Except ExchangeError α} {answers : List (Except ExchangeError α)}
    (hfirst : x.runOn bus = (answer, middle)) (hlater : InTurn later middle answers last) :
    InTurn (x :: later) bus (answer :: answers) last

/-- However it ends, the exchange writes this frame and no other. -/
structure Writes (frame : Bytes) (x : Exchange τ α) : Prop where
  generation : ∀ bus, (x.runOn bus).2.generation = bus.generation
  frames : ∀ bus, (x.runOn bus).2.frames = frame :: bus.frames

namespace Writes

variable {frame : Bytes} {x : Exchange τ α}

theorem of_exchanged (h : ∀ {bus answer after}, x.runOn bus = (answer, after) →
    ∃ t : Transmission, t.frame = frame ∧ Exchanged [t] bus after) : Writes frame x where
  generation bus := by
    obtain ⟨_, _, hex⟩ := h (rfl : x.runOn bus = (_, _))
    exact hex.generation
  frames bus := by
    obtain ⟨t, rfl, hex⟩ := h (rfl : x.runOn bus = (_, _))
    have hsent : transmissions (x.runOn bus).2.calls = t :: transmissions bus.calls :=
      hex.transmissions
    rw [Bus.frames, filterMap_frame?, hsent, Bus.frames, filterMap_frame?, List.map_cons]

theorem map (h : Writes frame x) (f : α → β) : Writes frame (f <$> x) where
  generation bus := by
    rw [runOn_map]
    exact h.generation bus
  frames bus := by
    rw [runOn_map]
    exact h.frames bus

end Writes

theorem InTurn.written {frames : List Bytes} {exchanges : List (Exchange τ α)} {bus last : Bus τ}
    {answers : List (Except ExchangeError α)} (h : InTurn exchanges bus answers last)
    (hwrites : List.Forall₂ Writes frames exchanges) :
    last.generation = bus.generation ∧ last.frames = frames.reverse ++ bus.frames := by
  induction h generalizing frames with
  | done bus =>
    cases hwrites
    exact ⟨rfl, rfl⟩
  | @next x later bus middle last answer answers hfirst _ ih =>
    cases hwrites with
    | @cons frame _ frames _ hone hrest =>
      obtain ⟨hgeneration, hframes⟩ := ih hrest
      have hmiddle : middle = (x.runOn bus).2 := by rw [hfirst]
      rw [hgeneration, hframes, hmiddle, hone.generation, hone.frames]
      simp

end Bus

namespace Detection

variable {τ α β : Type}

/-! ### Exchanges until one fails -/

/-- The last of the steps failed, the first one that did, and its error is the answer. -/
def BrokenOff (steps : List (Except ExchangeError (Option UInt8)))
    (answer : Except DetectionError β) : Prop :=
  ∃ before cause, steps = before ++ [.error cause] ∧ (∀ step ∈ before, ∃ got, step = .ok got) ∧
    answer = .error (.protocol cause)

/-- The program makes the exchanges in turn until one fails. If none of those it makes does, `R` holds
of their answers, the bus after them, the answer of the program and the bus at its end. -/
def Conducts (exchanges : List (Exchange τ (Option UInt8))) (program : Step τ β)
    (R : List (Except ExchangeError (Option UInt8)) → Bus τ → Except DetectionError β → Bus τ → Prop) :
    Prop :=
  ∀ bus answer after, program.run.run bus = (answer, after) → ∃ steps last,
    InTurn (exchanges.take steps.length) bus steps last ∧
      ((BrokenOff steps answer ∧ after = last) ∨ R steps last answer after)

namespace Conducts

variable {exchanges : List (Exchange τ (Option UInt8))}
  {R : List (Except ExchangeError (Option UInt8)) → Bus τ → Except DetectionError β → Bus τ → Prop}

theorem ended {program : Step τ β} (h : ∀ bus answer after, program.run.run bus = (answer, after) →
    R [] bus answer after) : Conducts exchanges program R :=
  fun bus answer after hrun => ⟨[], bus, .done bus, .inr (h bus answer after hrun)⟩

theorem step {x : Exchange τ α} {f : α → Step τ β} {report : α → Option UInt8}
    (hf : ∀ a, Conducts exchanges (f a) fun steps => R (.ok (report a) :: steps)) :
    Conducts ((report <$> x) :: exchanges) (step x >>= f) R := by
  intro bus answer after h
  rcases step_cases h with ⟨a, middle, hx, hrest⟩ | ⟨cause, hx, rfl⟩
  · obtain ⟨steps, last, hturn, hend⟩ := hf a middle answer after hrest
    have hfirst : (report <$> x : Exchange τ (Option UInt8)).runOn bus =
        (.ok (report a), middle) := by
      rw [runOn_map, hx]
      rfl
    refine ⟨.ok (report a) :: steps, last, .next hfirst hturn, ?_⟩
    rcases hend with ⟨⟨before, cause, rfl, hbefore, hanswer⟩, hafter⟩ | hend
    · exact .inl ⟨⟨.ok (report a) :: before, cause, rfl,
        List.forall_mem_cons.2 ⟨⟨_, rfl⟩, hbefore⟩, hanswer⟩, hafter⟩
    · exact .inr hend
  · have hfirst : (report <$> x : Exchange τ (Option UInt8)).runOn bus = (.error cause, after) := by
      rw [runOn_map, hx]
      rfl
    exact ⟨[.error cause], after, .next hfirst (.done after),
      .inl ⟨⟨[], cause, rfl, List.forall_mem_nil _, rfl⟩, rfl⟩⟩

end Conducts

/-! ### Broadcasts -/

variable [Channel τ] {bus after : Bus τ}

/-- The broadcasts of a detection. Only the self-test reports something, the number of chips. -/
def broadcasts (settings : DetectionSettings) : List (Exchange τ (Option UInt8)) :=
  let silent (x : Exchange τ Unit) : Exchange τ (Option UInt8) := (fun _ => none) <$> x
  [silent (reset broadcast), some <$> startSelfTest broadcast,
   silent (storeRegister broadcast (clockRegister settings.targetMhz)),
   silent (collectSelfTest broadcast), silent (fixSelfTest broadcast),
   silent (storeSecondary broadcast (Register.sensorDivider (selectClock settings.targetMhz)))]

/-- What the broadcasts answer when all of them go well. -/
def passed (count : UInt8) : List (Except ExchangeError (Option UInt8)) :=
  [.ok none, .ok (some count), .ok none, .ok none, .ok none, .ok none]

/-- The number of chips that the self-test reported, 0 if it did not. -/
def reported (steps : List (Except ExchangeError (Option UInt8))) : UInt8 :=
  match steps[1]? with
  | some (Except.ok (some count)) => count
  | _ => 0

/-- The positions asked when the self-test reports `count` chips. -/
def driven (settings : DetectionSettings) (count : UInt8) : Nat :=
  settings.chipLimit.elim count.toNat fun limit => Nat.min limit count.toNat

theorem opening_writes (settings : DetectionSettings) :
    List.Forall₂ Writes (opening settings) (broadcasts (τ := τ) settings) := by
  have hacknowledged (opcode : Opcode) : Writes (τ := τ) [opcode.code, broadcast, 0, 0]
      (acknowledged opcode broadcast) := .of_exchanged acknowledged_exchanged
  have htest : Writes (τ := τ) [Opcode.startSelfTest.code, broadcast, 0, 0]
      (startSelfTest broadcast) := .of_exchanged startSelfTest_exchanged
  have hstored (opcode : Opcode) (extra : Nat) (register : Register) : Writes (τ := τ)
      (register.storeFrame opcode broadcast) (stored opcode extra broadcast register) :=
    .of_exchanged stored_exchanged
  exact .cons ((hacknowledged .reset).map _) <| .cons (htest.map _) <| .cons ((hstored .writeReg _ _).map _) <|
    .cons ((hacknowledged .collectSelfTest).map _) <| .cons ((hacknowledged .fixSelfTest).map _) <|
    .cons ((hstored .writeSecReg _ _).map _) .nil

/-! ### Positions -/

/-- The addresses of `count` positions in a row, of which `before` come ahead. -/
def positions (before count : Nat) : List UInt8 :=
  (List.range' (before + 1) count).map UInt8.ofNat

theorem probes_write (before count : Nat) : List.Forall₂ (Writes (τ := τ))
    ((positions before count).map readFrame) ((positions before count).map fetchRegister) := by
  rw [List.forall₂_map_left_iff, List.forall₂_map_right_iff, List.forall₂_same]
  intro id _
  refine .of_exchanged fun h => ?_
  obtain ⟨t, ht, _, hex⟩ := fetchRegister_exchanged h
  exact ⟨t, ht, hex⟩

/-- The positions are asked in turn, and each is judged by its own answer. -/
theorem probeAll_inTurn {before count : Nat} {chips : List Chip}
    (h : (probeAll before count).run bus = (chips, after)) : ∃ reads, reads.length = count ∧
      InTurn ((positions before count).map fetchRegister) bus reads after ∧
      chips = List.zipWith (classify bus.generation) (positions before count) reads := by
  induction count generalizing before bus chips with
  | zero =>
    obtain ⟨rfl, rfl⟩ := Prod.mk.inj h
    exact ⟨[], rfl, .done bus, rfl⟩
  | succ count ih =>
    obtain ⟨chip, middle, rest, hprobe, hprobes, rfl⟩ := probeAll_succ h
    obtain ⟨answer, hread, rfl⟩ := probe_eq hprobe
    obtain ⟨reads, hlength, hturn, hrest⟩ := ih hprobes
    have hpositions : positions before (count + 1) =
        UInt8.ofNat (before + 1) :: positions (before + 1) count := by
      rw [positions, List.range'_succ, List.map_cons]
      rfl
    rw [hpositions]
    refine ⟨answer :: reads, congrArg (· + 1) hlength, .next hread hturn, ?_⟩
    rw [hrest, (fetchRegister_jobless hread).generation]
    rfl

/-- What is left of a position that did not answer, and what is kept of one that did. -/
def Judged (g : Generation) (chip : Chip) : Except ExchangeError Register → Prop
  | .error _ => chip.cores = 0 ∧ chip.register = none ∧ chip.condition.isDisabled = true
  | .ok register => chip.cores = register.coreNumber ∧ chip.register = some register ∧
    (chip.condition.isDisabled = true ↔ register.coreNumber < g.brokenCores)

theorem classify_judged (g : Generation) (id : UInt8) (answer : Except ExchangeError Register) :
    Judged g (classify g id answer) answer := by
  cases answer with
  | error cause => exact ⟨rfl, rfl, rfl⟩
  | ok register =>
    obtain ⟨_, hcores, hcondition⟩ := classify_reading g id register
    refine ⟨hcores, ?_, ?_⟩
    · rw [classify]
      split <;> rfl
    · rw [hcondition, ← UInt8.not_le]
      by_cases hfew : g.brokenCores ≤ register.coreNumber
      · simp [hfew, Condition.isDisabled]
      · simp [hfew, Condition.isDisabled]

theorem judged_of_getElem? {g : Generation} {count place : Nat}
    {reads : List (Except ExchangeError Register)} {read : Except ExchangeError Register}
    {chip : Chip} (hread : reads[place]? = some read)
    (hchip : (List.zipWith (classify g) (positions 0 count) reads)[place]? = some chip) :
    chip.id = UInt8.ofNat (place + 1) ∧ Judged g chip read := by
  rw [List.getElem?_zipWith_eq_some] at hchip
  obtain ⟨id, other, hid, hother, rfl⟩ := hchip
  obtain rfl : other = read := Option.some.inj (hother.symm.trans hread)
  rw [positions, List.getElem?_map] at hid
  obtain ⟨number, hnumber, rfl⟩ := Option.map_eq_some_iff.1 hid
  obtain ⟨_, rfl⟩ := List.getElem?_eq_some_iff.1 hnumber
  refine ⟨?_, classify_judged g _ other⟩
  rw [classify_id, List.getElem_range', Nat.zero_add, Nat.one_mul, Nat.add_comm]

/-! ### The whole detection -/

/-- How a detection ends, by the answers of its broadcasts and those of the positions asked. -/
inductive Ended (settings : DetectionSettings) (g : Generation) :
    List (Except ExchangeError (Option UInt8)) → List (Except ExchangeError Register) →
      Except DetectionError DetectedChain → Prop
  | brokenOff {steps : List (Except ExchangeError (Option UInt8))}
    {answer : Except DetectionError DetectedChain} (h : BrokenOff steps answer) :
    Ended settings g steps [] answer
  | noChips {count : UInt8} (hcount : count.toNat = 0) :
    Ended settings g [.ok none, .ok (some count)] [] (.error .noChips)
  | tooManyChips {count : UInt8} (hcount : longestChain < count.toNat) :
    Ended settings g [.ok none, .ok (some count)] []
      (.error (.tooManyChips count.toNat longestChain))
  | found {count : UInt8} {reads : List (Except ExchangeError Register)} {found : DetectedChain}
    (hsome : 1 ≤ count.toNat) (hfew : count.toNat ≤ longestChain)
    (hlength : reads.length = driven settings count)
    (hchips : found.chips = List.zipWith (classify g) (positions 0 reads.length) reads) :
    Ended settings g (passed count) reads (.ok found)

theorem run_conducts (settings : DetectionSettings) : Conducts (τ := τ) (broadcasts settings)
    (run settings) fun steps last answer after => ∃ reads,
      InTurn ((positions 0 reads.length).map fetchRegister) last reads after ∧
        Ended settings last.generation steps reads answer := by
  rw [run_eq]
  refine .step fun _ => .step fun count => ?_
  by_cases hzero : count.toNat = 0
  · simp only [if_pos hzero]
    refine .ended fun bus answer after h => ?_
    obtain ⟨rfl, rfl⟩ := Prod.mk.inj h
    exact ⟨[], .done bus, .noChips hzero⟩
  · simp only [if_neg hzero]
    by_cases hmany : longestChain < count.toNat
    · simp only [if_pos hmany]
      refine .ended fun bus answer after h => ?_
      obtain ⟨rfl, rfl⟩ := Prod.mk.inj h
      exact ⟨[], .done bus, .tooManyChips hmany⟩
    · simp only [if_neg hmany]
      refine .step fun _ => .step fun _ => .step fun _ => .step fun _ => .ended
        fun bus answer after h => ?_
      obtain ⟨rfl, rfl⟩ := Prod.mk.inj h
      have hprobes : (probeAll 0 (driven settings count)).run bus = (_, _) := rfl
      obtain ⟨reads, hlength, hturn, hchips⟩ := probeAll_inTurn hprobes
      refine ⟨reads, ?_, .found (Nat.pos_of_ne_zero hzero) (Nat.le_of_not_lt hmany) hlength ?_⟩
      · rw [hlength]
        exact hturn
      · rw [hlength]
        exact hchips

/-- The broadcasts of a detection and its reads, made in turn. -/
theorem detect_inTurn (settings : DetectionSettings) (bus : Bus τ) : ∃ steps last reads,
    InTurn ((broadcasts settings).take steps.length) bus steps last ∧
      InTurn ((positions 0 reads.length).map fetchRegister) last reads (detect settings bus).2 ∧
      Ended settings last.generation steps reads (detect settings bus).1 := by
  obtain ⟨steps, last, hturn, ⟨hbroken, hafter⟩ | ⟨reads, hreads, hend⟩⟩ :=
    run_conducts settings bus (detect settings bus).1 (detect settings bus).2 rfl
  · refine ⟨steps, last, [], hturn, ?_, .brokenOff hbroken⟩
    rw [hafter]
    exact .done last
  · exact ⟨steps, last, reads, hturn, hreads, hend⟩

/-- All frames of a detection by which `count` chips are found. -/
def order (settings : DetectionSettings) (count : UInt8) : List Bytes :=
  opening settings ++ (positions 0 (driven settings count)).map readFrame

def startsSelfTest (frame : Bytes) : Bool :=
  Opcode.ofFirstByte? (frame.headD 0) == some .startSelfTest

theorem startsSelfTest_code (opcode : Opcode) (rest : Bytes) :
    startsSelfTest (opcode.code :: rest) = (opcode == .startSelfTest) := by
  rw [startsSelfTest, List.headD_cons]
  cases opcode <;> decide

theorem startsSelfTest_storeFrame (register : Register) (opcode : Opcode) (address : UInt8) :
    startsSelfTest (register.storeFrame opcode address) = (opcode == .startSelfTest) :=
  startsSelfTest_code opcode _

theorem countP_order (settings : DetectionSettings) (count : UInt8) :
    (order settings count).countP startsSelfTest = 1 := by
  have hreads : ((positions 0 (driven settings count)).map readFrame).countP startsSelfTest = 0 := by
    rw [List.countP_eq_zero]
    intro frame hmem
    obtain ⟨id, _, rfl⟩ := List.mem_map.1 hmem
    simp [readFrame, startsSelfTest_code]
  rw [order, List.countP_append, hreads]
  simp [opening, startsSelfTest_code, startsSelfTest_storeFrame]

namespace Ended

variable {settings : DetectionSettings} {g : Generation}
  {steps : List (Except ExchangeError (Option UInt8))}
  {reads : List (Except ExchangeError Register)} {answer : Except DetectionError DetectedChain}

theorem written_isPrefix (h : Ended settings g steps reads answer) :
    (opening settings).take steps.length ++ (positions 0 reads.length).map readFrame <+:
      order settings (reported steps) := by
  have hopening (count : Nat) :
      (opening settings).take count ++ [] <+: order settings (reported steps) := by
    rw [List.append_nil]
    exact (List.take_prefix count _).trans (List.prefix_append _ _)
  cases h with
  | brokenOff _ => exact hopening _
  | noChips _ => exact hopening 2
  | tooManyChips _ => exact hopening 2
  | found _ _ hlength _ =>
    rw [hlength]
    exact List.prefix_rfl

theorem of_error (h : Ended settings g steps reads answer) {cause : ExchangeError}
    (hmem : .error cause ∈ steps) :
    steps.getLast? = some (.error cause) ∧ reads = [] ∧ answer = .error (.protocol cause) := by
  cases h with
  | brokenOff hbroken =>
    obtain ⟨before, last, rfl, hbefore, rfl⟩ := hbroken
    rcases List.mem_append.1 hmem with hmem | hmem
    · obtain ⟨got, hgot⟩ := hbefore _ hmem
      cases hgot
    · obtain rfl := Except.error.inj (List.mem_singleton.1 hmem)
      exact ⟨List.getLast?_concat, rfl, rfl⟩
  | noChips _ => simp at hmem
  | tooManyChips _ => simp at hmem
  | found _ _ _ _ => simp [passed] at hmem

theorem ok_iff (h : Ended settings g steps reads answer) : (∃ found, answer = .ok found) ↔
    ∃ count, steps = passed count ∧ 1 ≤ count.toNat ∧ count.toNat ≤ longestChain := by
  cases h with
  | brokenOff hbroken =>
    obtain ⟨before, cause, rfl, _, rfl⟩ := hbroken
    constructor
    · rintro ⟨found, hfound⟩
      cases hfound
    · rintro ⟨count, hsteps, _⟩
      have hmem : .error cause ∈ passed count := by
        rw [← hsteps]
        exact List.mem_append_right _ (List.mem_singleton_self _)
      simp [passed] at hmem
  | noChips _ => simp [passed]
  | tooManyChips _ => simp [passed]
  | found hsome hfew _ _ => exact ⟨fun _ => ⟨_, rfl, hsome, hfew⟩, fun _ => ⟨_, rfl⟩⟩

theorem of_ok {found : DetectedChain} (h : Ended settings g steps reads (.ok found)) :
    (opening settings).take steps.length ++ (positions 0 reads.length).map readFrame =
        order settings (reported steps) ∧
      found.chips = List.zipWith (classify g) (positions 0 reads.length) reads := by
  cases h with
  | brokenOff hbroken =>
    obtain ⟨_, _, _, _, hanswer⟩ := hbroken
    cases hanswer
  | found _ _ hlength hchips =>
    refine ⟨?_, hchips⟩
    rw [hlength]
    rfl

end Ended

/-- A detection makes its broadcasts in turn until one of them fails, and that error is its answer.
Otherwise, if the self-test reported a number of chips that a chain can have, it asks every position
that is driven, and it answers with the chips whatever the positions answered. -/
theorem detect_in_order (settings : DetectionSettings) (bus : Bus τ) :
    ∃ steps last reads written,
      InTurn ((broadcasts settings).take steps.length) bus steps last ∧
      InTurn ((positions 0 reads.length).map fetchRegister) last reads (detect settings bus).2 ∧
      Ended settings bus.generation steps reads (detect settings bus).1 ∧
      (detect settings bus).2.frames = written.reverse ++ bus.frames ∧
      written = (opening settings).take steps.length ++
        (positions 0 reads.length).map readFrame ∧
      written <+: order settings (reported steps) ∧
      written.countP startsSelfTest ≤ 1 ∧
      (∀ cause, .error cause ∈ steps → steps.getLast? = some (.error cause) ∧ reads = [] ∧
        (detect settings bus).1 = .error (.protocol cause)) ∧
      ((∃ found, (detect settings bus).1 = .ok found) ↔
        ∃ count, steps = passed count ∧ 1 ≤ count.toNat ∧ count.toNat ≤ longestChain) ∧
      ∀ found, (detect settings bus).1 = .ok found →
        written = order settings (reported steps) ∧
        found.chips.length = reads.length ∧
        ∀ (place : Nat) read chip, reads[place]? = some read → found.chips[place]? = some chip →
          chip.id = UInt8.ofNat (place + 1) ∧ Judged bus.generation chip read := by
  obtain ⟨steps, last, reads, hsteps, hreads, hend⟩ := detect_inTurn settings bus
  obtain ⟨hgeneration, hopening⟩ := hsteps.written (List.forall₂_take _ (opening_writes settings))
  obtain ⟨_, hframes⟩ := hreads.written (probes_write 0 reads.length)
  rw [hgeneration] at hend
  refine ⟨steps, last, reads, _, hsteps, hreads, hend, ?_, rfl, hend.written_isPrefix, ?_,
    fun cause => hend.of_error, hend.ok_iff, fun found hfound => ?_⟩
  · rw [hframes, hopening, List.reverse_append, List.append_assoc]
  · rw [← countP_order settings (reported steps)]
    exact hend.written_isPrefix.sublist.countP_le
  · rw [hfound] at hend
    obtain ⟨hwhole, hchips⟩ := hend.of_ok
    refine ⟨hwhole, ?_, fun place read chip hread hchip => ?_⟩
    · rw [hchips]
      simp [positions]
    · rw [hchips] at hchip
      exact judged_of_getElem? hread hchip

end Detection

end HashBoard
