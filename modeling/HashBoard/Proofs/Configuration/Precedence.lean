import HashBoard.Configuration.Environment

/-!
# Variables before files

What the variables of an environment say comes before what a configuration says. A variable counts
as set when its value is a text; one that is no text is passed over. Two of them reach further than
their own field: a clock for all chains takes the place of those that chains have for themselves,
and a fan speed asks for manual mode unless a mode is asked for.
-/

namespace HashBoard

/-! ### Readings -/

namespace Environment

variable {α : Type} {e : Environment} {name : String} {read : String → Except String α}

/-- What a variable gives: nothing when it is not set, else the value that its text is read as. -/
def Gives (e : Environment) (name : String) (read : String → Except String α) : Option α → Prop
  | none => e.text? name = none
  | some value => ∃ text, e.text? name = some text ∧ read (Text.trim text) = .ok value

theorem value?_eq_ok_iff {value : Option α} :
    e.value? name read = .ok value ↔ e.Gives name read value := by
  unfold value?
  cases htext : e.text? name with
  | none => cases value <;> simp [Gives, htext]
  | some text => cases hread : read (Text.trim text) <;> cases value <;> simp [Gives, htext, hread]

theorem Gives.unique {value other : Option α} (h : e.Gives name read value)
    (hother : e.Gives name read other) : value = other :=
  Except.ok.inj ((value?_eq_ok_iff.2 h).symm.trans (value?_eq_ok_iff.2 hother))

theorem Gives.isSome_iff {value : Option α} (h : e.Gives name read value) :
    (e.text? name).isSome = value.isSome := by
  cases value with
  | none => rw [h]; rfl
  | some value =>
    obtain ⟨text, htext, _⟩ := h
    rw [htext]
    rfl

theorem readNat_le {bound n : Nat} {text : String} (h : readNat bound text = .ok n) : n ≤ bound := by
  unfold readNat at h
  cases hread : Decimal.readWhole 10 bound text.toList with
  | error cause =>
    rw [hread] at h
    cases h
  | ok m =>
    rw [hread] at h
    obtain rfl := Except.ok.inj h
    unfold Decimal.readWhole at hread
    split at hread
    · cases hread
    · exact Decimal.readDigits_le (Nat.zero_le _) hread
    · exact Decimal.readDigits_le (Nat.zero_le _) hread
    · exact Decimal.readDigits_le (Nat.zero_le _) hread

theorem Gives.le {bound n : Nat} (h : e.Gives name (readNat bound) (some n)) : n ≤ bound := by
  obtain ⟨_, _, hread⟩ := h
  exact readNat_le hread

/-- A number that was read within a bound is given as a word that holds all numbers up to it. -/
theorem Gives.asWord {ω : Type} {bound : Nat} {value : Option Nat}
    (h : e.Gives name (readNat bound) value) {ofNat : Nat → ω} {toNat : ω → Nat}
    (hexact : ∀ n ≤ bound, toNat (ofNat n) = n) :
    e.Gives name (readNat bound) ((value.map ofNat).map toNat) := by
  cases value with
  | none => exact h
  | some n =>
    rw [Option.map_some, Option.map_some, hexact n h.le]
    exact h

end Environment

/-- What the variables of an environment say, none where one is not set. -/
structure Overrides where
  chainSet : Option ChainSet
  generation : Option String
  clock : Option UInt32
  vidLevel : Option UInt8
  speedHz : Option UInt32
  chipLimit : Option Nat
  fanMode : Option Thermal.FanMode
  fanSpeed : Option UInt8
  target : Option Float32

/-- Each variable that is set can be read, and this is what they say. -/
structure Environment.Says (e : Environment) (o : Overrides) : Prop where
  chainSet : e.Gives "MUJINA_CHAIN_MASK" readChains o.chainSet
  generation : e.text? "MUJINA_CHIP_GENERATION" = o.generation
  clock : e.Gives "MUJINA_PLL_MHZ" (readNat 0xffffffff) (o.clock.map UInt32.toNat)
  vidLevel : e.Gives "MUJINA_VID_LEVEL" (readNat 255) (o.vidLevel.map UInt8.toNat)
  speedHz : e.Gives "MUJINA_SPI_SPEED_HZ" (readNat 0xffffffff) (o.speedHz.map UInt32.toNat)
  chipLimit : e.Gives "MUJINA_CHIP_LIMIT" (readNat 0xffffffffffffffff) o.chipLimit
  fanMode : e.Gives "MUJINA_FAN_MODE" readMode o.fanMode
  fanSpeed : e.Gives "MUJINA_FAN_SPEED" (readNat 255) (o.fanSpeed.map UInt8.toNat)
  target : e.Gives "MUJINA_TARGET_TEMP" readSingle o.target

theorem Environment.Says.unique {e : Environment} {o other : Overrides} (h : e.Says o)
    (hother : e.Says other) : o = other := by
  have hword {value other : Option UInt32} (h : value.map UInt32.toNat = other.map UInt32.toNat) :
      value = other := Option.map_injective (fun _ _ => UInt32.toNat_inj.1) h
  have hbyte {value other : Option UInt8} (h : value.map UInt8.toNat = other.map UInt8.toNat) :
      value = other := Option.map_injective (fun _ _ => UInt8.toNat_inj.1) h
  have hgeneration := h.generation.symm.trans hother.generation
  have hclock := hword (h.clock.unique hother.clock)
  have hlevel := hbyte (h.vidLevel.unique hother.vidLevel)
  have hspeedHz := hword (h.speedHz.unique hother.speedHz)
  have hspeed := hbyte (h.fanSpeed.unique hother.fanSpeed)
  obtain ⟨⟩ := o
  obtain ⟨⟩ := other
  simp only [Overrides.mk.injEq]
  exact ⟨h.chainSet.unique hother.chainSet, hgeneration, hclock, hlevel, hspeedHz,
    h.chipLimit.unique hother.chipLimit, h.fanMode.unique hother.fanMode, hspeed,
    h.target.unique hother.target⟩

/-! ### Overriding -/

/-- The settings of single chains without the clocks that they have for themselves. -/
def withoutClocks (chains : List (UInt8 × OwnSettings)) : List (UInt8 × OwnSettings) :=
  chains.map fun (id, own) => (id, { own with targetMhz := none })

/-- The configuration in which the overrides that are set take the place of its fields. -/
def Overrides.apply (o : Overrides) (c : Configuration) : Configuration :=
  { c with
    chainSet := o.chainSet.getD c.chainSet
    generation := o.generation.getD c.generation
    targetMhz := o.clock.getD c.targetMhz
    chains := if o.clock.isSome then withoutClocks c.chains else c.chains
    vidLevel := o.vidLevel.or c.vidLevel
    spiSpeedHz := o.speedHz.or c.spiSpeedHz
    chipLimit := o.chipLimit.or c.chipLimit
    thermal := { c.thermal with
      fanMode := o.fanMode.getD (if o.fanSpeed.isSome then .manual else c.thermal.fanMode)
      manualSpeed := o.fanSpeed.getD c.thermal.manualSpeed
      target := o.target.getD c.thermal.target } }

/-- A field stays as it was unless a variable that governs it is set, and no variable governs the
fields that are not named here. -/
structure Overrides.Spares (o : Overrides) (c after : Configuration) : Prop where
  chainSet : o.chainSet = none → after.chainSet = c.chainSet
  generation : o.generation = none → after.generation = c.generation
  targetMhz : o.clock = none → after.targetMhz = c.targetMhz
  chains : o.clock = none → after.chains = c.chains
  /-- A clock for all chains takes nothing from a chain but its own clock. -/
  ownLines : after.chains.map (fun (id, own) => (id, own.spi, own.pins)) =
    c.chains.map fun (id, own) => (id, own.spi, own.pins)
  vidLevel : o.vidLevel = none → after.vidLevel = c.vidLevel
  spiSpeedHz : o.speedHz = none → after.spiSpeedHz = c.spiSpeedHz
  chipLimit : o.chipLimit = none → after.chipLimit = c.chipLimit
  fanMode : o.fanMode = none → o.fanSpeed = none → after.thermal.fanMode = c.thermal.fanMode
  manualSpeed : o.fanSpeed = none → after.thermal.manualSpeed = c.thermal.manualSpeed
  target : o.target = none → after.thermal.target = c.thermal.target
  others : after = { c with
    chainSet := after.chainSet
    generation := after.generation
    targetMhz := after.targetMhz
    chains := after.chains
    vidLevel := after.vidLevel
    spiSpeedHz := after.spiSpeedHz
    chipLimit := after.chipLimit
    thermal := { c.thermal with
      fanMode := after.thermal.fanMode
      manualSpeed := after.thermal.manualSpeed
      target := after.thermal.target } }

theorem Overrides.apply_spares (o : Overrides) (c : Configuration) : o.Spares c (o.apply c) where
  chainSet h := by simp [apply, h]
  generation h := by simp [apply, h]
  targetMhz h := by simp [apply, h]
  chains h := by simp [apply, h]
  ownLines := by
    unfold apply
    split
    · simp [withoutClocks]
    · rfl
  vidLevel h := by simp [apply, h]
  spiSpeedHz h := by simp [apply, h]
  chipLimit h := by simp [apply, h]
  fanMode h hspeed := by simp [apply, h, hspeed]
  manualSpeed h := by simp [apply, h]
  target h := by simp [apply, h]
  others := rfl

theorem withoutClocks_withoutClocks (chains : List (UInt8 × OwnSettings)) :
    withoutClocks (withoutClocks chains) = withoutClocks chains := by
  simp [withoutClocks, Function.comp_def]

theorem Overrides.apply_apply (o : Overrides) (c : Configuration) :
    o.apply (o.apply c) = o.apply c := by
  have hgetD {α : Type} (value : Option α) (x : α) : value.getD (value.getD x) = value.getD x := by
    cases value <;> rfl
  have hor {α : Type} (value other : Option α) : value.or (value.or other) = value.or other := by
    cases value <;> rfl
  have hmode : ∀ mode : Thermal.FanMode,
      o.fanMode.getD (if o.fanSpeed.isSome then .manual else
        o.fanMode.getD (if o.fanSpeed.isSome then .manual else mode)) =
      o.fanMode.getD (if o.fanSpeed.isSome then .manual else mode) := by
    intro mode
    cases o.fanMode <;> cases o.fanSpeed <;> rfl
  have hchains : ∀ chains : List (UInt8 × OwnSettings),
      (if o.clock.isSome then withoutClocks (if o.clock.isSome then withoutClocks chains else chains)
        else if o.clock.isSome then withoutClocks chains else chains) =
      if o.clock.isSome then withoutClocks chains else chains := by
    intro chains
    split
    · exact withoutClocks_withoutClocks chains
    · rfl
  unfold apply
  simp only [hgetD, hor, hmode, hchains]

namespace Configuration

variable {c after : Configuration} {e : Environment}

theorem ok_of_bind {α β : Type} {x : Except ConfigurationError α}
    {f : α → Except ConfigurationError β} {r : β} (h : x >>= f = .ok r) :
    ∃ a, x = .ok a ∧ f a = .ok r := by
  cases x with
  | error cause => cases h
  | ok a => exact ⟨a, rfl, h⟩

theorem applyEnvironment_said {o : Overrides} (h : e.Says o) :
    c.applyEnvironment e = .ok (o.apply c) := by
  -- Each override as an update of its fields, whether its variable is set or not.
  have hchainSet (c : Configuration) : c.override? o.chainSet (fun c m => { c with chainSet := m }) =
      { c with chainSet := o.chainSet.getD c.chainSet } := by
    cases o.chainSet <;> rfl
  have hgeneration (c : Configuration) :
      c.override? o.generation (fun c g => { c with generation := g }) =
        { c with generation := o.generation.getD c.generation } := by
    cases o.generation <;> rfl
  have hclock (c : Configuration) :
      c.override? (o.clock.map UInt32.toNat) (fun c n => c.setClock (UInt32.ofNat n)) =
        { c with
          targetMhz := o.clock.getD c.targetMhz
          chains := if o.clock.isSome then withoutClocks c.chains else c.chains } := by
    cases o.clock <;> simp [override?, setClock, withoutClocks]
  have hlevel (c : Configuration) : c.override? (o.vidLevel.map UInt8.toNat)
      (fun c n => { c with vidLevel := some (UInt8.ofNat n) }) =
        { c with vidLevel := o.vidLevel.or c.vidLevel } := by
    cases o.vidLevel <;> simp [override?]
  have hspeedHz (c : Configuration) : c.override? (o.speedHz.map UInt32.toNat)
      (fun c n => { c with spiSpeedHz := some (UInt32.ofNat n) }) =
        { c with spiSpeedHz := o.speedHz.or c.spiSpeedHz } := by
    cases o.speedHz <;> simp [override?]
  have hlimit (c : Configuration) :
      c.override? o.chipLimit (fun c n => { c with chipLimit := some n }) =
        { c with chipLimit := o.chipLimit.or c.chipLimit } := by
    cases o.chipLimit <;> rfl
  have hmode (c : Configuration) :
      c.override? o.fanMode (fun c m => { c with thermal := { c.thermal with fanMode := m } }) =
        { c with thermal := { c.thermal with fanMode := o.fanMode.getD c.thermal.fanMode } } := by
    cases o.fanMode <;> rfl
  have hspeed (c : Configuration) : c.override? (o.fanSpeed.map UInt8.toNat) (fun c n =>
      let mode := if o.fanMode.isSome then c.thermal.fanMode else .manual
      { c with thermal :=
        { c.thermal with manualSpeed := UInt8.ofNat n, fanMode := mode } }) =
        { c with thermal := { c.thermal with
          manualSpeed := o.fanSpeed.getD c.thermal.manualSpeed
          fanMode := if o.fanSpeed.isSome && o.fanMode.isNone then .manual
            else c.thermal.fanMode } } := by
    cases o.fanSpeed <;> cases o.fanMode <;> simp [override?]
  have htarget (c : Configuration) :
      c.override? o.target (fun c t => { c with thermal := { c.thermal with target := t } }) =
        { c with thermal := { c.thermal with target := o.target.getD c.thermal.target } } := by
    cases o.target <;> rfl
  have hfanMode : (if o.fanSpeed.isSome && o.fanMode.isNone then .manual
      else o.fanMode.getD c.thermal.fanMode) =
        o.fanMode.getD (if o.fanSpeed.isSome then .manual else c.thermal.fanMode) := by
    cases o.fanSpeed <;> cases o.fanMode <;> rfl
  unfold applyEnvironment Overrides.apply
  rw [Environment.value?_eq_ok_iff.2 h.chainSet, h.generation, Environment.value?_eq_ok_iff.2 h.clock,
    Environment.value?_eq_ok_iff.2 h.vidLevel, Environment.value?_eq_ok_iff.2 h.speedHz,
    Environment.value?_eq_ok_iff.2 h.chipLimit, Environment.value?_eq_ok_iff.2 h.fanMode,
    Environment.value?_eq_ok_iff.2 h.fanSpeed, Environment.value?_eq_ok_iff.2 h.target,
    h.fanMode.isSome_iff, ← hfanMode]
  refine congrArg Except.ok ?_
  rw [hchainSet, hgeneration, hclock, hlevel, hspeedHz, hlimit, hmode, hspeed, htarget]

/-- The environment is applied exactly when all variables that are set can be read. -/
theorem applyEnvironment_eq_ok_iff :
    c.applyEnvironment e = .ok after ↔ ∃ o, e.Says o ∧ after = o.apply c := by
  constructor
  · intro h
    have hsays : ∃ o, e.Says o := by
      unfold applyEnvironment at h
      obtain ⟨chainSet, hchainSet, h⟩ := ok_of_bind h
      obtain ⟨clock, hclock, h⟩ := ok_of_bind h
      obtain ⟨level, hlevel, h⟩ := ok_of_bind h
      obtain ⟨speedHz, hspeedHz, h⟩ := ok_of_bind h
      obtain ⟨limit, hlimit, h⟩ := ok_of_bind h
      obtain ⟨mode, hmode, h⟩ := ok_of_bind h
      obtain ⟨speed, hspeed, h⟩ := ok_of_bind h
      obtain ⟨target, htarget, _⟩ := ok_of_bind h
      simp only [Environment.value?_eq_ok_iff] at *
      have hword (n : Nat) (hn : n ≤ 0xffffffff) : (UInt32.ofNat n).toNat = n :=
        UInt32.toNat_ofNat_of_lt' (Nat.lt_succ_of_le hn)
      have hbyte (n : Nat) (hn : n ≤ 255) : (UInt8.ofNat n).toNat = n :=
        UInt8.toNat_ofNat_of_lt' (Nat.lt_succ_of_le hn)
      exact ⟨⟨chainSet, e.text? "MUJINA_CHIP_GENERATION", clock.map UInt32.ofNat,
          level.map UInt8.ofNat, speedHz.map UInt32.ofNat, limit, mode, speed.map UInt8.ofNat,
          target⟩, hchainSet, rfl, hclock.asWord hword, hlevel.asWord hbyte,
        hspeedHz.asWord hword, hlimit, hmode, hspeed.asWord hbyte, htarget⟩
    obtain ⟨o, ho⟩ := hsays
    rw [applyEnvironment_said ho] at h
    exact ⟨o, ho, (Except.ok.inj h).symm⟩
  · rintro ⟨o, ho, rfl⟩
    exact applyEnvironment_said ho

/-! ### Single chains -/

/-- The bus settings of a chain before a speed for all chains is looked at. -/
def ownSpi (c : Configuration) (id : UInt8) : Device.SpiSettings :=
  (c.ownSettings id).spi.getD { Device.SpiSettings.standard with bus := id }

theorem ownSettings_withoutClocks (c : Configuration) (id : UInt8) :
    { c with chains := withoutClocks c.chains }.ownSettings id =
      { c.ownSettings id with targetMhz := none } := by
  unfold ownSettings withoutClocks
  rw [List.find?_map]
  show (Option.map Prod.snd (Option.map _ (c.chains.find? fun entry => entry.1 == id))).getD
    OwnSettings.none = _
  cases c.chains.find? fun entry => entry.1 == id <;> rfl

theorem chain_apply (o : Overrides) (c : Configuration) (id : UInt8) :
    (o.apply c).chain id =
      { c.chain id with
        spi := { c.ownSpi id with
          speedHz := o.speedHz.getD (c.spiSpeedHz.getD (c.ownSpi id).speedHz) }
        targetMhz := o.clock.getD ((c.ownSettings id).targetMhz.getD c.targetMhz) } := by
  have hown : (o.apply c).ownSettings id = { c.ownSettings id with
      targetMhz := if o.clock.isSome then none else (c.ownSettings id).targetMhz } := by
    unfold Overrides.apply
    split
    · exact c.ownSettings_withoutClocks id
    · rfl
  have hspeed (own : UInt32) : (o.speedHz.or c.spiSpeedHz).getD own =
      o.speedHz.getD (c.spiSpeedHz.getD own) := by
    cases o.speedHz <;> rfl
  have hclock (own : Option UInt32) :
      (if o.clock.isSome then none else own).getD (o.clock.getD c.targetMhz) =
        o.clock.getD (own.getD c.targetMhz) := by
    cases o.clock <;> rfl
  unfold chain
  rw [hown]
  simp only [Overrides.apply, hspeed, hclock, ownSpi]

/-- What an environment says comes first. For each chain the clock is the one of the environment,
else the chain's own, else the common one; the bus speed is the one of the environment, else the
common one, else the chain's own. The fan mode is the one of the environment, else manual if a fan
speed is set there, else as it was. What no variable that is set governs stays, and when the
environment is applied again all of it stays. -/
theorem environment_comes_first (h : c.applyEnvironment e = .ok after) :
    ∃ o, e.Says o ∧ after = o.apply c ∧
      (∀ id, after.chain id =
        { c.chain id with
          spi := { c.ownSpi id with
            speedHz := o.speedHz.getD (c.spiSpeedHz.getD (c.ownSpi id).speedHz) }
          targetMhz := o.clock.getD ((c.ownSettings id).targetMhz.getD c.targetMhz) }) ∧
      after.thermal.fanMode =
        o.fanMode.getD (if o.fanSpeed.isSome then .manual else c.thermal.fanMode) ∧
      o.Spares c after ∧
      after.applyEnvironment e = .ok after := by
  obtain ⟨o, ho, rfl⟩ := applyEnvironment_eq_ok_iff.1 h
  refine ⟨o, ho, rfl, chain_apply o c, rfl, o.apply_spares c, ?_⟩
  rw [applyEnvironment_said ho, o.apply_apply]

/-- A clock and a fan speed, beside a fan mode that is no text. -/
def clockAndFanSpeed : Environment :=
  ⟨[("MUJINA_PLL_MHZ", some "900"), ("MUJINA_FAN_SPEED", some " 40 "), ("MUJINA_FAN_MODE", none)]⟩

/-- Chain 0 has a clock and a bus of its own, beside a bus speed for all chains. -/
def withOwnClock : Configuration :=
  { standard with
    spiSpeedHz := some 500000
    chains := [(0, ⟨some { Device.SpiSettings.standard with bus := 3 }, none, some 600⟩)] }

theorem environment_comes_first_of_clock_and_fan_speed :
    ∃ after, withOwnClock.applyEnvironment clockAndFanSpeed = .ok after ∧
      (withOwnClock.chain 0).targetMhz = 600 ∧ (after.chain 0).targetMhz = 900 ∧
      (after.chain 0).spi = { Device.SpiSettings.standard with bus := 3, speedHz := 500000 } ∧
      after.thermal.fanMode = .manual ∧ after.vidLevel = none ∧
      after.applyEnvironment clockAndFanSpeed = .ok after := by
  let said : Overrides := ⟨none, none, some 900, none, none, none, none, some 40, none⟩
  have hsaid : clockAndFanSpeed.Says said :=
    ⟨rfl, rfl, ⟨"900", rfl, rfl⟩, rfl, rfl, rfl, rfl, ⟨" 40 ", rfl, rfl⟩, rfl⟩
  have happly : withOwnClock.applyEnvironment clockAndFanSpeed = .ok (said.apply withOwnClock) :=
    applyEnvironment_said hsaid
  obtain ⟨o, ho, _, hchain, hmode, hspares, hagain⟩ := environment_comes_first happly
  obtain rfl := ho.unique hsaid
  refine ⟨_, happly, rfl, ?_, ?_, hmode, hspares.vidLevel rfl, hagain⟩
  · rw [hchain]
    rfl
  · rw [hchain]
    rfl

end Configuration

end HashBoard
