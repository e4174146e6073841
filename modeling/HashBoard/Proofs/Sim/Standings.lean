import HashBoard.Proofs.Chain.Phases
import HashBoard.Proofs.Chain.Succession
import HashBoard.Proofs.Chip.MissedReads
import HashBoard.Proofs.Sim.Exchanges

/-!
# Standings on a simulated chain

The chips of a chain and the simulated ones, taken together place by place: the condition of each
beside the reads that it still ignores. An exchange with a chip either leaves all standings as they
are or turns that of this chip, so what every turn keeps is kept by a whole phase of a scan.
-/

namespace HashBoard

open Bus Wire SimulatedChain

/-! ### Places -/

def standingsOf : List Chip → List (UInt8 × Nat) → List Standing :=
  List.zipWith fun chip profile => (chip.condition, profile.2)

theorem standingsOf_set (before after : List Chip) (chip chip' : Chip)
    (profiles : List (UInt8 × Nat)) (cores : UInt8) (reads : Nat) :
    standingsOf (before ++ chip' :: after) (profiles.set before.length (cores, reads)) =
      (standingsOf (before ++ chip :: after) profiles).set before.length
        (chip'.condition, reads) := by
  induction before generalizing profiles with
  | nil =>
    cases profiles with
    | nil => rfl
    | cons profile rest => rfl
  | cons first before ih =>
    cases profiles with
    | nil => rfl
    | cons profile rest =>
      simp only [List.cons_append, List.length_cons, List.set_cons_succ, standingsOf,
        List.zipWith_cons_cons] at ih ⊢
      rw [ih]

theorem getElem?_standingsOf {chips : List Chip} {profiles : List (UInt8 × Nat)} {place : Nat}
    {chip : Chip} {profile : UInt8 × Nat} (hchip : chips[place]? = some chip)
    (hprofile : profiles[place]? = some profile) :
    (standingsOf chips profiles)[place]? = some (chip.condition, profile.2) := by
  rw [standingsOf, List.getElem?_zipWith, hchip, hprofile]

theorem exists_of_standing {chips : List Chip} {profiles : List (UInt8 × Nat)} {place : Nat}
    {x : Standing} (h : (standingsOf chips profiles)[place]? = some x) : ∃ chip profile,
    chips[place]? = some chip ∧ profiles[place]? = some profile ∧ x = (chip.condition, profile.2) := by
  rw [standingsOf, List.getElem?_zipWith] at h
  cases hchip : chips[place]? with
  | none =>
    rw [hchip] at h
    cases h
  | some chip =>
    cases hprofile : profiles[place]? with
    | none =>
      rw [hchip, hprofile] at h
      cases h
    | some profile =>
      rw [hchip, hprofile] at h
      exact ⟨chip, profile, rfl, rfl, (Option.some.inj h).symm⟩

theorem SimulatedChain.getElem?_profiles {s : SimulatedChain} {place : Nat} {m : SimulatedChip}
    (h : s.chips[place]? = some m) : s.profiles[place]? = some (m.cores, m.failingReads) := by
  rw [profiles, List.getElem?_map, h]
  rfl

theorem SimulatedChain.profiles_set_self {s : SimulatedChain} {place : Nat} {m : SimulatedChip}
    (h : s.chips[place]? = some m) :
    s.profiles.set place (m.cores, m.failingReads) = s.profiles := by
  obtain ⟨hlt, heq⟩ := List.getElem?_eq_some_iff.1 (getElem?_profiles h)
  rw [← heq, List.set_getElem_self]

namespace Cycle

def standings (p : Moment SimulatedChain) : List Standing := standingsOf p.1 p.2.bus.channel.profiles

/-- The chips are those of a simulated chain in service. -/
structure Tied (p : Moment SimulatedChain) : Prop where
  serving : Serving p.2.bus
  numbered : Numbered p.1
  simulated : p.1.length ≤ p.2.bus.channel.profiles.length

/-- What holds of the standing at each place. -/
def Holds (P : Nat → Standing → Prop) (p : Moment SimulatedChain) : Prop :=
  ∀ place x, (standings p)[place]? = some x → P place x

def Stable (policy : Tolerance) (now : Nat) (P : Nat → Standing → Prop) : Prop :=
  ∀ place x y, Turn policy now x y → P place x → P place y

variable {before after : List Chip} {chip : Chip} {cy : Cycle SimulatedChain}

theorem Tied.exists_simulated (h : Tied (before ++ chip :: after, cy)) : ∃ m,
    chip.id.toNat = before.length + 1 ∧ cy.bus.channel.chips[before.length]? = some m ∧
      (standings (before ++ chip :: after, cy))[before.length]? =
        some (chip.condition, m.failingReads) := by
  have hlength := h.simulated
  simp only [profiles, List.length_map, List.length_append, List.length_cons] at hlength
  have hlt : before.length < cy.bus.channel.chips.length := by omega
  have hm := List.getElem?_eq_getElem hlt
  have hchip : (before ++ chip :: after)[before.length]? = some chip := by
    rw [List.getElem?_append_right (Nat.le_refl _), Nat.sub_self]
    rfl
  exact ⟨_, h.numbered.id_eq, hm, getElem?_standingsOf hchip (getElem?_profiles hm)⟩

/-! ### Exchanges -/

theorem fail_condition (cy : Cycle SimulatedChain) (policy : Tolerance) (now : Nat) (chip : Chip) :
    (cy.fail policy now chip).1.condition = (chip.condition.afterFailure now policy).2 := by
  rcases fail_cases cy policy now chip with ⟨_, f, h⟩ | ⟨_, f, h⟩
  · rw [h]
  · rw [h]

section Exchanges

variable {bus after : Bus SimulatedChain} {address : UInt8} {place : Nat} {m : SimulatedChip}

theorem undisturbed_of_register {register : Register} (hs : Serving bus)
    (hid : address.toNat = place + 1) (hm : bus.channel.chips[place]? = some m)
    (hread : (fetchRegister address).runOn bus = (.ok register, after)) :
    m.failingReads = 0 ∧ Undisturbed bus after := by
  rcases Nat.eq_zero_or_pos m.failingReads with hreads | hreads
  · obtain ⟨last, hanswer, hundisturbed, _⟩ :=
      hs.fetchRegister_of_reading ((chip?_of_place hid).trans hm) hreads
    obtain ⟨_, rfl⟩ := Prod.mk.inj (hread.symm.trans hanswer)
    exact ⟨hreads, hundisturbed⟩
  · obtain ⟨cause, last, hanswer, _⟩ := hs.fetchRegister_of_ignoring hid hm hreads
    cases (Prod.mk.inj (hread.symm.trans hanswer)).1

theorem ignored_of_error {cause : ExchangeError} (hs : Serving bus)
    (hid : address.toNat = place + 1) (hm : bus.channel.chips[place]? = some m)
    (hread : (fetchRegister address).runOn bus = (.error cause, after)) :
    0 < m.failingReads ∧ Serving after ∧
      after.channel.profiles = bus.channel.profiles.set place (m.cores, m.failingReads - 1) := by
  rcases Nat.eq_zero_or_pos m.failingReads with hreads | hreads
  · obtain ⟨last, hanswer, _⟩ :=
      hs.fetchRegister_of_reading ((chip?_of_place hid).trans hm) hreads
    cases (Prod.mk.inj (hread.symm.trans hanswer)).1
  · obtain ⟨_, last, hanswer, hserving, hprofiles⟩ := hs.fetchRegister_of_ignoring hid hm hreads
    obtain ⟨_, rfl⟩ := Prod.mk.inj (hread.symm.trans hanswer)
    exact ⟨hreads, hserving, hprofiles⟩

end Exchanges

variable {options : DrivingOptions} {now : Nat} {round : Round}

theorem ofFirstByte?_slotAt (place : Fin 4) :
    Opcode.ofFirstByte? (Job.firstByte (JobSlots.slotAt place)) = some .sendJob := by
  revert place
  decide

/-- An exchange with a chip leaves its standing, if the chip is active, or turns it. -/
theorem ChipStep.turn {chip chip' : Chip} {cy cy' : Cycle SimulatedChain} {place : Nat}
    {m : SimulatedChip} (h : ChipStep options now round chip cy chip' cy') (hs : Serving cy.bus)
    (hid : chip.id.toNat = place + 1) (hm : cy.bus.channel.chips[place]? = some m) :
    Serving cy'.bus ∧ ∃ reads,
      cy'.bus.channel.profiles = cy.bus.channel.profiles.set place (m.cores, reads) ∧
        ((chip.condition.isActive = true ∧
            (chip'.condition, reads) = (chip.condition, m.failingReads)) ∨
          Turn options.tolerance now (chip.condition, m.failingReads)
            (chip'.condition, reads)) := by
  have hself : cy.bus.channel.profiles.set place (m.cores, m.failingReads) =
      cy.bus.channel.profiles := profiles_set_self hm
  have hstands := h.standing
  cases h with
  | measured hactive hread | probed hactive hread =>
    obtain ⟨_, hundisturbed⟩ := undisturbed_of_register hs hid hm hread
    refine ⟨hundisturbed.serving hs, m.failingReads, ?_, .inl ⟨hactive, rfl⟩⟩
    rw [hself]
    exact hundisturbed.channel.profiles
  | missed _ hread | missedAgain _ hread =>
    obtain ⟨hreads, hserving, hprofiles⟩ := ignored_of_error hs hid hm hread
    rw [fail_bus, fail_condition]
    exact ⟨hserving, _, hprofiles, .inr (.of_pos hreads hstands)⟩
  | recovered hdue hread =>
    obtain ⟨hreads, hundisturbed⟩ := undisturbed_of_register hs hid hm hread
    refine ⟨hundisturbed.serving hs, m.failingReads, ?_, .inr ?_⟩
    · rw [hself]
      exact hundisturbed.channel.profiles
    · rw [hreads]
      cases hc : chip.condition with
      | cooling since fails => exact .recovered since fails
      | active => rw [hc] at hdue; cases hdue
      | disabled fails => rw [hc] at hdue; cases hdue
  | @sent _ _ _ work queue u bus hactive _ _ _ hjob =>
    have hslot : Opcode.ofFirstByte? (Job.firstByte (nextJob options work chip).slot) =
        some .sendJob := ofFirstByte?_slotAt chip.slots.cursor
    rcases hs.sendJob_cases hslot hid hm with ⟨last, hanswer, hundisturbed⟩ |
      ⟨_, cause, last, hanswer, _⟩
    · obtain ⟨_, rfl⟩ := Prod.mk.inj (hjob.symm.trans hanswer)
      simp only [count, retire_bus]
      refine ⟨hundisturbed.serving hs, m.failingReads, ?_, .inl ⟨hactive, rfl⟩⟩
      rw [hself]
      exact hundisturbed.channel.profiles
    · cases (Prod.mk.inj (hjob.symm.trans hanswer)).1
  | @unsent _ _ _ work queue cause bus _ _ _ _ hjob =>
    have hslot : Opcode.ofFirstByte? (Job.firstByte (nextJob options work chip).slot) =
        some .sendJob := ofFirstByte?_slotAt chip.slots.cursor
    rcases hs.sendJob_cases hslot hid hm with ⟨last, hanswer, _⟩ |
      ⟨hreads, _, last, hanswer, hserving, hprofiles⟩
    · cases (Prod.mk.inj (hjob.symm.trans hanswer)).1
    · obtain ⟨_, rfl⟩ := Prod.mk.inj (hjob.symm.trans hanswer)
      rw [fail_bus, fail_condition]
      exact ⟨hserving, _, hprofiles, .inr (.of_pos hreads hstands)⟩

/-! ### Phases -/

variable {P Q : Nat → Standing → Prop} {p q : Moment SimulatedChain}

theorem Ask.standings_eq (h : Ask options now round p q) (hp : Tied p) : Tied q ∧
    ∃ place x y, (standings p)[place]? = some x ∧ standings q = (standings p).set place y ∧
      (y = x ∨ Turn options.tolerance now x y) := by
  cases h with
  | @chip before after chip chip' cy cy' hchip =>
    obtain ⟨m, hid, hm, hstanding⟩ := hp.exists_simulated
    obtain ⟨hserving, reads, hprofiles, hturn⟩ := hchip.turn hp.serving hid hm
    have hstep : Step options now round (before ++ chip :: after, cy) (before ++ chip' :: after, cy') :=
      .chip hchip
    have hlengths : (before ++ chip' :: after).length ≤ cy'.bus.channel.profiles.length := by
      rw [hprofiles, List.length_set]
      have hsimulated := hp.simulated
      simp only [List.length_append, List.length_cons] at hsimulated ⊢
      exact hsimulated
    refine ⟨⟨hserving, hp.numbered.of_ids_eq hstep.ids_eq, hlengths⟩, before.length, _,
      (chip'.condition, reads), hstanding, ?_, hturn.imp_left And.right⟩
    rw [standings, hprofiles]
    exact standingsOf_set ..

theorem Ask.tied (h : Ask options now round p q) (hp : Tied p) : Tied q := (h.standings_eq hp).1

theorem Ask.holds (h : Ask options now round p q) (hp : Tied p)
    (hP : Stable options.tolerance now P) (hold : Holds P p) : Holds P q := by
  obtain ⟨_, place, x, y, hx, hstandings, hturn⟩ := h.standings_eq hp
  intro other z hz
  rw [hstandings] at hz
  by_cases hplace : place = other
  · subst hplace
    rw [List.getElem?_set_self (List.getElem?_eq_some_iff.1 hx).1] at hz
    obtain rfl := Option.some.inj hz
    rcases hturn with rfl | hturn
    · exact hold place _ hx
    · exact hP place x _ hturn (hold place x hx)
  · rw [List.getElem?_set_ne hplace] at hz
    exact hold other z hz

theorem Asks.tied (h : Asks options now round p q) (hp : Tied p) : Tied q := by
  induction h with
  | refl => exact hp
  | tail _ hlast ih => exact hlast.tied ih

theorem Asks.holds (h : Asks options now round p q) (hp : Tied p)
    (hP : Stable options.tolerance now P) (hold : Holds P p) : Holds P q := by
  induction h with
  | refl => exact hold
  | tail hfirst hlast ih => exact hlast.holds (Asks.tied hfirst hp) hP ih

theorem Stable.imp {I : Nat → Prop} {policy : Tolerance} (hP : Stable policy now P) :
    Stable policy now fun place x => I place → P place x :=
  fun place x y hturn hx hI => hP place x y hturn (hx hI)

/-- What a phase makes of each chip when its turn comes holds of all of them at its end. -/
theorem visit_holds {f : Chip → Cycle SimulatedChain → Chip × Cycle SimulatedChain}
    (hasks : ∀ (before after : List Chip) (chip : Chip) (cy : Cycle SimulatedChain),
      Asks options now round (before ++ chip :: after, cy)
        (before ++ (f chip cy).1 :: after, (f chip cy).2))
    (hP : Stable options.tolerance now P) (hQ : Stable options.tolerance now Q)
    (hf : ∀ {before after : List Chip} {chip : Chip} {cy : Cycle SimulatedChain} (x y : Standing),
      Tied (before ++ chip :: after, cy) →
        (standings (before ++ chip :: after, cy))[before.length]? = some x → Q before.length x →
        (standings (before ++ (f chip cy).1 :: after, (f chip cy).2))[before.length]? = some y →
          P before.length y)
    (before chips : List Chip) (cy : Cycle SimulatedChain) (htied : Tied (before ++ chips, cy))
    (hdone : Holds (fun place x => place < before.length → P place x) (before ++ chips, cy))
    (hleft : Holds (fun place x => before.length ≤ place → Q place x) (before ++ chips, cy)) :
    Holds P (before ++ (visit f chips cy).1, (visit f chips cy).2) := by
  induction chips generalizing before cy with
  | nil =>
    intro place x hx
    refine hdone place x hx ?_
    have hlt := (List.getElem?_eq_some_iff.1 hx).1
    simp only [standings, standingsOf, visit, List.length_zipWith, List.append_nil] at hlt
    omega
  | cons chip rest ih =>
    have hasked := hasks before rest chip cy
    obtain ⟨m, _, _, hstanding⟩ := htied.exists_simulated
    have hnext : Tied (before ++ [(f chip cy).1] ++ rest, (f chip cy).2) := by
      rw [List.append_assoc, List.singleton_append]
      exact hasked.tied htied
    have hlast := ih (before ++ [(f chip cy).1]) (f chip cy).2 hnext ?_ ?_
    · simp only [List.append_assoc, List.singleton_append] at hlast
      exact hlast
    · simp only [List.append_assoc, List.singleton_append, List.length_append, List.length_singleton]
      intro place y hy hplace
      rcases Nat.lt_or_eq_of_le (Nat.le_of_lt_succ hplace) with hlt | rfl
      · exact hasked.holds htied hP.imp hdone place y hy hlt
      · exact hf _ y htied hstanding (hleft _ _ hstanding (Nat.le_refl _)) hy
    · simp only [List.append_assoc, List.singleton_append, List.length_append, List.length_singleton]
      intro place y hy hplace
      exact hasked.holds htied hQ.imp hleft place y hy (Nat.le_of_succ_le hplace)

end Cycle

end HashBoard
