import HashBoard.Proofs.Chain.Service

/-!
# Succession

How the chips of a chain follow each other from one exchange to the next. A chip keeps its address
and its cores, a disabled one keeps everything, and the cores that the chain counts are those of the
chips that are not disabled.
-/

namespace HashBoard

open Bus Wire

/-! ### Conditions -/

namespace Condition

variable {c : Condition} {now : Nat} {policy : Tolerance}

theorem isDisabled_of_isActive (h : c.isActive = true) : c.isDisabled = false := by
  cases c with
  | active => rfl
  | cooling since fails => rfl
  | disabled fails => cases h

theorem isActive_of_isDisabled (h : c.isDisabled = true) : c.isActive = false := by
  cases c with
  | active => cases h
  | cooling since fails => rfl
  | disabled fails => rfl

theorem isActive_of_isCooling (h : c.isCooling = true) : c.isActive = false := by
  cases c with
  | active => cases h
  | cooling since fails => rfl
  | disabled fails => cases h

theorem isDisabled_of_probeDue (h : c.probeDue now policy = true) : c.isDisabled = false := by
  cases c with
  | active => rfl
  | cooling since fails => rfl
  | disabled fails => cases h

theorem isDisabled_afterFailure (now : Nat) (policy : Tolerance) (h : c.isDisabled = false) :
    (c.afterFailure now policy).2.isDisabled = true ↔
      (c.afterFailure now policy).1 = .disabled := by
  cases c with
  | active =>
    unfold afterFailure
    by_cases hlimit : policy.disableThreshold ≤ 1
    · simp [hlimit, isDisabled]
    · simp [hlimit, isDisabled]
  | cooling since fails =>
    unfold afterFailure
    by_cases hlimit : policy.disableThreshold ≤ fails + 1
    · simp [hlimit, isDisabled]
    · simp [hlimit, isDisabled]
  | disabled fails => cases h

end Condition

/-! ### Chips -/

/-- A chip as it was and as it is later. -/
structure Chip.Follows (old new : Chip) : Prop where
  id : new.id = old.id
  cores : new.cores = old.cores
  ofDisabled : old.condition.isDisabled = true → new = old

namespace Chip.Follows

variable {old mid new : Chip}

theorem refl (chip : Chip) : Follows chip chip := ⟨rfl, rfl, fun _ => rfl⟩

theorem trans (h1 : Follows old mid) (h2 : Follows mid new) : Follows old new := by
  refine ⟨h2.id.trans h1.id, h2.cores.trans h1.cores, ?_⟩
  intro hold
  obtain rfl := h1.ofDisabled hold
  exact h2.ofDisabled hold

theorem of_standing (hold : old.condition.isDisabled = false) (hid : new.id = old.id)
    (hcores : new.cores = old.cores) : Follows old new := by
  refine ⟨hid, hcores, ?_⟩
  intro hdis
  rw [hold] at hdis
  cases hdis

end Chip.Follows

/-- The chips of a chain as they were and as they are later. -/
def Succession (chips chips' : List Chip) : Prop := List.Forall₂ Chip.Follows chips chips'

namespace Succession

variable {chips chips' chips'' before after : List Chip} {old new : Chip}

theorem refl (chips : List Chip) : Succession chips chips := by
  induction chips with
  | nil => exact .nil
  | cons chip rest ih => exact .cons (.refl chip) ih

theorem trans (h1 : Succession chips chips') (h2 : Succession chips' chips'') :
    Succession chips chips'' := by
  unfold Succession at h1
  induction h1 generalizing chips'' with
  | nil => exact h2
  | cons hfirst _ ih =>
    cases h2 with
    | cons hsecond hrest => exact .cons (hfirst.trans hsecond) (ih hrest)

theorem of_one (h : old.Follows new) :
    Succession (before ++ old :: after) (before ++ new :: after) := by
  induction before with
  | nil => exact .cons h (refl after)
  | cons chip rest ih => exact .cons (.refl chip) ih

theorem exists_split (h : Succession (before ++ old :: after) chips') :
    ∃ before' new after', chips' = before' ++ new :: after' ∧ Succession before before' ∧
      old.Follows new ∧ Succession after after' := by
  unfold Succession at h
  induction before generalizing chips' with
  | nil =>
    cases h with
    | cons hfirst hrest => exact ⟨[], _, _, rfl, .nil, hfirst, hrest⟩
  | cons chip rest ih =>
    cases h with
    | cons hfirst hrest =>
      obtain ⟨before', new, after', rfl, hbefore, hnew, hafter⟩ := ih hrest
      exact ⟨_ :: before', new, after', rfl, .cons hfirst hbefore, hnew, hafter⟩

theorem ids_eq (h : Succession chips chips') : chips'.map Chip.id = chips.map Chip.id := by
  unfold Succession at h
  induction h with
  | nil => rfl
  | cons hfirst _ ih => simp only [List.map_cons, hfirst.id, ih]

end Succession

/-! ### Cores -/

namespace Detection

def coresOf (chip : Chip) : Nat := if chip.condition.isDisabled then 0 else chip.cores.toNat

theorem workingCores_cons (chip : Chip) (chips : List Chip) :
    workingCores (chip :: chips) = coresOf chip + workingCores chips := by
  cases h : chip.condition.isDisabled with
  | true => simp [workingCores, coresOf, h]
  | false => simp [workingCores, coresOf, h]

theorem workingCores_append_cons (before after : List Chip) (chip : Chip) :
    workingCores (before ++ chip :: after) =
      workingCores before + coresOf chip + workingCores after := by
  induction before with
  | nil =>
    have hnil : workingCores [] = 0 := rfl
    rw [List.nil_append, workingCores_cons, hnil, Nat.zero_add]
  | cons first rest ih =>
    rw [List.cons_append, workingCores_cons, workingCores_cons, ih]
    omega

theorem coresOf_le {chips : List Chip} {chip : Chip} (h : chip ∈ chips) :
    coresOf chip ≤ workingCores chips := by
  obtain ⟨before, after, rfl⟩ := List.append_of_mem h
  rw [workingCores_append_cons]
  omega

theorem workingCores_withoutJobs (chips : List Chip) :
    workingCores (withoutJobs chips) = workingCores chips := by
  induction chips with
  | nil => rfl
  | cons chip rest ih =>
    have hcons : withoutJobs (chip :: rest) = { chip with slots := .empty } :: withoutJobs rest :=
      rfl
    rw [hcons, workingCores_cons, workingCores_cons, ih]
    rfl

end Detection

/-! ### Steps -/

namespace Cycle

open Detection

variable {τ : Type}

theorem fail_of_standing (cy : Cycle τ) (policy : Tolerance) (now : Nat) {chip : Chip}
    (h : chip.condition.isDisabled = false) :
    (cy.fail policy now chip).1.cores = chip.cores ∧
      (cy.fail policy now chip).1.stats = chip.stats ∧
        (((cy.fail policy now chip).1.condition.isDisabled = false ∧
            (cy.fail policy now chip).2.numCores = cy.numCores) ∨
          ((cy.fail policy now chip).1.condition.isDisabled = true ∧
            (cy.fail policy now chip).1.slots = .empty ∧
              (cy.fail policy now chip).2.numCores = cy.numCores - chip.cores.toNat)) := by
  have hiff := Condition.isDisabled_afterFailure now policy h
  rcases fail_cases cy policy now chip with ⟨hchange, f, heq⟩ | ⟨hchange, f, heq⟩
  · have hstands : (chip.condition.afterFailure now policy).2.isDisabled = false := by
      rw [← Bool.not_eq_true, hiff]
      exact hchange
    rw [heq]
    exact ⟨rfl, rfl, .inl ⟨hstands, rfl⟩⟩
  · rw [heq]
    exact ⟨rfl, rfl, .inr ⟨hiff.2 hchange, rfl, rfl⟩⟩

/-- What holds of the chips of a chain and its count of cores between any two exchanges. -/
structure Sound (p : Moment τ) : Prop where
  numbered : Numbered p.1
  emptied : ∀ chip ∈ p.1, chip.condition.isDisabled = true → chip.slots = .empty
  capable : ∀ chip ∈ p.1, chip.condition.isDisabled = false →
    p.2.bus.generation.brokenCores ≤ chip.cores
  cores : p.2.numCores = workingCores p.1

theorem Sound.of_chip {before after : List Chip} {chip chip' : Chip} {cy cy' : Cycle τ}
    (h : Sound (before ++ chip :: after, cy)) (hfollows : chip.Follows chip')
    (hgen : cy'.bus.generation = cy.bus.generation)
    (hemptied : chip'.condition.isDisabled = true → chip'.slots = .empty)
    (hcount : cy'.numCores + coresOf chip = cy.numCores + coresOf chip') :
    Sound (before ++ chip' :: after, cy') := by
  have hself : chip ∈ before ++ chip :: after := List.mem_append_cons_self
  have hmem {other : Chip} (hother : other ∈ before ++ chip' :: after) :
      other = chip' ∨ other ∈ before ++ chip :: after := by
    rcases List.mem_append.1 hother with hother | hother
    · exact .inr (List.mem_append_left _ hother)
    · rcases List.mem_cons.1 hother with rfl | hother
      · exact .inl rfl
      · exact .inr (List.mem_append_right _ (List.mem_cons_of_mem _ hother))
  refine ⟨h.numbered.of_ids_eq (Succession.of_one hfollows).ids_eq, ?_, ?_, ?_⟩
  · intro other hother hdis
    rcases hmem hother with rfl | hold
    · exact hemptied hdis
    · exact h.emptied other hold hdis
  · intro other hother hstands
    rw [hgen]
    rcases hmem hother with rfl | hold
    · have hbefore : chip.condition.isDisabled = false := by
        cases hdis : chip.condition.isDisabled with
        | false => rfl
        | true =>
          rw [hfollows.ofDisabled hdis, hdis] at hstands
          cases hstands
      rw [hfollows.cores]
      exact h.capable chip hself hbefore
    · exact h.capable other hold hstands
  · have hcores : cy.numCores = workingCores (before ++ chip :: after) := h.cores
    rw [workingCores_append_cons] at hcores
    show cy'.numCores = workingCores (before ++ chip' :: after)
    rw [workingCores_append_cons]
    omega

theorem Sound.of_same {chips : List Chip} {cy cy' : Cycle τ} (h : Sound (chips, cy))
    (hgen : cy'.bus.generation = cy.bus.generation) (hcount : cy'.numCores = cy.numCores) :
    Sound (chips, cy') := by
  refine ⟨h.numbered, h.emptied, ?_, hcount.trans h.cores⟩
  intro chip hmem hstands
  rw [hgen]
  exact h.capable chip hmem hstands

theorem credit_follows (result : FoundNonce) {chip : Chip} (cy : Cycle τ)
    (h : chip.condition.isActive = true) : chip.Follows (credit result chip cy).1 := by
  obtain ⟨⟨stats, heq⟩, _⟩ := credit_keeps result chip cy
  rw [heq]
  exact .of_standing (Condition.isDisabled_of_isActive h) rfl rfl

variable [Channel τ] {options : DrivingOptions} {now : Nat} {round : Round}

theorem ChipStep.standing {chip chip' : Chip} {cy cy' : Cycle τ}
    (h : ChipStep options now round chip cy chip' cy') : chip.condition.isDisabled = false := by
  cases h with
  | measured hactive _ | probed hactive _ | missed hactive _ | sent hactive _ _ _ _
  | unsent hactive _ _ _ _ => exact Condition.isDisabled_of_isActive hactive
  | recovered hdue _ | missedAgain hdue _ => exact Condition.isDisabled_of_probeDue hdue

theorem ChipStep.writesTo {chip chip' : Chip} {cy cy' : Cycle τ}
    (h : ChipStep options now round chip cy chip' cy') : WritesTo chip.id cy.bus cy'.bus := by
  cases h with
  | measured _ hread | probed _ hread | recovered _ hread => exact fetchRegister_writesTo hread
  | missed _ hread | missedAgain _ hread =>
    rw [fail_bus]
    exact fetchRegister_writesTo hread
  | sent _ _ _ _ hjob =>
    simp only [count, retire_bus]
    exact sendJob_writesTo hjob
  | unsent _ _ _ _ hjob =>
    rw [fail_bus]
    exact sendJob_writesTo hjob

/-- A chip that an exchange disables gives up its slots and its cores; no other exchange with a chip
changes the count of cores. -/
theorem ChipStep.cores_eq {chip chip' : Chip} {cy cy' : Cycle τ}
    (h : ChipStep options now round chip cy chip' cy') :
    chip'.cores = chip.cores ∧
      ((chip'.condition.isDisabled = false ∧ cy'.numCores = cy.numCores) ∨
        (chip'.condition.isDisabled = true ∧ chip'.slots = .empty ∧
          cy'.numCores = cy.numCores - chip.cores.toNat)) := by
  have hstands := h.standing
  cases h with
  | measured _ _ | probed _ _ => exact ⟨rfl, .inl ⟨hstands, rfl⟩⟩
  | recovered _ _ => exact ⟨rfl, .inl ⟨rfl, rfl⟩⟩
  | missed _ _ | missedAgain _ _ | unsent _ _ _ _ _ =>
    obtain ⟨hcores, _, hcases⟩ := fail_of_standing (_ : Cycle τ) options.tolerance now hstands
    exact ⟨hcores, hcases⟩
  | sent _ _ _ _ _ =>
    simp only [count, retire_numCores]
    exact ⟨rfl, .inl ⟨hstands, trivial⟩⟩

theorem ChipStep.follows {chip chip' : Chip} {cy cy' : Cycle τ}
    (h : ChipStep options now round chip cy chip' cy') : chip.Follows chip' :=
  .of_standing h.standing h.id_eq h.cores_eq.1

theorem Step.succession {p q : Moment τ} (h : Step options now round p q) :
    Succession p.1 q.1 := by
  cases h with
  | chip hchip => exact .of_one hchip.follows
  | listened _ _ _ => exact .refl _
  | spoilt _ => exact .refl _
  | dropped _ _ => exact .refl _
  | credited _ _ _ hactive => exact .of_one (credit_follows _ _ hactive)

theorem Step.sound {p q : Moment τ} (hstep : Step options now round p q) (h : Sound p) :
    Sound q := by
  cases hstep with
  | @chip _ before after chip chip' cy cy' hchip =>
    have hcores : cy.numCores = workingCores (before ++ chip :: after) := h.cores
    have hof : coresOf chip = chip.cores.toNat := by
      rw [coresOf, hchip.standing, if_neg Bool.false_ne_true]
    rw [workingCores_append_cons, hof] at hcores
    obtain ⟨hsame, hcases⟩ := hchip.cores_eq
    refine h.of_chip hchip.follows hchip.writesTo.generation ?_ ?_
    · intro hdis
      rcases hcases with ⟨hstands, _⟩ | ⟨_, hslots, _⟩
      · rw [hstands] at hdis
        cases hdis
      · exact hslots
    · rw [hof, coresOf, hsame]
      rcases hcases with ⟨hstands, hcount⟩ | ⟨hdis, _, hcount⟩
      · rw [hstands, if_neg Bool.false_ne_true, hcount]
      · -- The chip is one of those counted, so nothing is cut off at zero.
        rw [hdis, if_pos rfl, hcount]
        omega
  | listened hread _ _ => exact h.of_same (fetchResult_writesTo hread).generation rfl
  | spoilt hread => exact h.of_same (fetchResult_writesTo hread).generation rfl
  | dropped hread _ => exact h.of_same (fetchResult_writesTo hread).generation rfl
  | @credited before after chip cy result bus hread hplace hslot hactive =>
    have hheard : Sound (before ++ chip :: after,
        count { cy with bus } fun r => { r with results := r.results + 1 }) :=
      h.of_same (fetchResult_writesTo hread).generation rfl
    have hkept := credit_keeps result chip
      (count { cy with bus } fun r => { r with results := r.results + 1 })
    obtain ⟨⟨stats, heq⟩, hbus, hcount⟩ := hkept
    have hmem : chip ∈ before ++ chip :: after := List.mem_append_cons_self
    refine hheard.of_chip (credit_follows _ _ hactive) (congrArg Bus.generation hbus) ?_ ?_
    · rw [heq]
      exact h.emptied chip hmem
    · rw [heq, hcount]
      rfl

end Cycle

/-! ### Runs -/

namespace Service

open HashBoard.Cycle

variable {τ : Type}

def moment (s : Service τ) : Moment τ := (s.chain.chips, s.chain.cycle s.sink)

variable [Channel τ] {s : Service τ}

theorem scan_sound (h : Sound s.moment) (overview : Thermal.Overview) (now : Nat) :
    Sound (s.after (.scan overview now)).moment ∧
      Succession s.chain.chips (s.after (.scan overview now)).chain.chips := by
  refine s.chain.scan_induction s.sink overview now
    (fun p => Sound p ∧ Succession s.chain.chips p.1) ?_ ?_ ?_
  · intro round p q hstep hp
    exact ⟨hstep.sound hp.1, hp.2.trans hstep.succession⟩
  · intro chips cy f hp
    exact ⟨hp.1.of_same rfl rfl, hp.2⟩
  · exact ⟨h.of_same rfl rfl, .refl _⟩

theorem reclaim_sound (h : Sound s.moment) :
    Sound (s.after .reclaim).moment ∧
      Succession s.chain.chips (s.after .reclaim).chain.chips := by
  obtain ⟨bus, hjobless, hafter⟩ := s.after_reclaim
  have hone : ∀ chip ∈ s.chain.chips, chip.Follows { chip with slots := .empty } := by
    intro chip hmem
    refine ⟨rfl, rfl, ?_⟩
    intro hdis
    rw [← h.emptied chip hmem hdis]
  have hsucc : Succession s.chain.chips (withoutJobs s.chain.chips) :=
    List.forall₂_map_right_iff.2 (List.forall₂_same.2 hone)
  have hcores := Detection.workingCores_withoutJobs s.chain.chips
  rw [hafter]
  refine ⟨⟨h.numbered.of_ids_eq hsucc.ids_eq, ?_, ?_, h.cores.trans hcores.symm⟩, hsucc⟩
  · intro chip hmem _
    obtain ⟨_, _, rfl⟩ := List.mem_map.1 hmem
    rfl
  · intro chip hmem hstands
    obtain ⟨old, hold, rfl⟩ := List.mem_map.1 hmem
    show bus.generation.brokenCores ≤ old.cores
    rw [hjobless.generation]
    exact h.capable old hold hstands

theorem after_sound (h : Sound s.moment) (request : Request) :
    Sound (s.after request).moment ∧ Succession s.chain.chips (s.after request).chain.chips := by
  cases request with
  | offer work =>
    rcases s.after_offer work with ⟨_, heq⟩ | ⟨_, heq⟩
    · rw [heq]
      exact ⟨h, .refl _⟩
    · rw [heq]
      exact ⟨h.of_same rfl rfl, .refl _⟩
  | scan overview now => exact scan_sound h overview now
  | reclaim => exact reclaim_sound h

theorem Reachable.sound (h : Reachable s) : Sound s.moment := by
  induction h with
  | @detected _ _ _ found hfound id options schedule power publishes judge =>
    obtain ⟨hnumbered, hslots, _⟩ := Detection.detect_numbered hfound
    obtain ⟨_, _, _, hcores, hcapable⟩ := Detection.detect_counts hfound
    exact ⟨hnumbered, fun chip hmem _ => hslots chip hmem, hcapable, hcores⟩
  | after _ request ih => exact (after_sound ih request).1

theorem run_sound (h : Sound s.moment) (requests : List Request) :
    Sound (s.run requests).moment ∧ Succession s.chain.chips (s.run requests).chain.chips := by
  induction requests generalizing s with
  | nil => exact ⟨h, .refl _⟩
  | cons request rest ih =>
    obtain ⟨hnext, hone⟩ := after_sound h request
    obtain ⟨hlast, hrest⟩ := ih hnext
    exact ⟨hlast, hone.trans hrest⟩

theorem Reachable.succession (h : Reachable s) (requests : List Request) :
    Succession s.chain.chips (s.run requests).chain.chips :=
  (run_sound h.sound requests).2

end Service

end HashBoard
