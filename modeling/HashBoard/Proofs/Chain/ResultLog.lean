import HashBoard.Proofs.Bus.ResultFrames
import HashBoard.Proofs.Chain.Detected
import HashBoard.Proofs.Work.SinkLog
import HashBoard.Chain.Scan

/-!
# The log of the results

Each result frame that a scan hears complete leaves it in one way: its checksum is wrong, nothing
is known of its chip or slot, its chip is not active, its slot is empty, or its nonce goes to the
sink. The frames and their ways out make a log, of which this module keeps the counts.
-/

namespace HashBoard

open Bus Wire

/-! ### Ways out -/

inductive Exit where
  | spoilt
  | dropped
  | stale (chip : UInt8)
  | judged (work : Work) (chip : UInt8) (nonce : UInt32) (accepted : Bool)

structure Handled where
  frame : Bytes
  exit : Exit

/-- A frame with the right checksum, and what it says. -/
structure Reads (frame : Bytes) (result : FoundNonce) : Prop where
  isSealed : Wire.isSealed frame = true
  decoded : FoundNonce.decode (Bytes.toVector 10 frame) = .ok result

/-- The ways out that are open to a frame, given the chips of the chain. -/
inductive Leaves (chips : List Chip) (frame : Bytes) : Exit → Prop
  | spoilt (hseal : isSealed frame = false) : Leaves chips frame .spoilt
  | unknownChip {result : FoundNonce} (hread : Reads frame result)
    (hchip : ∀ chip ∈ chips, chip.id ≠ result.chip) : Leaves chips frame .dropped
  | noSlot {result : FoundNonce} (hread : Reads frame result)
    (hslot : ¬(1 ≤ result.slot.toNat ∧ result.slot.toNat ≤ 4)) : Leaves chips frame .dropped
  | idleChip {result : FoundNonce} {chip : Chip} (hread : Reads frame result)
    (hchip : chip ∈ chips ∧ chip.id = result.chip) (hidle : chip.condition.isActive = false) :
    Leaves chips frame .dropped
  | stale {result : FoundNonce} {chip : Chip} (hread : Reads frame result)
    (hchip : chip ∈ chips ∧ chip.id = result.chip) (hactive : chip.condition.isActive = true)
    (hslot : 1 ≤ result.slot.toNat ∧ result.slot.toNat ≤ 4)
    (hwork : chip.slots.get? result.slot = none) : Leaves chips frame (.stale result.chip)
  | judged {result : FoundNonce} {chip : Chip} {work : Work} (hread : Reads frame result)
    (hchip : chip ∈ chips ∧ chip.id = result.chip) (hactive : chip.condition.isActive = true)
    (hslot : 1 ≤ result.slot.toNat ∧ result.slot.toNat ≤ 4)
    (hwork : chip.slots.get? result.slot = some work) (accepted : Bool) :
    Leaves chips frame (.judged work result.chip result.nonce accepted)

/-- What results do not touch of a chip. -/
def Chip.withoutStats (chip : Chip) : Chip := { chip with stats := .zero }

theorem Leaves.of_withoutStats {chips chips' : List Chip} {frame : Bytes} {exit : Exit}
    (h : Leaves chips' frame exit) (hsame : chips'.map Chip.withoutStats = chips.map Chip.withoutStats) :
    Leaves chips frame exit := by
  have hback {chip : Chip} (hmem : chip ∈ chips) : ∃ chip' ∈ chips', chip'.id = chip.id := by
    have hmap := List.mem_map_of_mem hmem (f := Chip.withoutStats)
    rw [← hsame] at hmap
    obtain ⟨chip', hmem', heq⟩ := List.mem_map.1 hmap
    have hid := congrArg Chip.id heq
    exact ⟨chip', hmem', hid⟩
  have hfound {chip' : Chip} (hmem' : chip' ∈ chips') : ∃ chip ∈ chips,
      chip.id = chip'.id ∧ chip.condition = chip'.condition ∧ chip.slots = chip'.slots := by
    have hmap := List.mem_map_of_mem hmem' (f := Chip.withoutStats)
    rw [hsame] at hmap
    obtain ⟨chip, hmem, heq⟩ := List.mem_map.1 hmap
    have hid := congrArg Chip.id heq
    have hcondition := congrArg Chip.condition heq
    have hslots := congrArg Chip.slots heq
    exact ⟨chip, hmem, hid, hcondition, hslots⟩
  cases h with
  | spoilt hseal => exact .spoilt hseal
  | unknownChip hread hchip =>
    refine .unknownChip hread fun chip hmem => ?_
    obtain ⟨chip', hmem', hid⟩ := hback hmem
    rw [← hid]
    exact hchip chip' hmem'
  | noSlot hread hslot => exact .noSlot hread hslot
  | idleChip hread hchip hidle =>
    obtain ⟨chip, hmem, hid, hcondition, _⟩ := hfound hchip.1
    exact .idleChip hread ⟨hmem, hid.trans hchip.2⟩ (by rw [hcondition]; exact hidle)
  | stale hread hchip hactive hslot hwork =>
    obtain ⟨chip, hmem, hid, hcondition, hslots⟩ := hfound hchip.1
    exact .stale hread ⟨hmem, hid.trans hchip.2⟩ (by rw [hcondition]; exact hactive) hslot
      (by rw [hslots]; exact hwork)
  | judged hread hchip hactive hslot hwork accepted =>
    obtain ⟨chip, hmem, hid, hcondition, hslots⟩ := hfound hchip.1
    exact .judged hread ⟨hmem, hid.trans hchip.2⟩ (by rw [hcondition]; exact hactive) hslot
      (by rw [hslots]; exact hwork) accepted

theorem isSlot_iff {slot : UInt8} :
    JobSlots.isSlot slot = true ↔ 1 ≤ slot.toNat ∧ slot.toNat ≤ 4 := by
  unfold JobSlots.isSlot JobSlots.place?
  split <;> simp_all

/-- A result that is dropped names no chip or slot, or a chip that is not active. -/
theorem leaves_dropped {chips : List Chip} {frame : Bytes} {result : FoundNonce}
    (hnum : Numbered chips) (hread : Reads frame result)
    (hwhy : result.chip = 0 ∨ JobSlots.isSlot result.slot = false ∨
      ∀ chip ∈ chips[result.chip.toNat - 1]?, chip.condition.isActive = false) :
    Leaves chips frame .dropped := by
  by_cases hzero : result.chip = 0
  · refine .unknownChip hread ?_
    intro chip hmem
    rw [hzero]
    exact hnum.id_ne_broadcast hmem
  · rcases hwhy with h | hslot | hidle
    · exact absurd h hzero
    · refine .noSlot hread ?_
      rw [← isSlot_iff, hslot]
      exact Bool.false_ne_true
    · have hpos : result.chip.toNat ≠ 0 := fun h => hzero (UInt8.toNat_inj.1 h)
      cases hplace : chips[result.chip.toNat - 1]? with
      | none =>
        refine .unknownChip hread ?_
        intro chip hmem hid
        obtain ⟨place, hchip⟩ := List.mem_iff_getElem?.1 hmem
        have hnumber := hnum place chip hchip
        have hsame : result.chip.toNat - 1 = place := by
          rw [← hid, hnumber]
          rfl
        rw [hsame, hchip] at hplace
        cases hplace
      | some chip =>
        have hnumber := hnum _ chip hplace
        have hid : chip.id = result.chip := UInt8.toNat_inj.1 (by omega)
        exact .idleChip hread ⟨List.mem_of_getElem? hplace, hid⟩ (hidle chip hplace)

/-! ### Counts -/

/-- The counters of a chip that results raise. -/
inductive ResultCounter where
  | stales | noncesFound | hwErrors

def ResultCounter.of : ResultCounter → ChipTally → Nat
  | stales => ChipTally.stales
  | noncesFound => ChipTally.noncesFound
  | hwErrors => ChipTally.hwErrors

def ResultCounter.total (counter : ResultCounter) (chips : List Chip) : Nat :=
  chips.foldr (fun chip n => counter.of chip.stats + n) 0

def ResultCounter.reported : ResultCounter → ScanTally → Nat
  | stales => ScanTally.stale
  | noncesFound => ScanTally.submitted
  | hwErrors => ScanTally.hwErrors

namespace Exit

/-- The chip of which a counter rises. -/
def raises? : Exit → ResultCounter → Option UInt8
  | stale chip, .stales => some chip
  | judged _ chip _ true, .noncesFound => some chip
  | judged _ chip _ false, .hwErrors => some chip
  | _, _ => none

def isSpoilt : Exit → Bool
  | spoilt => true
  | _ => false

def isDropped : Exit → Bool
  | dropped => true
  | _ => false

def submission? : Exit → Option SinkEvent
  | judged work chip nonce accepted => some (.submitted work chip nonce accepted)
  | _ => none

end Exit

def spoiltIn (log : List Handled) : Nat := log.countP fun h => h.exit.isSpoilt

def droppedIn (log : List Handled) : Nat := log.countP fun h => h.exit.isDropped

def raisedIn (counter : ResultCounter) (log : List Handled) : Nat :=
  log.countP fun h => (h.exit.raises? counter).isSome

def raisedAt (counter : ResultCounter) (chip : UInt8) (log : List Handled) : Nat :=
  log.countP fun h => h.exit.raises? counter == some chip

/-- What the sink is told of the frames of a log, oldest first. -/
def submissionsOf (log : List Handled) : List SinkEvent :=
  log.filterMap fun h => h.exit.submission?

def submissionsIn (events : List SinkEvent) : List SinkEvent :=
  events.filter fun event => event.completed?.isNone

section Counts

variable (h : Handled) (log more : List Handled) (counter : ResultCounter) (chip : UInt8)

theorem spoiltIn_cons :
    spoiltIn (h :: log) = spoiltIn log + if h.exit.isSpoilt then 1 else 0 :=
  List.countP_cons

theorem droppedIn_cons :
    droppedIn (h :: log) = droppedIn log + if h.exit.isDropped then 1 else 0 :=
  List.countP_cons

theorem raisedIn_cons : raisedIn counter (h :: log) =
    raisedIn counter log + if (h.exit.raises? counter).isSome then 1 else 0 :=
  List.countP_cons

theorem raisedAt_singleton :
    raisedAt counter chip [h] = if h.exit.raises? counter == some chip then 1 else 0 :=
  List.countP_singleton

theorem spoiltIn_append : spoiltIn (log ++ more) = spoiltIn log + spoiltIn more :=
  List.countP_append

theorem droppedIn_append : droppedIn (log ++ more) = droppedIn log + droppedIn more :=
  List.countP_append

theorem raisedIn_append :
    raisedIn counter (log ++ more) = raisedIn counter log + raisedIn counter more :=
  List.countP_append

theorem raisedAt_append :
    raisedAt counter chip (log ++ more) = raisedAt counter chip log + raisedAt counter chip more :=
  List.countP_append

/-- Every frame is counted once. -/
theorem length_eq_counts : log.length =
    spoiltIn log + droppedIn log + raisedIn .stales log + raisedIn .noncesFound log +
      raisedIn .hwErrors log := by
  induction log with
  | nil => rfl
  | cons h log ih =>
    obtain ⟨frame, exit⟩ := h
    simp only [List.length_cons, spoiltIn_cons, droppedIn_cons, raisedIn_cons]
    rcases exit with _ | _ | _ | ⟨_, _, _, _ | _⟩ <;>
      simp [Exit.isSpoilt, Exit.isDropped, Exit.raises?] <;> omega

theorem submissionsOf_cons :
    submissionsOf (h :: log) = h.exit.submission?.toList ++ submissionsOf log := by
  rw [submissionsOf, List.filterMap_cons]
  cases h.exit.submission? with
  | none => rfl
  | some event => rfl

theorem submissionsOf_append :
    submissionsOf (log ++ more) = submissionsOf log ++ submissionsOf more :=
  List.filterMap_append

theorem length_submissionsOf :
    (submissionsOf log).length = raisedIn .noncesFound log + raisedIn .hwErrors log := by
  induction log with
  | nil => rfl
  | cons h log ih =>
    obtain ⟨frame, exit⟩ := h
    rw [submissionsOf_cons, List.length_append, ih, raisedIn_cons, raisedIn_cons]
    rcases exit with _ | _ | _ | ⟨_, _, _, _ | _⟩ <;>
      simp [Exit.submission?, Exit.raises?] <;> omega

end Counts

theorem total_nil (counter : ResultCounter) : counter.total [] = 0 := rfl

theorem total_cons (counter : ResultCounter) (chip : Chip) (chips : List Chip) :
    counter.total (chip :: chips) = counter.of chip.stats + counter.total chips := rfl

theorem total_append_cons (counter : ResultCounter) (before after : List Chip) (chip : Chip) :
    counter.total (before ++ chip :: after) =
      counter.total before + counter.of chip.stats + counter.total after := by
  induction before with
  | nil => rw [List.nil_append, total_cons, total_nil, Nat.zero_add]
  | cons first rest ih =>
    rw [List.cons_append, total_cons, total_cons, ih]
    omega

theorem Sink.Returned.submissionsIn_eq {sink after : Sink} (h : sink.Returned after) :
    submissionsIn after.events = submissionsIn sink.events := by
  obtain ⟨back, hback, heq⟩ := h
  have hnone : submissionsIn back = [] := by
    apply List.filter_eq_nil_iff.2
    intro event hevent
    rw [Option.isNone_iff_eq_none, ← Option.not_isSome_iff_eq_none, hback event hevent]
    exact fun hnot => hnot rfl
  rw [heq, submissionsIn, List.filter_append]
  exact congrArg (· ++ submissionsIn sink.events) hnone

/-- A report before and after the frames of a log. -/
structure Reports (log : List Handled) (r r' : ScanTally) : Prop where
  crcErrors : r'.crcErrors = r.crcErrors + spoiltIn log
  dropped : r'.dropped = r.dropped + droppedIn log
  counters : ∀ counter : ResultCounter,
    counter.reported r' = counter.reported r + raisedIn counter log
  results : r'.results + r'.crcErrors = r.results + r.crcErrors + log.length

/-- A chip before and after the frames of a log. -/
structure Chip.Credited (log : List Handled) (old new : Chip) : Prop where
  id : new.id = old.id
  counters : ∀ counter : ResultCounter,
    counter.of new.stats = counter.of old.stats + raisedAt counter old.id log

theorem Reports.refl (r : ScanTally) : Reports [] r r := ⟨rfl, rfl, fun _ => rfl, rfl⟩

theorem Chip.Credited.refl (chip : Chip) : Chip.Credited [] chip chip := ⟨rfl, fun _ => rfl⟩

end HashBoard
