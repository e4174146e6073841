import HashBoard.Proofs.Thermal.Readings
import HashBoard.Thermal.Schedule
import Mathlib.Data.List.DropRight

/-!
# The history of a sampling schedule

What a schedule knows is read off the calls that were made to it. A full pass sums up the readings
recorded since the full pass before it ended and no earlier ones, and the representative is a chip
that the full pass ended last recorded. A quick pass moves what is known and forgets none of it.
-/

namespace HashBoard.Thermal

/-! ### Representatives -/

variable {mean : Float32} {readings : List (UInt8 × Float32)}

theorem isSome_typical? : (typical? mean readings).isSome = !readings.isEmpty := by
  cases readings with
  | nil => rfl
  | cons sample rest =>
    unfold typical?
    cases typical? mean rest with
    | none => rfl
    | some other =>
      simp only
      split <;> rfl

theorem mem_of_typical? {reading : UInt8 × Float32} (h : typical? mean readings = some reading) :
    reading ∈ readings := by
  induction readings with
  | nil => cases h
  | cons sample rest ih =>
    unfold typical? at h
    cases hrest : typical? mean rest with
    | none =>
      rw [hrest] at h
      obtain rfl := Option.some.inj h
      exact List.mem_cons_self
    | some other =>
      rw [hrest] at h
      simp only at h
      split at h
      · obtain rfl := Option.some.inj h
        exact List.mem_cons_self
      · exact List.mem_cons_of_mem _ (ih (hrest.trans h))

theorem Statistics.isSome_ofReadings? (readings : List Float32) (trim : Float32) :
    (ofReadings? readings trim).isSome = !readings.isEmpty := by
  cases readings with
  | nil =>
    unfold ofReadings? ofBits? sorted
    rw [List.map_nil, List.mergeSort_nil]
    rfl
  | cons reading rest =>
    obtain ⟨stats, hstats, _⟩ := ofReadings?_of_mem (List.mem_cons_self (a := reading) (l := rest)) trim
    rw [hstats]
    rfl

namespace Schedule

/-! ### Calls -/

inductive Call where
  | record (chip : UInt8) (celsius : Float32)
  | endFull (now : Nat)
  | endQuick (now : Nat) (celsius : Option Float32)

def Call.isEndFull : Call → Bool
  | .endFull _ => true
  | _ => false

def Call.reading? : Call → Option (UInt8 × Float32)
  | .record chip celsius => some (chip, celsius)
  | _ => none

def call (s : Schedule) : Call → Schedule
  | .record chip celsius => s.record chip celsius
  | .endFull now => (s.endFull now).2
  | .endQuick now celsius => (s.endQuick now celsius).2

def calls (s : Schedule) (cs : List Call) : Schedule := cs.foldl call s

/-- The readings recorded since a full pass ended last. -/
def current (cs : List Call) : List (UInt8 × Float32) :=
  (cs.rtakeWhile fun c => !c.isEndFull).filterMap Call.reading?

/-- The readings recorded in the full pass that ended last. -/
def completed (cs : List Call) : List (UInt8 × Float32) :=
  current (cs.rdropWhile fun c => !c.isEndFull).dropLast

variable {cs : List Call}

theorem current_endFull (cs : List Call) (now : Nat) : current (cs ++ [.endFull now]) = [] := by
  unfold current
  rw [List.rtakeWhile_concat_neg _ _ _ Bool.false_ne_true]
  rfl

theorem current_snoc {c : Call} (h : c.isEndFull = false) :
    current (cs ++ [c]) = current cs ++ c.reading?.toList := by
  unfold current
  rw [List.rtakeWhile_concat_pos _ _ _ (by rw [h]; rfl), List.filterMap_append]
  rfl

theorem completed_endFull (cs : List Call) (now : Nat) :
    completed (cs ++ [.endFull now]) = current cs := by
  unfold completed
  rw [List.rdropWhile_concat_neg _ _ _ Bool.false_ne_true, List.dropLast_concat]

theorem completed_snoc {c : Call} (h : c.isEndFull = false) :
    completed (cs ++ [c]) = completed cs := by
  unfold completed
  rw [List.rdropWhile_concat_pos _ _ _ (by rw [h]; rfl)]

/-- Only what was recorded can have been recorded in a pass. -/
theorem record_of_mem_completed {chip : UInt8} {celsius : Float32}
    (h : (chip, celsius) ∈ completed cs) : .record chip celsius ∈ cs := by
  obtain ⟨c, hc, hreading⟩ := List.mem_filterMap.1 h
  have hmem : c ∈ cs :=
    (List.rdropWhile_prefix _ cs).subset (List.dropLast_subset _
      ((List.rtakeWhile_suffix _ _).subset hc))
  cases c with
  | record _ _ =>
    obtain ⟨rfl, rfl⟩ := Prod.mk.inj (Option.some.inj hreading)
    exact hmem
  | endFull _ | endQuick _ _ => cases hreading

theorem calls_append (s : Schedule) (cs cs' : List Call) :
    s.calls (cs ++ cs') = (s.calls cs).calls cs' := List.foldl_append

theorem calls_record (s : Schedule) (readings : List (UInt8 × Float32)) :
    s.calls (readings.map fun reading => .record reading.1 reading.2) =
      { s with readings := s.readings ++ readings } := by
  induction readings generalizing s with
  | nil =>
    rw [List.append_nil]
    rfl
  | cons reading rest ih =>
    refine (ih (s.record reading.1 reading.2)).trans ?_
    unfold record
    rw [List.append_assoc]
    rfl

/-! ### Quick passes -/

theorem due_eq_quick {s : Schedule} {now : Nat} {chip : UInt8}
    (h : s.due now = some (.quick chip)) : ∃ celsius, s.typical = some (chip, celsius) := by
  unfold due at h
  split at h
  · cases h
  · split at h
    · cases h
    · rename_i htypical
      split at h
      · cases h
        exact ⟨_, htypical⟩
      · cases h

theorem endQuick_of_failed (s : Schedule) (now : Nat) :
    s.endQuick now none = (none, { s with lastQuick := some now }) := by
  unfold endQuick
  cases s.typical <;> rfl

theorem endQuick_cases (s : Schedule) (now : Nat) (celsius : Option Float32) :
    s.endQuick now celsius = (none, { s with lastQuick := some now }) ∨
      ∃ chip previous reading, s.typical = some (chip, previous) ∧
        let moved := s.stats.map fun stats => stats.movedBy (reading - previous)
        s.endQuick now celsius = (moved,
          { s with lastQuick := some now, stats := moved, typical := some (chip, reading) }) := by
  cases celsius with
  | none => exact .inl (s.endQuick_of_failed now)
  | some reading =>
    unfold endQuick
    cases htypical : s.typical with
    | none => exact .inl rfl
    | some sample => exact .inr ⟨sample.1, sample.2, reading, rfl, rfl⟩

theorem endQuick_keeps (s : Schedule) (now : Nat) (celsius : Option Float32) :
    (s.endQuick now celsius).2.readings = s.readings ∧
      (s.endQuick now celsius).2.trim = s.trim := by
  rcases s.endQuick_cases now celsius with heq | ⟨_, _, _, _, heq⟩
  · rw [heq]
    exact ⟨rfl, rfl⟩
  · rw [heq]
    exact ⟨rfl, rfl⟩

theorem trim_calls (s : Schedule) (cs : List Call) : (s.calls cs).trim = s.trim := by
  induction cs generalizing s with
  | nil => rfl
  | cons c rest ih =>
    refine (ih (s.call c)).trans ?_
    cases c with
    | record _ _ | endFull _ => rfl
    | endQuick now celsius => exact (s.endQuick_keeps now celsius).2

/-! ### What a schedule knows -/

/-- A schedule to which some calls were made since its start. -/
structure Follows (cs : List Call) (s : Schedule) : Prop where
  readings : s.readings = current cs
  paired : s.stats.isSome = s.typical.isSome
  typical : ∀ chip celsius, s.typical = some (chip, celsius) → chip ∈ (completed cs).map Prod.fst

theorem follows_start (fullInterval quickInterval : Nat) (trim : Float32) :
    Follows [] (start fullInterval quickInterval trim) := ⟨rfl, rfl, nofun⟩

variable {s : Schedule}

/-- Nothing is left of what the schedule knew before. -/
theorem Follows.endFull (h : s.readings = current cs) (now : Nat) :
    Follows (cs ++ [.endFull now]) (s.endFull now).2 := by
  constructor
  · rw [current_endFull]
    rfl
  · show (Statistics.ofReadings? (s.readings.map Prod.snd) s.trim).isSome =
      ((Statistics.ofReadings? (s.readings.map Prod.snd) s.trim).bind fun t =>
        typical? t.mean s.readings).isSome
    have hsome := Statistics.isSome_ofReadings? (s.readings.map Prod.snd) s.trim
    rw [List.isEmpty_map] at hsome
    cases hstats : Statistics.ofReadings? (s.readings.map Prod.snd) s.trim with
    | none => rfl
    | some stats =>
      rw [hstats] at hsome
      exact hsome.trans isSome_typical?.symm
  · intro chip celsius htypical
    obtain ⟨stats, _, hclosest⟩ := Option.bind_eq_some_iff.1 htypical
    rw [completed_endFull, ← h]
    exact List.mem_map_of_mem (mem_of_typical? hclosest)

theorem Follows.endQuick (h : Follows cs s) (now : Nat) (celsius : Option Float32) :
    Follows (cs ++ [.endQuick now celsius]) (s.endQuick now celsius).2 := by
  have hcurrent : current (cs ++ [.endQuick now celsius]) = current cs :=
    (current_snoc rfl).trans (List.append_nil _)
  have hcompleted : completed (cs ++ [.endQuick now celsius]) = completed cs := completed_snoc rfl
  rcases s.endQuick_cases now celsius with heq | ⟨chip, previous, reading, htypical, heq⟩
  · rw [heq]
    exact ⟨h.readings.trans hcurrent.symm, h.paired, hcompleted.symm ▸ h.typical⟩
  · rw [heq]
    refine ⟨h.readings.trans hcurrent.symm, ?_, ?_⟩
    · have hpaired := h.paired
      rw [htypical] at hpaired
      exact Option.isSome_map.trans hpaired
    · -- The representative stays, with a new reading.
      intro chip' celsius' hsame
      obtain ⟨rfl, -⟩ := Prod.mk.inj (Option.some.inj hsame)
      rw [hcompleted]
      exact h.typical chip previous htypical

theorem Follows.call (h : Follows cs s) (c : Call) : Follows (cs ++ [c]) (s.call c) := by
  cases c with
  | record chip celsius =>
    have hcompleted : completed (cs ++ [.record chip celsius]) = completed cs := completed_snoc rfl
    refine ⟨?_, h.paired, hcompleted.symm ▸ h.typical⟩
    rw [current_snoc rfl, ← h.readings]
    rfl
  | endFull now => exact .endFull h.readings now
  | endQuick now celsius => exact h.endQuick now celsius

theorem follows_calls (fullInterval quickInterval : Nat) (trim : Float32) (cs : List Call) :
    Follows cs ((start fullInterval quickInterval trim).calls cs) := by
  induction cs using List.reverseRecOn with
  | nil => exact follows_start fullInterval quickInterval trim
  | append_singleton cs c ih =>
    rw [calls_append]
    exact ih.call c

theorem endFull_calls (fullInterval quickInterval : Nat) (trim : Float32) (cs : List Call)
    (now : Nat) : (((start fullInterval quickInterval trim).calls cs).endFull now).1 =
      Statistics.ofReadings? ((current cs).map Prod.snd) trim := by
  rw [← (follows_calls fullInterval quickInterval trim cs).readings]
  exact congrArg (Statistics.ofReadings? _) (trim_calls _ cs)

end Schedule

end HashBoard.Thermal
