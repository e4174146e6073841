import HashBoard.Proofs.Chip.SlotReuse

/-!
# The ledger of the slots

The slots of a chip under calls in any order, with any slot numbers and any items. Of the items that
were taken in, each is handed out again or still held, and none twice. What a single call does is
known in every state that such calls reach.
-/

namespace HashBoard.JobSlots

variable {α : Type}

/-! ### Calls -/

inductive Call (α : Type) where
  | release
  | giveBack (item : α)
  | firstFree
  | put (slot : UInt8) (item : α)
  | drain

inductive Answer (α : Type) where
  | released (item : Option α)
  | stored
  | refused (item : α)
  | free (slot : UInt8)
  | exhausted (slots : Nat)
  | drained (items : List α)

/-- The answer to an item that was brought, which comes back if it is not taken. -/
def Answer.ofBrought : Except α Unit → Answer α
  | .ok () => .stored
  | .error item => .refused item

def call (t : JobSlots α) : Call α → Answer α × JobSlots α
  | .release => (.released t.release.1, t.release.2)
  | .giveBack item => (.ofBrought (t.giveBack item).1, (t.giveBack item).2)
  | .firstFree => (t.firstFree?.elim (.exhausted 4) .free, t)
  | .put slot item => (.ofBrought (t.put slot item).1, (t.put slot item).2)
  | .drain => (.drained t.drain.1, t.drain.2)

/-- Calls made one after the other, each with its answer, and the slots after the last one. -/
def calls (t : JobSlots α) : List (Call α) → List (Call α × Answer α) × JobSlots α
  | [] => ([], t)
  | c :: rest =>
    let later := (t.call c).2.calls rest
    ((c, (t.call c).1) :: later.1, later.2)

/-- The item that a call brought, if it was taken. -/
def takenIn : Call α × Answer α → List α
  | (.giveBack item, .stored) => [item]
  | (.put _ item, .stored) => [item]
  | _ => []

def handedOut : Call α × Answer α → List α
  | (_, .released item) => item.toList
  | (_, .drained items) => items
  | _ => []

/-! ### Single calls -/

variable (t : JobSlots α)

theorem call_giveBack (item : α) :
    ((∃ held, t.slots.get t.cursor = some held) ∧ t.call (.giveBack item) = (.refused item, t)) ∨
      (t.slots.get t.cursor = none ∧ t.call (.giveBack item) =
        (.stored, ⟨t.slots.set t.cursor (some item) t.cursor.isLt, t.cursor⟩)) := by
  unfold call giveBack
  cases t.slots.get t.cursor with
  | none => exact .inr ⟨rfl, rfl⟩
  | some held => exact .inl ⟨⟨held, rfl⟩, rfl⟩

theorem put_cases (slot : UInt8) (item : α) :
    ((∀ place, slotAt place = slot → ∃ held, t.slots.get place = some held) ∧
        t.put slot item = (.error item, t)) ∨
      ∃ place, slotAt place = slot ∧ t.slots.get place = none ∧
        t.put slot item = (.ok (), ⟨t.slots.set place (some item) place.isLt, place + 1⟩) := by
  unfold put
  cases hplace : place? slot with
  | none =>
    refine .inl ⟨fun place h => ?_, rfl⟩
    rw [place?_eq_some.2 h] at hplace
    cases hplace
  | some place =>
    rw [place?_eq_some] at hplace
    cases hget : t.slots.get place with
    | none =>
      refine .inr ⟨place, hplace, hget, ?_⟩
      simp only [hget]
    | some held =>
      refine .inl ⟨fun other h => ?_, ?_⟩
      · rw [slotAt_injective (h.trans hplace.symm)]
        exact ⟨held, hget⟩
      · simp only [hget]

theorem call_put (slot : UInt8) (item : α) :
    ((∀ place, slotAt place = slot → ∃ held, t.slots.get place = some held) ∧
        t.call (.put slot item) = (.refused item, t)) ∨
      ∃ place, slotAt place = slot ∧ t.slots.get place = none ∧
        t.call (.put slot item) =
          (.stored, ⟨t.slots.set place (some item) place.isLt, place + 1⟩) := by
  unfold call
  rcases t.put_cases slot item with ⟨hheld, hput⟩ | ⟨place, hplace, hfree, hput⟩
  · simp only [hput]
    exact .inl ⟨hheld, rfl⟩
  · simp only [hput]
    exact .inr ⟨place, hplace, hfree, rfl⟩

theorem call_giveBack_stored_iff (item : α) :
    (t.call (.giveBack item)).1 = .stored ↔ t.slots.get t.cursor = none := by
  rcases t.call_giveBack item with ⟨⟨held, hheld⟩, hcall⟩ | ⟨hfree, hcall⟩
  · simp [hcall, hheld]
  · simp [hcall, hfree]

theorem call_put_stored_iff (slot : UInt8) (item : α) : (t.call (.put slot item)).1 = .stored ↔
    ∃ place, slotAt place = slot ∧ t.slots.get place = none := by
  rcases t.call_put slot item with ⟨hheld, hcall⟩ | ⟨place, hplace, hfree, hcall⟩
  · rw [hcall]
    refine iff_of_false (fun h => by cases h) ?_
    rintro ⟨place, hplace, hfree⟩
    obtain ⟨held, hget⟩ := hheld place hplace
    rw [hfree] at hget
    cases hget
  · rw [hcall]
    exact iff_of_true rfl ⟨place, hplace, hfree⟩

/-! ### Free slots -/

theorem getElem_fromCursor (offset : Fin 4) (h : offset.val < t.fromCursor.length) :
    t.fromCursor[offset.val] = t.cursor + offset := by
  have hall : ∀ cursor offset : Fin 4,
      [cursor, cursor + 1, cursor + 2, cursor + 3][offset.val]? = some (cursor + offset) := by
    decide
  exact (List.getElem?_eq_some_iff.1 (hall t.cursor offset)).2

theorem mem_fromCursor (place : Fin 4) : place ∈ t.fromCursor := by
  unfold fromCursor
  generalize t.cursor = cursor
  revert place cursor
  decide

/-- The slot found is the first free one in the turn that starts at the cursor. -/
theorem firstFree?_eq_some_iff (slot : UInt8) : t.firstFree? = some slot ↔
    ∃ offset : Fin 4, slotAt (t.cursor + offset) = slot ∧
      t.slots.get (t.cursor + offset) = none ∧
      ∀ earlier < offset, ∃ held, t.slots.get (t.cursor + earlier) = some held := by
  unfold firstFree?
  simp only [Option.map_eq_some_iff, List.find?_eq_some_iff_getElem, Option.isNone_iff_eq_none,
    Bool.not_eq_true', Option.isNone_eq_false_iff, Option.isSome_iff_exists]
  constructor
  · rintro ⟨place, ⟨hfree, i, hi, hplace, hearlier⟩, hslot⟩
    have hoffset : t.cursor + ⟨i, hi⟩ = place := (t.getElem_fromCursor ⟨i, hi⟩ hi).symm.trans hplace
    rw [← hoffset] at hfree hslot
    refine ⟨⟨i, hi⟩, hslot, hfree, fun earlier hlt => ?_⟩
    rw [← t.getElem_fromCursor earlier earlier.isLt]
    exact hearlier earlier.val hlt
  · rintro ⟨offset, hslot, hfree, hearlier⟩
    refine ⟨_, ⟨hfree, offset.val, offset.isLt, t.getElem_fromCursor offset offset.isLt, ?_⟩, hslot⟩
    intro j hj
    rw [t.getElem_fromCursor ⟨j, Nat.lt_trans hj offset.isLt⟩]
    exact hearlier _ hj

theorem firstFree?_eq_none_iff :
    t.firstFree? = none ↔ ∀ place, ∃ held, t.slots.get place = some held := by
  unfold firstFree?
  rw [Option.map_eq_none_iff, List.find?_eq_none]
  simp [mem_fromCursor, ← Option.ne_none_iff_exists']

theorem call_firstFree_eq_free (slot : UInt8) :
    (t.call .firstFree).1 = .free slot ↔ t.firstFree? = some slot := by
  unfold call
  cases t.firstFree? <;> simp

theorem call_firstFree_eq_exhausted :
    (t.call .firstFree).1 = .exhausted 4 ↔ t.firstFree? = none := by
  unfold call
  cases t.firstFree? <;> simp

/-- A slot that was found free takes any item, and holds it then. -/
theorem call_put_of_free {slot : UInt8} (h : (t.call .firstFree).1 = .free slot) (item : α) :
    (t.call (.put slot item)).1 = .stored ∧
      (t.call (.put slot item)).2.get? slot = some item := by
  rw [call_firstFree_eq_free, firstFree?_eq_some_iff] at h
  obtain ⟨offset, hslot, hfree, _⟩ := h
  have hstored := (t.call_put_stored_iff slot item).2 ⟨_, hslot, hfree⟩
  refine ⟨hstored, ?_⟩
  rcases t.call_put slot item with ⟨_, hcall⟩ | ⟨place, hplace, _, hcall⟩
  · rw [hcall] at hstored
    cases hstored
  · rw [hcall, get?_eq_some]
    exact ⟨place, hplace, get_set_self ..⟩

/-! ### Taking items -/

theorem toList_eq : t.toList = [0, 1, 2, 3].filterMap t.slots.get := by
  have hslots : t.slots.toList = [0, 1, 2, 3].map t.slots.get := by
    apply List.ext_getElem
    · rw [Vector.length_toList]
      rfl
    · intro place hplace hlength
      rw [Vector.getElem_toList]
      match place, hlength with
      | 0, _ | 1, _ | 2, _ | 3, _ => rfl
  rw [toList, hslots, List.filterMap_map]
  rfl

theorem get_call_release (place : Fin 4) : (t.call .release).2.slots.get place =
    if place = t.cursor then none else t.slots.get place := by
  by_cases hplace : place = t.cursor
  · rw [if_pos hplace, hplace]
    exact t.get_release
  · rw [if_neg hplace]
    exact get_set_of_ne _ _ (Ne.symm hplace)

/-! ### The ledger -/

/-- What a call takes in and what was held before it is what it hands out and what is held after it. -/
theorem call_balanced (c : Call α) :
    (takenIn (c, (t.call c).1) ++ t.toList).Perm
      (handedOut (c, (t.call c).1) ++ (t.call c).2.toList) := by
  cases c with
  | release => exact (t.toList_set t.cursor none t.cursor).symm
  | giveBack item =>
    rcases t.call_giveBack item with ⟨_, hcall⟩ | ⟨hfree, hcall⟩
    · rw [hcall]
      exact .refl _
    · have hset := t.toList_set t.cursor (some item) t.cursor
      rw [hfree] at hset
      rw [hcall]
      exact hset.symm
  | firstFree =>
    unfold call
    cases t.firstFree? with
    | none => exact .refl _
    | some slot => exact .refl _
  | put slot item =>
    rcases t.call_put slot item with ⟨_, hcall⟩ | ⟨place, _, hfree, hcall⟩
    · rw [hcall]
      exact .refl _
    · have hset := t.toList_set place (some item) (place + 1)
      rw [hfree] at hset
      rw [hcall]
      exact hset.symm
  | drain =>
    show t.toList.Perm (t.toList ++ [])
    rw [List.append_nil]

theorem calls_balanced (cs : List (Call α)) :
    ((t.calls cs).1.flatMap takenIn ++ t.toList).Perm
      ((t.calls cs).1.flatMap handedOut ++ (t.calls cs).2.toList) := by
  induction cs generalizing t with
  | nil => exact .refl _
  | cons c rest ih =>
    let first := (c, (t.call c).1)
    let next := (t.call c).2
    let later := (next.calls rest).1
    let last := (next.calls rest).2
    show (takenIn first ++ later.flatMap takenIn ++ t.toList).Perm
      (handedOut first ++ later.flatMap handedOut ++ last.toList)
    rw [List.append_assoc, List.append_assoc]
    calc (takenIn first ++ (later.flatMap takenIn ++ t.toList)).Perm
          (later.flatMap takenIn ++ (takenIn first ++ t.toList)) := List.perm_append_comm_assoc ..
      _ |>.Perm (later.flatMap takenIn ++ (handedOut first ++ next.toList)) :=
          (t.call_balanced c).append_left _
      _ |>.Perm (handedOut first ++ (later.flatMap takenIn ++ next.toList)) :=
          List.perm_append_comm_assoc ..
      _ |>.Perm (handedOut first ++ (later.flatMap handedOut ++ last.toList)) :=
          (ih next).append_left _

/-- The slots after any calls since they were empty. Every item that was taken in has been handed out
or is still held, and nothing else has. The slot found free is the first one in the turn from the
cursor, and there is none only when all are occupied; it takes the next item. An item is refused
only by a slot that is occupied or does not exist, it is handed back, and the slots stay as they
are. A release hands out what is under the cursor and frees that slot alone; draining hands out
everything by rising slot and leaves the slots empty. -/
theorem slots_keep_account (cs : List (Call α)) :
    let log := ((empty : JobSlots α).calls cs).1
    let t := ((empty : JobSlots α).calls cs).2
    (log.flatMap takenIn).Perm (log.flatMap handedOut ++ t.toList) ∧
    (∀ slot, (t.call .firstFree).1 = .free slot ↔
      ∃ offset : Fin 4, slotAt (t.cursor + offset) = slot ∧
        t.slots.get (t.cursor + offset) = none ∧
        ∀ earlier < offset, ∃ held, t.slots.get (t.cursor + earlier) = some held) ∧
    ((t.call .firstFree).1 = .exhausted 4 ↔
      ∀ place, ∃ held, t.slots.get place = some held) ∧
    (t.call .firstFree).2 = t ∧
    (∀ slot item, (t.call .firstFree).1 = .free slot →
      (t.call (.put slot item)).1 = .stored ∧
      (t.call (.put slot item)).2.get? slot = some item) ∧
    (∀ item, (t.call (.giveBack item)).1 = .stored ↔ t.slots.get t.cursor = none) ∧
    (∀ slot item, (t.call (.put slot item)).1 = .stored ↔
      ∃ place, slotAt place = slot ∧ t.slots.get place = none) ∧
    (∀ item, (t.call (.giveBack item)).1 ≠ .stored →
      t.call (.giveBack item) = (.refused item, t)) ∧
    (∀ slot item, (t.call (.put slot item)).1 ≠ .stored →
      t.call (.put slot item) = (.refused item, t)) ∧
    ((t.call .release).1 = .released (t.slots.get t.cursor) ∧
      (t.call .release).2.cursor = t.cursor ∧
      ∀ place, (t.call .release).2.slots.get place =
        if place = t.cursor then none else t.slots.get place) ∧
    t.call .drain = (.drained ([0, 1, 2, 3].filterMap t.slots.get), empty) := by
  intro log t
  have hbalanced := (empty : JobSlots α).calls_balanced cs
  rw [toList_empty, List.append_nil] at hbalanced
  refine ⟨hbalanced, fun slot => ?_, ?_, rfl, fun slot item h => t.call_put_of_free h item,
    t.call_giveBack_stored_iff, t.call_put_stored_iff, fun item h => ?_, fun slot item h => ?_,
    ⟨rfl, rfl, t.get_call_release⟩, ?_⟩
  · rw [call_firstFree_eq_free, firstFree?_eq_some_iff]
  · rw [call_firstFree_eq_exhausted, firstFree?_eq_none_iff]
  · rcases t.call_giveBack item with ⟨_, hcall⟩ | ⟨_, hcall⟩
    · exact hcall
    · rw [hcall] at h
      exact absurd rfl h
  · rcases t.call_put slot item with ⟨_, hcall⟩ | ⟨_, _, _, hcall⟩
    · exact hcall
    · rw [hcall] at h
      exact absurd rfl h
  · rw [← toList_eq]
    rfl

end HashBoard.JobSlots
