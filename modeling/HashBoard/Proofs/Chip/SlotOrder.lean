import HashBoard.Proofs.Chip.SlotReuse

/-!
# The order of the slots

What the slots hold that were only filled since they were empty: the last four items, from the slot
behind the cursor backwards. The item under the cursor is the fourth latest one.
-/

namespace HashBoard.JobSlots

variable {α : Type}

/-- The slots after the given items, latest first, took them in turn. -/
def filledWith : List α → JobSlots α
  | [] => empty
  | item :: older => (filledWith older).reuse item

theorem cursor_filledWith (items : List α) :
    (filledWith items).cursor.val = items.length % 4 := by
  induction items with
  | nil => rfl
  | cons item older ih =>
    show ((filledWith older).cursor + 1).val = (older.length + 1) % 4
    rw [Fin.val_add, ih]
    show (older.length % 4 + 1) % 4 = (older.length + 1) % 4
    omega

theorem slotAt_filledWith (items : List α) :
    slotAt (filledWith items).cursor = UInt8.ofNat (items.length % 4 + 1) := by
  rw [slotAt, cursor_filledWith]

theorem get_empty (place : Fin 4) : (empty : JobSlots α).slots.get place = none :=
  Vector.getElem_replicate place.isLt

theorem get_reuse_self (t : JobSlots α) (item : α) :
    (t.reuse item).slots.get t.cursor = some item :=
  get_set_self ..

theorem get_reuse_of_ne (t : JobSlots α) (item : α) {place : Fin 4} (h : t.cursor ≠ place) :
    (t.reuse item).slots.get place = t.slots.get place :=
  get_set_of_ne _ _ h

theorem step_back (cursor : Fin 4) (back : Fin 3) :
    cursor + 1 - 1 - back.succ = cursor - 1 - back.castSucc ∧
      cursor ≠ cursor - 1 - back.castSucc := by
  revert cursor back
  decide

theorem stay_back (cursor : Fin 4) : cursor + 1 - 1 - 0 = cursor ∧ cursor - 1 - 3 = cursor := by
  revert cursor
  decide

/-- The item put in `back` turns before the latest one is that many slots behind it. -/
theorem get_filledWith (items : List α) (back : Fin 4) :
    (filledWith items).slots.get ((filledWith items).cursor - 1 - back) = items[back.val]? := by
  induction items generalizing back with
  | nil => exact get_empty _
  | cons item older ih =>
    show ((filledWith older).reuse item).slots.get ((filledWith older).cursor + 1 - 1 - back) = _
    generalize filledWith older = t at ih ⊢
    rcases Fin.eq_zero_or_eq_succ back with rfl | ⟨back, rfl⟩
    · rw [(stay_back t.cursor).1, get_reuse_self]
      rfl
    · obtain ⟨hplace, hne⟩ := step_back t.cursor back
      rw [hplace, get_reuse_of_ne _ _ hne, ih]
      rfl

theorem current?_filledWith (items : List α) : (filledWith items).current? = items[3]? := by
  have hget := get_filledWith items 3
  rw [(stay_back _).2] at hget
  exact hget

end HashBoard.JobSlots
