import HashBoard.Chip.JobSlots

/-!
# Using a slot again

What becomes of the slots of a chip when the job under the cursor is released: it can be put back,
which changes nothing, or a new one takes its place. There is always room under the cursor, and no
other slot is touched.
-/

namespace HashBoard.JobSlots

variable {α : Type} (t : JobSlots α)

/-! ### Slot numbers -/

theorem place?_eq_some {slot : UInt8} {place : Fin 4} :
    place? slot = some place ↔ slotAt place = slot := by
  constructor
  · intro h
    unfold place? at h
    split at h
    case isTrue hslot =>
      obtain rfl := Option.some.inj h
      apply UInt8.toNat_inj.1
      rw [slotAt, UInt8.toNat_ofNat']
      show (slot.toNat - 1 + 1) % 256 = slot.toNat
      omega
    case isFalse => cases h
  · intro h
    rw [← h, place?_slotAt]

theorem slotAt_injective {place other : Fin 4} (h : slotAt place = slotAt other) :
    place = other := by
  have hplace := place?_slotAt place
  rw [h, place?_slotAt] at hplace
  exact (Option.some.inj hplace).symm

/-! ### Releasing the slot under the cursor -/

theorem get_release : t.release.2.slots.get t.release.2.cursor = none :=
  get_set_self ..

theorem firstFree?_release : t.release.2.firstFree? = some (slotAt t.cursor) := by
  have hfree : (t.release.2.slots.get t.cursor).isNone = true :=
    congrArg Option.isNone t.get_release
  rw [firstFree?, fromCursor]
  show Option.map slotAt (List.find? _ (t.cursor :: _)) = _
  rw [List.find?_cons, hfree]
  rfl

theorem giveBack_release {item : α} (h : t.current? = some item) :
    t.release.2.giveBack item = (.ok (), t) := by
  have hback : (t.slots.set t.cursor none).set t.cursor (some item) = t.slots := by
    rw [Vector.set_set, ← h]
    exact Vector.set_getElem_self t.cursor.isLt
  unfold giveBack
  rw [get_release]
  show (Except.ok (), ({ slots := (t.slots.set t.cursor none).set t.cursor (some item),
                         cursor := t.cursor } : JobSlots α)) = (.ok (), t)
  rw [hback]

theorem release_eq_self (h : t.current? = none) : t.release.2 = t := by
  have hset : t.slots.set t.cursor none = t.slots := by
    rw [← h]
    exact Vector.set_getElem_self t.cursor.isLt
  show { t with slots := t.slots.set t.cursor none } = t
  rw [hset]

theorem put_release (item : α) :
    t.release.2.put (slotAt t.cursor) item = (.ok (), t.reuse item) := by
  have hfree : t.release.2.slots.get t.cursor = none := t.get_release
  rw [put, place?_slotAt]
  simp only [hfree]
  show (Except.ok (), ({ slots := (t.slots.set t.cursor none).set t.cursor (some item),
                         cursor := t.cursor + 1 } : JobSlots α)) = (.ok (), t.reuse item)
  rw [Vector.set_set]
  rfl

/-! ### Contents -/

theorem filterMap_id_cons (a : Option α) (rest : List (Option α)) :
    (a :: rest).filterMap id = a.toList ++ rest.filterMap id := by
  cases a with
  | none => rfl
  | some item => rfl

theorem filterMap_set_perm (items : List (Option α)) (new : Option α) {place : Nat}
    (h : place < items.length) :
    (items[place].toList ++ (items.set place new).filterMap id).Perm
      (new.toList ++ items.filterMap id) := by
  induction items generalizing place with
  | nil => cases h
  | cons a rest ih =>
    cases place with
    | zero =>
      show (a.toList ++ (new :: rest).filterMap id).Perm _
      rw [filterMap_id_cons, filterMap_id_cons]
      exact List.perm_append_comm_assoc ..
    | succ place =>
      have hrest : place < rest.length := Nat.lt_of_succ_lt_succ h
      show (rest[place].toList ++ (a :: rest.set place new).filterMap id).Perm _
      rw [filterMap_id_cons, filterMap_id_cons]
      calc (rest[place].toList ++ (a.toList ++ (rest.set place new).filterMap id)).Perm
            (a.toList ++ (rest[place].toList ++ (rest.set place new).filterMap id)) :=
            List.perm_append_comm_assoc ..
        _ |>.Perm (a.toList ++ (new.toList ++ rest.filterMap id)) := (ih hrest).append_left _
        _ |>.Perm (new.toList ++ (a.toList ++ rest.filterMap id)) := List.perm_append_comm_assoc ..

/-- What a place held comes out, and what it is to hold goes in. -/
theorem toList_set (place : Fin 4) (new : Option α) (cursor : Fin 4) :
    ((t.slots.get place).toList ++
        (⟨t.slots.set place new place.isLt, cursor⟩ : JobSlots α).toList).Perm
      (new.toList ++ t.toList) := by
  have hlength : place.val < t.slots.toList.length := by
    rw [Vector.length_toList]
    exact place.isLt
  have hget : t.slots.get place = t.slots.toList[place.val] := by
    rw [Vector.getElem_toList]
    rfl
  have hset : (⟨t.slots.set place new place.isLt, cursor⟩ : JobSlots α).toList =
      (t.slots.toList.set place new).filterMap id := by
    rw [toList, Vector.toList_set]
  rw [hget, hset]
  exact filterMap_set_perm t.slots.toList new hlength

theorem toList_reuse (item : α) :
    (t.current?.toList ++ (t.reuse item).toList).Perm (item :: t.toList) :=
  t.toList_set t.cursor (some item) (t.cursor + 1)

theorem get?_eq_some {slot : UInt8} {item : α} :
    t.get? slot = some item ↔ ∃ place, slotAt place = slot ∧ t.slots.get place = some item := by
  rw [get?, Option.bind_eq_some_iff]
  simp only [place?_eq_some]

theorem get?_reuse {slot : UInt8} {item found : α} (h : (t.reuse item).get? slot = some found) :
    (slot = slotAt t.cursor ∧ found = item) ∨ (slot ≠ slotAt t.cursor ∧ t.get? slot = some found) := by
  obtain ⟨place, rfl, hget⟩ := (get?_eq_some _).1 h
  by_cases hplace : t.cursor = place
  · refine .inl ⟨congrArg slotAt hplace.symm, ?_⟩
    rw [← hplace] at hget
    have hself : (t.reuse item).slots.get t.cursor = some item := get_set_self ..
    rw [hself] at hget
    exact (Option.some.inj hget).symm
  · refine .inr ⟨fun heq => hplace (slotAt_injective heq).symm, ?_⟩
    have hother : (t.reuse item).slots.get place = t.slots.get place := get_set_of_ne _ _ hplace
    rw [hother] at hget
    exact (get?_eq_some t).2 ⟨place, rfl, hget⟩

theorem mem_toList_of_get? {slot : UInt8} {item : α} (h : t.get? slot = some item) :
    item ∈ t.toList := by
  obtain ⟨place, _, hget⟩ := (get?_eq_some t).1 h
  refine List.mem_filterMap.2 ⟨some item, ?_, rfl⟩
  rw [← hget]
  exact Vector.mem_toList_iff.2 (Vector.getElem_mem place.isLt)

theorem get?_empty (slot : UInt8) : (empty : JobSlots α).get? slot = none := by
  cases h : (empty : JobSlots α).get? slot with
  | none => rfl
  | some item => exact absurd (mem_toList_of_get? _ h) List.not_mem_nil

end HashBoard.JobSlots
