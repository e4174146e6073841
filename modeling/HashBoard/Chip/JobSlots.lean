/-!
# Job slots

A chip holds at most four jobs, in slots 1 to 4. A cursor walks the slots in order; the occupant of
the slot under the cursor is released before the slot is used again, so each slot holds at most one
job.
-/

namespace HashBoard

structure JobSlots (α : Type) where
  slots : Vector (Option α) 4
  cursor : Fin 4

namespace JobSlots

variable {α : Type}

def empty : JobSlots α where
  slots := Vector.replicate 4 none
  cursor := 0

def place? (slot : UInt8) : Option (Fin 4) :=
  if h : 1 ≤ slot.toNat ∧ slot.toNat ≤ 4 then some ⟨slot.toNat - 1, by omega⟩ else none

def slotAt (place : Fin 4) : UInt8 := UInt8.ofNat (place.val + 1)

def isSlot (slot : UInt8) : Bool := (place? slot).isSome

def release (t : JobSlots α) : Option α × JobSlots α :=
  (t.slots.get t.cursor, { t with slots := t.slots.set t.cursor none })

def current? (t : JobSlots α) : Option α := t.slots.get t.cursor

/-- The slots after an item took the slot under the cursor. -/
def reuse (t : JobSlots α) (item : α) : JobSlots α where
  slots := t.slots.set t.cursor (some item)
  cursor := t.cursor + 1

/-- Put an occupant back that `release` took. It is refused, and returned, when the slot is
occupied. -/
def giveBack (t : JobSlots α) (item : α) : Except α Unit × JobSlots α :=
  match t.slots.get t.cursor with
  | some _ => (.error item, t)
  | none => (.ok (), { t with slots := t.slots.set t.cursor (some item) })

def fromCursor (t : JobSlots α) : List (Fin 4) :=
  [t.cursor, t.cursor + 1, t.cursor + 2, t.cursor + 3]

def firstFree? (t : JobSlots α) : Option UInt8 :=
  (t.fromCursor.find? fun place => (t.slots.get place).isNone).map slotAt

/-- Put an item in a slot and move the cursor past it. It is refused, and returned, when there is no
such slot or the slot is occupied. -/
def put (t : JobSlots α) (slot : UInt8) (item : α) : Except α Unit × JobSlots α :=
  match place? slot with
  | none => (.error item, t)
  | some place =>
    match t.slots.get place with
    | some _ => (.error item, t)
    | none => (.ok (), { slots := t.slots.set place (some item), cursor := place + 1 })

def get? (t : JobSlots α) (slot : UInt8) : Option α :=
  (place? slot).bind fun place => t.slots.get place

def toList (t : JobSlots α) : List α := t.slots.toList.filterMap id

def held (t : JobSlots α) : Nat := t.slots.toList.countP Option.isSome

/-- Take every item, by rising slot, and move the cursor back to the first slot. -/
def drain (t : JobSlots α) : List α × JobSlots α := (t.toList, empty)

theorem toList_empty : (empty : JobSlots α).toList = [] := rfl

theorem get_set_self (slots : Vector (Option α) 4) (place : Fin 4) (x : Option α) :
    (slots.set place x).get place = x :=
  Vector.getElem_set_self place.isLt

theorem get_set_of_ne (slots : Vector (Option α) 4) {place other : Fin 4} (x : Option α)
    (h : place ≠ other) : (slots.set place x).get other = slots.get other :=
  Vector.getElem_set_ne place.isLt other.isLt fun hval => h (Fin.ext hval)

theorem place?_slotAt (place : Fin 4) : place? (slotAt place) = some place := by
  revert place
  decide

end JobSlots

end HashBoard
