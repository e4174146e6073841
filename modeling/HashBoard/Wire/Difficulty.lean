import HashBoard.Bytes

/-!
# Share difficulty words

A job names its target by a compact word. Each table entry halves the target of the one before,
from difficulty 1 at index 0 to 65536 at index 16.
-/

namespace HashBoard.Wire

structure Difficulty where
  bytes : Vector UInt8 4
  deriving DecidableEq

namespace Difficulty

def table : Vector Difficulty 17 :=
  #v[⟨#v[0x1e, 0xff, 0xff, 0xff]⟩, ⟨#v[0x1e, 0x7f, 0xff, 0xff]⟩, ⟨#v[0x1e, 0x3f, 0xff, 0xff]⟩,
     ⟨#v[0x1e, 0x1f, 0xff, 0xff]⟩, ⟨#v[0x1e, 0x0f, 0xff, 0xff]⟩, ⟨#v[0x1e, 0x07, 0xff, 0xff]⟩,
     ⟨#v[0x1e, 0x03, 0xff, 0xff]⟩, ⟨#v[0x1e, 0x01, 0xff, 0xff]⟩, ⟨#v[0x1e, 0x00, 0xff, 0xff]⟩,
     ⟨#v[0x1e, 0x00, 0x7f, 0xff]⟩, ⟨#v[0x1e, 0x00, 0x3f, 0xff]⟩, ⟨#v[0x1e, 0x00, 0x1f, 0xff]⟩,
     ⟨#v[0x1e, 0x00, 0x0f, 0xff]⟩, ⟨#v[0x1e, 0x00, 0x07, 0xff]⟩, ⟨#v[0x1e, 0x00, 0x03, 0xff]⟩,
     ⟨#v[0x1e, 0x00, 0x01, 0xff]⟩, ⟨#v[0x1e, 0x00, 0x00, 0xff]⟩]

/-- The indices that a share difficulty can select by its size, largest first, each with the
difficulty that it has to exceed. -/
def magnitudes : List (Fin 17 × Float) :=
  [(16, 65535), (15, 32767), (14, 16383), (13, 8191), (12, 4095), (11, 2047), (10, 1023),
   (9, 511), (8, 255)]

/-- The index chosen when a share difficulty is too small to select one: the configured position
1 to 8, else position 8. -/
def fallbackIndex (position : UInt8) : Fin 17 :=
  if 1 ≤ position ∧ position ≤ 8 then Fin.ofNat 17 (position.toNat - 1) else 7

/-- The index for a share difficulty: the largest `k` from 8 to 16 with `share > 2 ^ k - 1`, else
the configured one. -/
def index (share : Float) (position : UInt8) : Fin 17 :=
  match magnitudes.find? fun m => m.2 < share with
  | some m => m.1
  | none => fallbackIndex position

def ofShare (share : Float) (position : UInt8) : Difficulty :=
  table.get (index share position)

def defaultPosition : UInt8 := 8

end Difficulty

end HashBoard.Wire
