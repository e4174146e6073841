import HashBoard.Wire.Crc
import HashBoard.Wire.Difficulty
import HashBoard.Wire.Opcode

/-!
# Job frames

A job sends a 76-byte block header, a range of nonces and a target to one slot of one chip. The
first 64 header bytes travel in reverse order, then the low end of the range, the last 12 header
bytes in reverse, the target in reverse and the high end of the range; both ends have their low
byte first. A checksum follows on the generations that want one.
-/

namespace HashBoard.Wire

def bareJobLength : Nat := 90

def jobChecksumLength : Nat := 2

structure JobSpec where
  header : Vector UInt8 76
  nonceStart : UInt32
  nonceEnd : UInt32
  difficulty : Difficulty

structure Job where
  chip : UInt8
  slot : UInt8
  spec : JobSpec

namespace Job

/-- The first byte of a job frame: the slot in the high four bits, the opcode in the low four. -/
def firstByte (slot : UInt8) : UInt8 := (slot <<< 4) ||| Opcode.sendJob.code

def body (j : Job) : Bytes :=
  firstByte j.slot :: j.chip ::
    ((j.spec.header.toList.take 64).reverse ++ Bytes.ofLE32 j.spec.nonceStart ++
      (j.spec.header.toList.drop 64).reverse ++ j.spec.difficulty.bytes.toList.reverse ++
      Bytes.ofLE32 j.spec.nonceEnd)

def frame (j : Job) (withCrc : Bool) : Bytes := if withCrc then sealed j.body else j.body

def slotOf (frame : Bytes) : UInt8 := frame.headD 0 >>> 4

def chipOf (frame : Bytes) : UInt8 := frame.getD 1 0

theorem length_body (j : Job) : j.body.length = bareJobLength := by
  simp only [body, List.length_cons, List.length_append, List.length_reverse, List.length_take,
    List.length_drop, Vector.length_toList, Bytes.length_ofLE32]
  rfl

theorem length_frame (j : Job) (withCrc : Bool) :
    (j.frame withCrc).length = bareJobLength + if withCrc then jobChecksumLength else 0 := by
  cases withCrc
  · exact j.length_body
  · simp only [frame, if_true, length_sealed, length_body]
    rfl

end Job

end HashBoard.Wire
