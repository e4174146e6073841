import HashBoard.Wire.Crc
import HashBoard.Wire.Error
import HashBoard.Wire.Opcode

/-!
# Result frames

Ten bytes by which a chip reports a nonce: the slot and opcode, the chip, the nonce with its high
byte first, two bytes without meaning and the checksum.
-/

namespace HashBoard.Wire

def resultFrameLength : Nat := 10

structure FoundNonce where
  slot : UInt8
  chip : UInt8
  nonce : UInt32
  deriving DecidableEq

namespace FoundNonce

/-- Whether two polled bytes start a result frame: the result opcode and a chip that exists. -/
def startsResult (first second : UInt8) : Bool :=
  first &&& 0x0f == Opcode.fetchResult.code && second != 0

def decode (frame : Vector UInt8 10) : Except ExchangeError FoundNonce :=
  if isSealed frame.toList then
    .ok { slot := frame[0] >>> 4
          chip := frame[1]
          nonce := Bytes.be32 frame[2] frame[3] frame[4] frame[5] }
  else
    .error (.crc (frameChecksum (frame.toList.take 8)) (Bytes.be16 frame[8] frame[9]))

/-- A frame decodes exactly when it is sealed. -/
theorem decode_cases (frame : Vector UInt8 10) :
    (isSealed frame.toList = true ∧ ∃ result, decode frame = .ok result) ∨
      (isSealed frame.toList = false ∧ ∃ computed received,
        decode frame = .error (.crc computed received)) := by
  unfold decode
  cases isSealed frame.toList with
  | true => exact .inl ⟨rfl, _, rfl⟩
  | false => exact .inr ⟨rfl, _, _, rfl⟩

def encode (r : FoundNonce) : Bytes :=
  sealed (((r.slot <<< 4) ||| Opcode.fetchResult.code) :: r.chip ::
    (Bytes.ofBE32 r.nonce ++ [0, 0]))

theorem length_encode (r : FoundNonce) : r.encode.length = resultFrameLength := by
  simp only [encode, length_sealed, List.length_cons, List.length_append, Bytes.length_ofBE32]
  rfl

end FoundNonce

end HashBoard.Wire
