import HashBoard.Wire.Crc
import HashBoard.Wire.Error
import HashBoard.Wire.Opcode

/-!
# Command frames

A command is an opcode, an address and a payload, filled up to an even length because the bus is
clocked two bytes at a time. Address 0 speaks to every chip of a chain.
-/

namespace HashBoard.Wire

def longestChain : Nat := 64

def maxFrameLength : Nat := 58 + longestChain * 2 * 2

def broadcast : UInt8 := 0

/-- The length of a frame with a payload of `n` bytes: two bytes more, made even. -/
def frameLength (n : Nat) : Nat := (2 + n + 1) / 2 * 2

def commandFrame (opcode : Opcode) (address : UInt8) (payload : Bytes) :
    Except ExchangeError Bytes :=
  let length := frameLength payload.length
  if maxFrameLength < length then .error (.frameTooLarge length maxFrameLength)
  else .ok (Bytes.fit length (opcode.code :: address :: payload))

def queueResetFrame (address : UInt8) : Bytes :=
  [Opcode.reset.code, address, 0xED, 0xED, 0, 0]

theorem frameLength_even (n : Nat) : frameLength n % 2 = 0 := Nat.mul_mod_left _ _

theorem length_commandFrame {opcode : Opcode} {address : UInt8} {payload frame : Bytes}
    (h : commandFrame opcode address payload = .ok frame) :
    frame.length = frameLength payload.length := by
  simp only [commandFrame] at h
  split at h
  · cases h
  · cases h
    exact Bytes.length_fit _ _

end HashBoard.Wire
