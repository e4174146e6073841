import HashBoard.Bytes

/-!
# What can go wrong on the wire

The causes of a failed call of the byte channel and of a failed exchange with the chips, each with
its text.
-/

namespace HashBoard.Wire

inductive ChannelError where
  | cannotOpen (path source : String)
  | configure (setting : String) (value : UInt32) (source : String)
  | transfer (source : String)
  deriving DecidableEq

def ChannelError.message : ChannelError → String
  | .cannotOpen path source => s!"failed to open {path}: {source}"
  | .configure setting value source => s!"failed to set {setting} to {value.toNat}: {source}"
  | .transfer source => s!"I/O error: {source}"

inductive ExchangeError where
  | channel (cause : ChannelError)
  | noResponse (opcode : UInt8) (polled : Nat)
  | timeout (opcode : UInt8)
  | crc (computed received : UInt16)
  | frameTooLarge (length limit : Nat)
  | chipStillBusy (chip : UInt8)
  | jobNotAccepted (chip : UInt8)
  | tooManyChips (count limit : Nat)
  deriving DecidableEq

def ExchangeError.message : ExchangeError → String
  | .channel cause => cause.message
  | .noResponse opcode polled =>
    s!"no response to opcode 0x{Bytes.hexNat 2 opcode.toNat} within {polled} bytes"
  | .timeout opcode => s!"timed out polling for opcode 0x{Bytes.hexNat 2 opcode.toNat}"
  | .crc computed received =>
    s!"CRC mismatch: computed 0x{Bytes.hexNat 4 computed.toNat}, " ++
      s!"received 0x{Bytes.hexNat 4 received.toNat}"
  | .frameTooLarge length limit =>
    s!"frame of {length} bytes exceeds the {limit} byte command limit"
  | .chipStillBusy chip => s!"chip {chip.toNat} still busy after job queue reset"
  | .jobNotAccepted chip => s!"chip {chip.toNat} did not report busy after accepting a job"
  | .tooManyChips count limit =>
    s!"BIST reported {count} chips, chain holds at most {limit}"

end HashBoard.Wire
