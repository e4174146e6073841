import HashBoard.Wire.Crc
import HashBoard.Wire.Opcode

/-!
# The register block

Twelve bytes that a chip reports and that the host writes: the clock word, the temperature code,
the state of the job queue and the number of working cores. A write sends the first ten bytes; the
last two are read-only and leave their place to the checksum.
-/

namespace HashBoard.Wire

def registerLength : Nat := 12

/-- Bytes in a register write: opcode, address, ten register bytes, checksum and two zeros. -/
def registerWriteLength : Nat := 16

structure Register where
  bytes : Vector UInt8 12
  deriving DecidableEq

namespace Register

def ofBytes? (bytes : Bytes) : Option Register :=
  if 12 ≤ bytes.length then some ⟨Bytes.toVector 12 bytes⟩ else none

def toBytes (r : Register) : Bytes := r.bytes.toList

def statusPlace : Fin 12 := ⟨9, by decide⟩

def coresPlace : Fin 12 := ⟨11, by decide⟩

def isBusy (r : Register) (mask : UInt8) : Bool := r.bytes.get statusPlace &&& mask != 0

def coreNumber (r : Register) : UInt8 := r.bytes.get coresPlace

/-- The place of a temperature code, of which both bytes have to lie in the block. -/
def sensorPlace? (index : Nat) : Option (Fin 11) :=
  if h : index < 11 then some ⟨index, h⟩ else none

/-- The ten-bit temperature code whose high byte stands at `index`. -/
def sensorCode (r : Register) (index : Fin 11) : UInt16 :=
  0x3ff &&& Bytes.be16 (r.bytes.get index.castSucc) (r.bytes.get index.succ)

def storeBody (r : Register) (opcode : Opcode) (address : UInt8) : Bytes :=
  opcode.code :: address :: r.toBytes.take 10

def storeFrame (r : Register) (opcode : Opcode) (address : UInt8) : Bytes :=
  sealed (r.storeBody opcode address) ++ [0, 0]

theorem length_toBytes (r : Register) : r.toBytes.length = 12 := r.bytes.length_toList

theorem length_storeBody (r : Register) (opcode : Opcode) (address : UInt8) :
    (r.storeBody opcode address).length = 12 := by
  simp only [storeBody, List.length_cons, List.length_take, length_toBytes]
  decide

theorem length_storeFrame (r : Register) (opcode : Opcode) (address : UInt8) :
    (r.storeFrame opcode address).length = registerWriteLength := by
  simp only [storeFrame, List.length_append, length_sealed, length_storeBody, List.length_cons,
    List.length_nil]
  rfl

theorem take_storeFrame (r : Register) (opcode : Opcode) (address : UInt8) :
    (r.storeFrame opcode address).take 12 = r.storeBody opcode address := by
  rw [storeFrame, sealed, List.append_assoc]
  exact List.take_left' (r.length_storeBody opcode address)

/-- The checksum of a register write covers all of it but the last two bytes. -/
theorem isSealed_storeFrame (r : Register) (opcode : Opcode) (address : UInt8) :
    isSealed ((r.storeFrame opcode address).take 14) = true := by
  have hlength : (sealed (r.storeBody opcode address)).length = 14 := by
    rw [length_sealed, length_storeBody]
  rw [storeFrame, List.take_left' hlength]
  exact isSealed_sealed _

/-- The sensor set-up for a chip clocked at `mhz`; its sixth byte is the clock divider. -/
def sensorDivider (mhz : UInt32) : Register :=
  ⟨#v[0x02, 0x50, 0xA0, 0x06, 0x28, (mhz / 2 * 1000 / 16 / 650).toUInt8, 0x03, 0, 0, 0, 0, 0]⟩

end Register

end HashBoard.Wire
