import HashBoard.Bytes

/-!
# Opcodes

The commands that the chips know and the one opcode that only they send. On the wire the low four
bits of a first byte name the command; the high four bits carry a job slot in job and result
frames.
-/

namespace HashBoard.Wire

inductive Opcode where
  | startSelfTest | fixSelfTest | reset | fetchResult | writeReg | readReg | collectSelfTest
  | sendJob | writeSecReg | readRegResp
  deriving DecidableEq

namespace Opcode

def all : List Opcode :=
  [startSelfTest, fixSelfTest, reset, fetchResult, writeReg, readReg, collectSelfTest, sendJob,
   writeSecReg, readRegResp]

def code : Opcode → UInt8
  | startSelfTest => 0x01
  | fixSelfTest => 0x03
  | reset => 0x04
  | fetchResult => 0x08
  | writeReg => 0x09
  | readReg => 0x0A
  | collectSelfTest => 0x0B
  | sendJob => 0x0C
  | writeSecReg => 0x0D
  | readRegResp => 0x1A

def name : Opcode → String
  | startSelfTest => "bist_start"
  | fixSelfTest => "bist_fix"
  | reset => "reset"
  | fetchResult => "read_result"
  | writeReg => "write_reg"
  | readReg => "read_reg"
  | collectSelfTest => "bist_collect"
  | sendJob => "write_job"
  | writeSecReg => "write_sec_reg"
  | readRegResp => "read_reg_resp"

def ofCode? (byte : UInt8) : Option Opcode := all.find? fun op => op.code == byte

/-- The opcode that a first byte names: the register response by its whole byte, any other by the
low four bits. -/
def ofFirstByte? (byte : UInt8) : Option Opcode :=
  if byte = 0x1A then some readRegResp else ofCode? (byte &&& 0x0f)

def ofName? (name : String) : Option Opcode := all.find? fun op => op.name == name

theorem ofCode?_code (op : Opcode) : ofCode? op.code = some op := by
  cases op <;> rfl

end Opcode

end HashBoard.Wire
