import HashBoard.Bus.Basic
import HashBoard.Wire.Job
import HashBoard.Wire.FoundNonce

/-!
# Commands

Each command sends its frame once and polls for the response. Nothing is tried again: a failed
exchange is reported, and the caller decides what it means for the chip.
-/

namespace HashBoard.Bus

open Wire

variable {τ : Type} [Channel τ]

def acknowledgementLength : Nat := 4

/-- Bytes by which the echo of a secondary register write is longer than a register. -/
def secondaryExtra : Nat := 4

def command (opcode : Opcode) (address : UInt8) (payload : Bytes) : Exchange τ Unit :=
  match commandFrame opcode address payload with
  | .ok frame => send frame
  | .error cause => throw cause

def acknowledged (opcode : Opcode) (address : UInt8) : Exchange τ Unit := do
  command opcode address [0, 0]
  discard (expect opcode acknowledgementLength)

/-- Reset the chips at `address`; a broadcast makes the next self-test report the chip count. -/
def reset (address : UInt8) : Exchange τ Unit := acknowledged .reset address

def startSelfTest (address : UInt8) : Exchange τ UInt8 := do
  command .startSelfTest address [0, 0]
  let response ← expect .startSelfTest acknowledgementLength
  return response.getD 3 0

def collectSelfTest (address : UInt8) : Exchange τ Unit := acknowledged .collectSelfTest address

/-- Let the chips drop the cores that failed the self-test. -/
def fixSelfTest (address : UInt8) : Exchange τ Unit := acknowledged .fixSelfTest address

/-- Store a register in the chips at `address`; the echo is longer than a register by `extra`. -/
def stored (opcode : Opcode) (extra : Nat) (address : UInt8) (register : Register) :
    Exchange τ Unit := do
  send (register.storeFrame opcode address)
  let bus ← get
  discard (expect opcode (bus.generation.regLen + extra))

def storeRegister (address : UInt8) (register : Register) : Exchange τ Unit :=
  stored .writeReg 0 address register

def storeSecondary (address : UInt8) (register : Register) : Exchange τ Unit :=
  stored .writeSecReg secondaryExtra address register

def fetchRegister (chip : UInt8) : Exchange τ Register := do
  command .readReg chip []
  let bus ← get
  let code := Opcode.readRegResp.code
  match ← poll code (fun first _ => first == code) (2 + bus.generation.regLen) with
  | none => throw (.noResponse code bus.limits.maxBytes)
  | some response =>
    match Register.ofBytes? (response.drop 2) with
    | some register => return register
    | none => throw (.noResponse code response.length)

/-- Empty the job queue of the chips at `address` and make sure that it reports room; a broadcast
is checked on chip 1. -/
def emptyJobQueue (address : UInt8) : Exchange τ Unit := do
  send (queueResetFrame address)
  discard (expect .reset acknowledgementLength)
  let probe := if address = broadcast then 1 else address
  let register ← fetchRegister probe
  let bus ← get
  if register.isBusy bus.generation.busyMask then throw (.chipStillBusy probe)

def jobBytes (g : Generation) (frame : Bytes) : Bytes := frame ++ List.replicate g.jobTrailer 0

/-- Send a job frame. On generations that acknowledge jobs the chip has to report a full queue
afterwards. -/
def sendJob (frame : Bytes) : Exchange τ Unit := do
  let bus ← get
  send (jobBytes bus.generation frame)
  match bus.generation.jobReceipt with
  | .none => return ()
  | .waitBusy =>
    let chip := Job.chipOf frame
    let register ← fetchRegister chip
    if register.isBusy bus.generation.busyMask then return ()
    else throw (.jobNotAccepted chip)

def fetchResult : Exchange τ (Option FoundNonce) := do
  command .fetchResult broadcast []
  match ← poll Opcode.fetchResult.code FoundNonce.startsResult resultFrameLength with
  | none => return none
  | some response =>
    match FoundNonce.decode (Bytes.toVector 10 response) with
    | .ok result => return some result
    | .error cause => throw cause

end HashBoard.Bus
