import HashBoard.Capture.Basic
import HashBoard.Wire.Clock
import HashBoard.Wire.Frame
import HashBoard.Wire.Job
import HashBoard.Wire.FoundNonce

/-!
# What transfers are

A label says what a transfer carries: a command on the way to the chain, a response behind filler
on the way back. Frames that carry a checksum are checked by the rule that the chain itself goes
by, so that what is called valid here is what the chain takes.
-/

namespace HashBoard.Capture

open Wire

inductive Check where
  | valid | invalid
  | notChecked
  deriving DecidableEq

def Check.name : Check → String
  | valid => "valid"
  | invalid => "invalid"
  | notChecked => "not_checked"

def Check.ofFrame (frame : Bytes) : Check := if isSealed frame then valid else invalid

/-! ### Labels -/

inductive Label where
  | filler
  | shortCommand (length : Nat)
  | unknownCommand (first address : UInt8)
  | command (opcode : Opcode) (address : UInt8)
  | queueReset (address : UInt8)
  | registerWrite (opcode : Opcode) (address : UInt8) (payload : Bytes)
  | job (chip slot : UInt8) (nonceStart nonceEnd : UInt32)
  | truncated (opcode : Opcode) (length : Nat)
  | registerRead (chip : UInt8) (register : Register)
  | truncatedRead (length : Nat)
  | result (found : FoundNonce)
  | badResult (chip slot : UInt8) (cause : ExchangeError)
  | chipCount (address count : UInt8)
  | acknowledged (opcode : Opcode) (address : UInt8)
  | unrecognised (length : Nat)

inductive LabelKind where
  | command | response | filler | unknown | invalid
  deriving DecidableEq

def LabelKind.name : LabelKind → String
  | command => "command"
  | response => "response"
  | filler => "filler"
  | unknown => "unknown"
  | invalid => "invalid"

def addressee (address : UInt8) : String :=
  if address = broadcast then "broadcast" else s!"chip {address.toNat}"

/-- The text for the clock that a register sets; none while its divider is zero. -/
def clockText (register : Register) : String :=
  match (ClockWord.ofRegister register).frequency? with
  | some mhz => s!" pll {mhz} MHz"
  | none => ""

def hexText (width n : Nat) : String := "0x" ++ Bytes.hexNat width n

namespace Label

def kind : Label → LabelKind
  | filler => .filler
  | shortCommand _ => .invalid
  | unknownCommand _ _ => .unknown
  | command _ _ => .command
  | queueReset _ => .command
  | registerWrite _ _ _ => .command
  | job _ _ _ _ => .command
  | truncated _ _ => .invalid
  | registerRead _ _ => .response
  | truncatedRead _ => .invalid
  | result _ => .response
  | badResult _ _ _ => .response
  | chipCount _ _ => .response
  | acknowledged _ _ => .response
  | unrecognised _ => .unknown

def registerWriteText (opcode : Opcode) (address : UInt8) (payload : Bytes) : String :=
  let clock := if opcode = .writeReg then clockText ⟨Bytes.toVector 12 payload⟩ else ""
  s!"{opcode.name} {addressee address} {Bytes.hex payload}{clock}"

def jobText (chip slot : UInt8) (nonceStart nonceEnd : UInt32) : String :=
  let low := hexText 8 nonceStart.toNat
  let high := hexText 8 nonceEnd.toNat
  s!"write_job {addressee chip} slot {slot.toNat} nonces {low}..={high}"

def registerReadText (chip : UInt8) (register : Register) : String :=
  let block := Bytes.hex register.toBytes
  let cores := register.coreNumber.toNat
  s!"read_reg_resp {addressee chip} {block} cores {cores}{clockText register}"

def badResultText (chip slot : UInt8) : ExchangeError → String
  | .crc computed received =>
    let is := hexText 4 received.toNat
    let expected := hexText 4 computed.toNat
    s!"result chip {chip.toNat} slot {slot.toNat} crc {is} expected {expected}"
  | cause => cause.message

def text : Label → String
  | filler => ""
  | shortCommand length => s!"{length}-byte command"
  | unknownCommand first address => s!"opcode {hexText 2 first.toNat} to {addressee address}"
  | command opcode address => s!"{opcode.name} {addressee address}"
  | queueReset address => s!"reset_job_queue {addressee address}"
  | registerWrite opcode address payload => registerWriteText opcode address payload
  | job chip slot nonceStart nonceEnd => jobText chip slot nonceStart nonceEnd
  | truncated opcode length => s!"{opcode.name} truncated at {length} bytes"
  | registerRead chip register => registerReadText chip register
  | truncatedRead length => s!"register read truncated at {length} bytes"
  | result found =>
    let nonce := hexText 8 found.nonce.toNat
    s!"result chip {found.chip.toNat} slot {found.slot.toNat} nonce {nonce}"
  | badResult chip slot cause => badResultText chip slot cause
  | chipCount address count => s!"bist_start ack {addressee address}, {count.toNat} chips"
  | acknowledged opcode address => s!"{opcode.name} ack {addressee address}"
  | unrecognised length => s!"{length} unrecognised bytes"

end Label

/-! ### Commands -/

def registerWriteSpan : Nat := 14

def wordAt (bytes : Bytes) (offset : Nat) : UInt32 :=
  Bytes.be32 (bytes.getD (offset + 3) 0) (bytes.getD (offset + 2) 0) (bytes.getD (offset + 1) 0)
    (bytes.getD offset 0)

def nonceStartOffset : Nat := 66

def nonceEndOffset : Nat := 86

/-- The check of a job: one whose checksum would be zero is taken to carry none. -/
def jobCheck (bytes : Bytes) : Check :=
  let whole := bareJobLength + jobChecksumLength
  let checksum := (bytes.drop bareJobLength).take jobChecksumLength
  if whole ≤ bytes.length && checksum != [0, 0] then Check.ofFrame (bytes.take whole)
  else .notChecked

def labelJob (chip slot : UInt8) (bytes : Bytes) : Label × Check :=
  if bytes.length < bareJobLength then (.truncated .sendJob bytes.length, .notChecked)
  else
    (.job chip slot (wordAt bytes nonceStartOffset) (wordAt bytes nonceEndOffset), jobCheck bytes)

def labelWrite (opcode : Opcode) (address : UInt8) (bytes : Bytes) : Label × Check :=
  if bytes.length < registerWriteSpan then (.truncated opcode bytes.length, .notChecked)
  else
    (.registerWrite opcode address ((bytes.drop 2).take 10),
      Check.ofFrame (bytes.take registerWriteSpan))

def labelReset (address : UInt8) (bytes : Bytes) : Label :=
  if (bytes.drop 2).take 2 = [0xED, 0xED] then .queueReset address else .command .reset address

def labelCommand (bytes : Bytes) : Label × Check :=
  if bytes.all (· == 0) then (.filler, .notChecked)
  else
    match bytes with
    | first :: address :: _ =>
      match Opcode.ofFirstByte? first with
      | none => (.unknownCommand first address, .notChecked)
      | some .sendJob => labelJob address (first >>> 4) bytes
      | some .writeReg => labelWrite .writeReg address bytes
      | some .writeSecReg => labelWrite .writeSecReg address bytes
      | some .reset => (labelReset address bytes, .notChecked)
      | some opcode => (.command opcode address, .notChecked)
    | _ => (.shortCommand bytes.length, .notChecked)

/-! ### Responses -/

/-- The bytes from the first pair on that is not zero. -/
def afterFiller : Bytes → Bytes
  | a :: b :: rest => if a = 0 ∧ b = 0 then afterFiller rest else a :: b :: rest
  | [a] => if a = 0 then [] else [a]
  | [] => []

def labelResult (first second : UInt8) (frame : Bytes) : Label × Check :=
  match FoundNonce.decode (Bytes.toVector 10 frame) with
  | .ok found => (.result found, .valid)
  | .error cause => (.badResult second (first >>> 4) cause, .invalid)

def labelAnswer (first second : UInt8) (frame : Bytes) : Label :=
  match Opcode.ofFirstByte? first with
  | some .startSelfTest => .chipCount second (frame.getD 3 0)
  | some opcode => .acknowledged opcode second
  | none => .unrecognised frame.length

def labelResponse (bytes : Bytes) : Label × Check :=
  match afterFiller bytes with
  | [] => (.filler, .notChecked)
  | first :: rest =>
    let frame := first :: rest
    let second := rest.headD 0
    if first = Opcode.readRegResp.code then
      match Register.ofBytes? (frame.drop 2) with
      | some register => (.registerRead second register, .notChecked)
      | none => (.truncatedRead frame.length, .notChecked)
    else if FoundNonce.startsResult first second && resultFrameLength ≤ frame.length then
      labelResult first second frame
    else (labelAnswer first second frame, .notChecked)

def label (t : Transfer) : Label × Check :=
  match t.direction with
  | .mosi => labelCommand t.bytes
  | .miso => labelResponse t.bytes

end HashBoard.Capture
