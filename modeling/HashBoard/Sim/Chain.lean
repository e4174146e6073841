import HashBoard.Bus.Channel
import HashBoard.Generation
import HashBoard.Wire.Job
import HashBoard.Wire.FoundNonce

/-!
# A simulated chain

Chips without hardware: every frame is interpreted the way a chain of chips would, and the reply is
queued behind four zero bytes, so that a reader has to poll for it. Failures can be injected. It is
a channel whose clock stands still.
-/

namespace HashBoard

structure SimulatedChip where
  cores : UInt8
  busy : Bool
  sensorCode : UInt16
  /-- Register reads that the chip will ignore. -/
  failingReads : Nat
  lastJobSlot : Option UInt8
  jobsReceived : Nat
  deriving DecidableEq

def SimulatedChip.ofCores (cores : UInt8) : SimulatedChip where
  cores := cores
  busy := false
  sensorCode := 0
  failingReads := 0
  lastJobSlot := none
  jobsReceived := 0

structure SimulatedChain where
  generation : Generation
  chips : List SimulatedChip
  /-- Whether the next self-test reports the chip count. -/
  armed : Bool
  reply : Bytes
  results : List Bytes
  /-- Frames taken, latest first. -/
  writes : List Bytes
  failingWrites : Nat
  crcErrors : Nat
  dropJobs : Bool
  ignoreQueueResets : Bool
  registerWrites : List (UInt8 × Bytes)
  registerReads : Nat
  bytesRead : Nat

namespace SimulatedChain

open Wire

/-- Zero bytes ahead of every reply. -/
def filler : Nat := 4

def ofCores (generation : Generation) (cores : List UInt8) : SimulatedChain where
  generation := generation
  chips := cores.map SimulatedChip.ofCores
  armed := true
  reply := []
  results := []
  writes := []
  failingWrites := 0
  crcErrors := 0
  dropJobs := false
  ignoreQueueResets := false
  registerWrites := []
  registerReads := 0
  bytesRead := 0

/-! ### Chips -/

def chip? (s : SimulatedChain) (address : UInt8) : Option SimulatedChip :=
  if address = broadcast then none else s.chips[address.toNat - 1]?

def modifyChip? (s : SimulatedChain) (address : UInt8) (f : SimulatedChip → SimulatedChip) :
    Option SimulatedChain :=
  if address = broadcast ∨ s.chips.length < address.toNat then none
  else some { s with chips := s.chips.modify (address.toNat - 1) f }

def modifyAddressed (s : SimulatedChain) (address : UInt8) (f : SimulatedChip → SimulatedChip) :
    SimulatedChain :=
  if address = broadcast then { s with chips := s.chips.map f }
  else { s with chips := s.chips.modify (address.toNat - 1) f }

def registerBlock (g : Generation) (chip : SimulatedChip) : Register :=
  let code := Bytes.ofBE16 chip.sensorCode
  let base : Vector UInt8 12 := #v[0x06, 0xFA, 0x40, 0x00, 0, 0, 0, 0, 0, 0, 0, 0]
  let base := g.sensorPlace.elim base fun place =>
    (base.set place.val (code.getD 0 0) (Nat.lt_succ_of_lt place.isLt)).set (place.val + 1)
      (code.getD 1 0) (Nat.succ_lt_succ place.isLt)
  let status := base.get Register.statusPlace
  let status := if chip.busy then status ||| g.busyMask else status &&& ~~~ g.busyMask
  let base := base.set Register.statusPlace.val status Register.statusPlace.isLt
  ⟨base.set Register.coresPlace.val chip.cores Register.coresPlace.isLt⟩

/-! ### Replies -/

def replyWith (s : SimulatedChain) (bytes : Bytes) : SimulatedChain :=
  { s with reply := s.reply ++ List.replicate filler 0 ++ bytes }

def takeRegisterWrite (s : SimulatedChain) (opcode : Opcode) (frame : Bytes) : SimulatedChain :=
  if frame.length < 14 || !isSealed (frame.take 14) then { s with crcErrors := s.crcErrors + 1 }
  else
    let echo := s.generation.regLen + if opcode = .writeReg then 0 else 4
    replyWith { s with registerWrites := (opcode.code, frame) :: s.registerWrites }
      (Bytes.fit echo (frame.take 12))

def answerRegisterRead (s : SimulatedChain) (address : UInt8) : SimulatedChain :=
  match s.chip? address with
  | none => s
  | some chip =>
    if 0 < chip.failingReads then
      s.modifyAddressed address fun c => { c with failingReads := c.failingReads - 1 }
    else
      { s with registerReads := s.registerReads + 1 }.replyWith (Bytes.fit (2 + s.generation.regLen)
        (Opcode.readRegResp.code :: address :: (registerBlock s.generation chip).toBytes))

def takeJob (s : SimulatedChain) (first address : UInt8) (frame : Bytes) : SimulatedChain :=
  let body := bareJobLength + if s.generation.jobCrc then jobChecksumLength else 0
  if frame.length < body || (s.generation.jobCrc && !isSealed (frame.take body)) then
    { s with crcErrors := s.crcErrors + 1 }
  else if s.dropJobs then s
  else
    match s.chip? address with
    | none => s
    | some _ => s.modifyAddressed address fun c =>
        { c with busy := true, lastJobSlot := some (first >>> 4),
                 jobsReceived := c.jobsReceived + 1 }

def takeReset (s : SimulatedChain) (first address : UInt8) (frame : Bytes) : SimulatedChain :=
  let idle : SimulatedChip → SimulatedChip := fun c => { c with busy := false }
  let after :=
    if (frame.drop 2).take 2 = [0xED, 0xED] then
      if s.ignoreQueueResets then s else s.modifyAddressed address idle
    else
      { s with armed := s.armed || address == broadcast }.modifyAddressed address idle
  after.replyWith [first, address, 0, 0]

def answerResultRead (s : SimulatedChain) : SimulatedChain :=
  match s.results with
  | [] => s
  | frame :: rest => { s with results := rest }.replyWith frame

/-- Do what a frame asks for; an unread reply is lost. -/
def obey (s : SimulatedChain) (frame : Bytes) : SimulatedChain :=
  let s := { s with reply := [] }
  match frame with
  | first :: address :: _ =>
    match Opcode.ofFirstByte? first with
    | some .reset => s.takeReset first address frame
    | some .startSelfTest =>
      let count := if s.armed then UInt8.ofNat s.chips.length else 0
      { s with armed := false }.replyWith [first, address, 0, count]
    | some .collectSelfTest => s.replyWith [first, address, 0, 0]
    | some .fixSelfTest => s.replyWith [first, address, 0, 0]
    | some .writeReg => s.takeRegisterWrite .writeReg frame
    | some .writeSecReg => s.takeRegisterWrite .writeSecReg frame
    | some .readReg => s.answerRegisterRead address
    | some .sendJob => s.takeJob first address frame
    | some .fetchResult => s.answerResultRead
    | _ => s
  | _ => s

/-! ### As a channel -/

def write (frame : Bytes) (s : SimulatedChain) : Except ChannelError Unit × SimulatedChain :=
  if 0 < s.failingWrites then
    (.error (.transfer "injected write failure"), { s with failingWrites := s.failingWrites - 1 })
  else (.ok (), { s with writes := frame :: s.writes }.obey frame)

def read (n : Nat) (s : SimulatedChain) : Except ChannelError (Vector UInt8 n) × SimulatedChain :=
  (.ok (Bytes.toVector n s.reply),
    { s with reply := s.reply.drop n, bytesRead := s.bytesRead + n })

instance : Bus.Channel SimulatedChain where
  write := write
  read := read
  now s := (0, s)

/-! ### Results to report -/

def queueResult (s : SimulatedChain) (result : FoundNonce) : SimulatedChain :=
  { s with results := s.results ++ [result.encode] }

def queueCorruptResult (s : SimulatedChain) (result : FoundNonce) : SimulatedChain :=
  { s with results := s.results ++ [result.encode.modify (resultFrameLength - 1) (· ^^^ 0xff)] }

def lostSensor (s : SimulatedChain) : Bool :=
  s.generation.sensorPlace.isNone && s.registerReads != 0

def completeJobs (s : SimulatedChain) : SimulatedChain :=
  { s with chips := s.chips.map fun c => { c with busy := false } }

end SimulatedChain

end HashBoard
