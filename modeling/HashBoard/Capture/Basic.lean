import HashBoard.Capture.Csv
import HashBoard.Decimal.Literal
import HashBoard.Text.Blank
import HashBoard.Text.Quoted

/-!
# Captures

A capture lists the transfers seen on the bus of a chain, one record for each: when it was, in
which direction it went, and its bytes in hexadecimal. The first record names the columns, which
may stand in any order and beside others.
-/

namespace HashBoard.Capture

/-! ### Transfers -/

inductive Direction where
  | mosi
  | miso
  deriving DecidableEq

namespace Direction

def name : Direction → String
  | mosi => "mosi"
  | miso => "miso"

def ofName? (name : String) : Option Direction := [mosi, miso].find? fun d => d.name == name

end Direction

structure Transfer where
  /-- Seconds on the clock of the capture. -/
  time : Float
  direction : Direction
  bytes : Bytes

inductive CaptureError where
  | malformedRow (line : Nat)
  | badHex (line : Nat) (text : String)
  deriving DecidableEq

def CaptureError.message : CaptureError → String
  | malformedRow line => s!"Malformed row on line {line}"
  | badHex line text => s!"Bad hex on line {line}: {Text.quoted text}"

/-! ### Columns -/

def texts? (record : Csv.Record) : Option (List String) :=
  record.mapM fun field => (String.fromUTF8? ⟨field.toArray⟩).map Text.trim

structure Columns where
  time : Nat
  direction : Nat
  hex : Nat

def place? (name : String) (header : List String) : Option Nat :=
  match header.zipIdx.filter fun column => column.1 == name with
  | [column] => some column.2
  | _ => none

/-- The columns that a first record names. When it is no text, the columns are those of a capture
without any other. -/
def columns? (header : Csv.Record) : Option Columns :=
  match texts? header with
  | none => some ⟨0, 1, 2⟩
  | some names => do
    return ⟨← place? "time" names, ← place? "direction" names, ← place? "hex" names⟩

/-! ### Rows -/

structure Row where
  time : Float
  direction : Direction
  hex : String

def time? (text : String) : Option Float :=
  match Decimal.Literal.read text.toList with
  | .ok literal => some literal.toDouble
  | .error _ => none

/-- The row that a record is; it has to be as long as the first record. -/
def row? (header record : Csv.Record) : Option Row :=
  if record.length = header.length then do
    let fields ← texts? record
    let columns ← columns? header
    return {
      time := ← (fields[columns.time]?).bind time?
      direction := ← (fields[columns.direction]?).bind Direction.ofName?
      hex := ← fields[columns.hex]? }
  else none

def transfer (header record : Csv.Record) (line : Nat) : Except CaptureError Transfer :=
  match row? header record with
  | none => .error (.malformedRow line)
  | some row =>
    match Bytes.ofHex? (row.hex.toList.filter fun c => !Text.isBlank c) with
    | none => .error (.badHex line row.hex)
    | some bytes => .ok ⟨row.time, row.direction, bytes⟩

def transfersFrom (header : Csv.Record) :
    Nat → List Csv.Record → Except CaptureError (List Transfer)
  | _, [] => .ok []
  | line, record :: rest => do
    let first ← transfer header record line
    let later ← transfersFrom header (line + 1) rest
    return first :: later

/-- The transfers of a capture. Lines are counted by records, the first record being line 1. -/
def read (bytes : Bytes) : Except CaptureError (List Transfer) :=
  match Csv.records bytes with
  | [] => .ok []
  | header :: rows => transfersFrom header 2 rows

end HashBoard.Capture
