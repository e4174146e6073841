import HashBoard.Bytes

/-!
# Comma-separated records

Records end with a line feed, a carriage return or both; empty lines are no records. A field that
starts with a quote lasts to the next single quote, and a doubled quote in it stands for one. What
follows a closing quote belongs to the field.
-/

namespace HashBoard.Csv

abbrev Record := List Bytes

/-! ### Characters -/

def comma : UInt8 := 0x2c

def quote : UInt8 := 0x22

def isLineEnd (b : UInt8) : Bool := b == 0x0a || b == 0x0d

/-- The text without the mark that may stand at its start. -/
def dropMark (bytes : Bytes) : Bytes :=
  if bytes.take 3 = [0xef, 0xbb, 0xbf] then bytes.drop 3 else bytes

/-! ### Reading -/

inductive Place where
  | between
  | fieldStart
  | bare
  | quoted
  | afterQuote
  deriving DecidableEq

/-- A reader: what it has of the current field, of the current record and of the text, each latest
first. -/
structure Reader where
  place : Place
  field : Bytes
  fields : List Bytes
  records : List Record

namespace Reader

def start : Reader := ⟨.between, [], [], []⟩

def take (r : Reader) (b : UInt8) (place : Place) : Reader :=
  { r with field := b :: r.field, place }

def endField (r : Reader) : Reader :=
  { r with field := [], fields := r.field.reverse :: r.fields, place := .fieldStart }

def endRecord (r : Reader) : Reader where
  place := .between
  field := []
  fields := []
  records := (r.field.reverse :: r.fields).reverse :: r.records

def bareByte (r : Reader) (b : UInt8) : Reader :=
  if b = comma then r.endField
  else if isLineEnd b then r.endRecord
  else r.take b .bare

def firstByte (r : Reader) (b : UInt8) : Reader :=
  if b = quote then { r with place := .quoted } else r.bareByte b

def step (r : Reader) (b : UInt8) : Reader :=
  match r.place with
  | .between => if isLineEnd b then r else r.firstByte b
  | .fieldStart => r.firstByte b
  | .bare => r.bareByte b
  | .quoted => if b = quote then { r with place := .afterQuote } else r.take b .quoted
  | .afterQuote => if b = quote then r.take b .quoted else r.bareByte b

def finish (r : Reader) : List Record :=
  (match r.place with
    | .between => r
    | _ => r.endRecord).records.reverse

end Reader

def records (bytes : Bytes) : List Record := ((dropMark bytes).foldl Reader.step .start).finish

end HashBoard.Csv
