import HashBoard.Capture.Line
import HashBoard.Failure

/-!
# The dissector

The listing of a capture, as asked for on the command line. A transfer that carries nothing but
filler is left out unless all are wanted, and times count from the first transfer unless they are
wanted as they are.
-/

namespace HashBoard.Capture

/-! ### Options -/

structure Options where
  inputs : List String
  showBytes : Bool
  showFiller : Bool
  absoluteTime : Bool
  plain : Bool
  direction : Option String
  deriving DecidableEq

namespace Options

def none : Options := ⟨[], false, false, false, false, .none⟩

def withLong? (o : Options) (name : String) : Option Options :=
  if name = "hex" then some { o with showBytes := true }
  else if name = "all" then some { o with showFiller := true }
  else if name = "absolute-time" then some { o with absoluteTime := true }
  else if name = "no-color" then some { o with plain := true }
  else .none

inductive Reading where
  | done (options : Options)
  | direction (options : Options)
  | unknown

/-- The options after letters behind one dash. The letter for the direction takes the letters after
it, or the next argument. -/
def readLetters (o : Options) : List Char → Reading
  | [] => .done o
  | 'x' :: rest => readLetters { o with showBytes := true } rest
  | 'a' :: rest => readLetters { o with showFiller := true } rest
  | ['f'] => .direction o
  | 'f' :: '=' :: value => .done { o with direction := some (String.ofList value) }
  | 'f' :: value => .done { o with direction := some (String.ofList value) }
  | _ :: _ => .unknown

def directionName : List Char := "filter-direction".toList

def readArgument (o : Options) (argument : String) : Reading :=
  match argument.toList with
  | '-' :: '-' :: name =>
    if name = directionName then .direction o
    else if (directionName ++ ['=']).isPrefixOf name then
      .done { o with direction := some (String.ofList (name.drop (directionName.length + 1))) }
    else
      match o.withLong? (String.ofList name) with
      | some o => .done o
      | .none => .unknown
  | '-' :: letter :: letters => readLetters o (letter :: letters)
  | _ => .done { o with inputs := o.inputs ++ [argument] }

/-- The options that arguments spell; the argument that cannot be read comes back. After two dashes
every argument names a capture. -/
def read (o : Options) : List String → Except String Options
  | [] => .ok o
  | "--" :: rest => .ok { o with inputs := o.inputs ++ rest }
  | argument :: rest =>
    match o.readArgument argument, rest with
    | .done o, rest => read o rest
    | .direction o, value :: rest => read { o with direction := some value } rest
    | .direction _, [] => .error argument
    | .unknown, _ => .error argument

end Options

/-! ### Listings -/

def wantedDirection (o : Options) : Except Failure (Option Direction) :=
  match o.direction with
  | none => .ok none
  | some name =>
    match Direction.ofName? (name.map Char.toLower) with
    | some direction => .ok (some direction)
    | none => .error ⟨s!"unknown direction {Text.quoted name}, expected mosi or miso", []⟩

def isListed (o : Options) (wanted : Option Direction) (t : Transfer) : Bool :=
  wanted.all (· == t.direction) && (o.showFiller || (label t).1.kind != .filler)

def origin (o : Options) (transfers : List Transfer) : Float :=
  match o.absoluteTime, transfers with
  | false, first :: _ => first.time
  | _, _ => 0

def listing (o : Options) (colours : Bool) (wanted : Option Direction)
    (transfers : List Transfer) : String :=
  let begun := origin o transfers
  let listed := transfers.filter (isListed o wanted)
  let failed := listed.countP fun t => (label t).2 == .invalid
  let lines := listed.map fun t => line colours o.showBytes { t with time := t.time - begun }
  let summary := if failed = 0 then [] else [s!"{failed} frame(s) failed CRC"]
  String.join ((lines ++ summary).map (· ++ "\n"))

def unreadable (path : String) (causes : List String) : Failure :=
  ⟨s!"Failed to read capture file: {Text.quoted path}", causes⟩

def dissect (o : Options) (colours : Bool) (path : String) (content : Except String Bytes) :
    Except Failure String := do
  let wanted ← wantedDirection o
  match content with
  | .error source => throw (unreadable path [s!"Failed to open {path}", source])
  | .ok bytes =>
    match read bytes with
    | .error cause => throw (unreadable path [cause.message])
    | .ok transfers => return listing o colours wanted transfers

end HashBoard.Capture
