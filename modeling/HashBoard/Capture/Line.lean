import HashBoard.Capture.Label
import HashBoard.Decimal.Fixed

/-!
# Listed transfers

How a transfer is shown: its time, its direction, its label, the state of its checksum and, on a
second line, its bytes. Colours are a terminal's escape sequences and may be left out.
-/

namespace HashBoard.Capture

/-! ### Colours -/

inductive Shade where
  | plain | cyan | magenta | green | yellow | red | boldRed | dim
  deriving DecidableEq

def Shade.code? : Shade → Option String
  | plain => none
  | cyan => some "36"
  | magenta => some "35"
  | green => some "32"
  | yellow => some "33"
  | red => some "31"
  | boldRed => some "1;31"
  | dim => some "2"

def paint (colours : Bool) (shade : Shade) (text : String) : String :=
  match colours, shade.code? with
  | true, some code => "\x1b[" ++ code ++ "m" ++ text ++ "\x1b[0m"
  | _, _ => text

/-! ### Lines -/

def Direction.arrow : Direction → Shade × String
  | mosi => (.cyan, "MOSI →")
  | miso => (.magenta, "MISO ←")

def Label.shown (l : Label) : Shade × String :=
  match l.kind with
  | .command => (.plain, l.text)
  | .response => (.plain, l.text)
  | .filler => (.dim, "filler")
  | .unknown => (.yellow, l.text)
  | .invalid => (.red, l.text)

/-- The state of a checksum, with a blank in front; empty when there is none. -/
def Check.mark (colours : Bool) : Check → String
  | valid => " [" ++ paint colours .green "CRC ok" ++ "]"
  | invalid => " [" ++ paint colours .boldRed "CRC BAD" ++ "]"
  | notChecked => ""

def timeWidth : Nat := 12

def bytesLine (colours : Bool) (bytes : Bytes) : String :=
  "\n" ++ Decimal.padLeft timeWidth "" ++ " " ++ paint colours .dim (Bytes.hex bytes)

def line (colours withBytes : Bool) (t : Transfer) : String :=
  let (l, check) := label t
  let time := Decimal.padLeft timeWidth (Decimal.fixed 6 (Decimal.Parts.ofDouble t.time))
  let arrow := paint colours t.direction.arrow.1 t.direction.arrow.2
  let content := paint colours l.shown.1 l.shown.2
  time ++ " " ++ arrow ++ " " ++ content ++ check.mark colours ++
    (if withBytes then bytesLine colours t.bytes else "")

end HashBoard.Capture
