import HashBoard.Decimal.Whole
import HashBoard.Text.Blank

/-!
# Sets of chains

The chains to drive, one bit each. A set is read from a number in decimal, hexadecimal or binary,
or from the names of its chains.
-/

namespace HashBoard

/-- The chains to drive: bit `n` stands for chain `n`. -/
structure ChainSet where
  bits : UInt8
  deriving DecidableEq

namespace ChainSet

open Decimal (WholeError readWhole)

def has (m : ChainSet) (chain : UInt8) : Bool := m.bits &&& (1 <<< chain) != 0

def chains (m : ChainSet) : List UInt8 := [0, 1, 2, 3, 4, 5, 6, 7].filter m.has

def standard : ChainSet := ⟨7⟩

/-! ### Numbers -/

/-- The set that a number spells: hexadecimal after 0x or 0X, binary after 0b, else decimal. -/
def ofText (text : String) : Except WholeError ChainSet :=
  let bits := match Text.trimChars text.toList with
    | '0' :: 'x' :: rest => readWhole 16 255 rest
    | '0' :: 'X' :: rest => readWhole 16 255 rest
    | '0' :: 'b' :: rest => readWhole 2 255 rest
    | cs => readWhole 10 255 cs
  bits.map fun n => ⟨UInt8.ofNat n⟩

/-! ### Names -/

def flagName (chain : UInt8) : String := s!"CHAIN{chain.toNat}"

def names (m : ChainSet) : String := " | ".intercalate (m.chains.map flagName)

def splitBars : List Char → List (List Char)
  | [] => [[]]
  | c :: rest =>
    match splitBars rest with
    | [] => [[c]]
    | first :: more => if c = '|' then [] :: first :: more else (c :: first) :: more

def flag? (cs : List Char) : Option UInt8 :=
  match cs with
  | '0' :: 'x' :: rest => (readWhole 16 255 rest).toOption.map UInt8.ofNat
  | _ =>
    let named : List UInt8 := [0, 1, 2, 3, 4, 5, 6, 7]
    (named.find? fun chain => flagName chain == String.ofList cs).map fun chain =>
      (1 : UInt8) <<< chain

def ofNames? (text : String) : Option ChainSet :=
  if (Text.trimChars text.toList).isEmpty then some ⟨0⟩
  else
    ((splitBars text.toList).mapM fun cs => flag? (Text.trimChars cs)).map fun flags =>
      ⟨flags.foldl (· ||| ·) 0⟩

end ChainSet

end HashBoard
