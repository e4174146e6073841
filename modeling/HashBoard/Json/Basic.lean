import HashBoard.Json.Numeral
import HashBoard.Json.Text

/-!
# JSON

JSON values as they are written, and their reader. Numbers and strings keep their spelling, so that
an unused value may hold a number that is too large or half a surrogate pair.
-/

namespace HashBoard

inductive Json where
  | null
  | bool (value : Bool)
  | num (numeral : Json.Numeral)
  /-- A string, as it stands between its quotes. -/
  | str (raw : List Char)
  | arr (items : List Json)
  /-- The members in the order written, with their names as they stand between quotes. -/
  | obj (members : List (List Char × Json))

namespace Json

open Decimal.Literal (isDigit)

/-! ### Tokens -/

def isSpace (c : Char) : Bool := c == ' ' || c == '\n' || c == '\t' || c == '\r'

def skipSpace (cs : List Char) : List Char := cs.dropWhile isSpace

def readWhole? (cs : List Char) : Option (List Char × List Char) :=
  let digits := cs.takeWhile isDigit
  match digits with
  | [] => none
  | '0' :: _ :: _ => none
  | _ => some (digits, cs.dropWhile isDigit)

def readFraction? : List Char → Option (Option (List Char) × List Char)
  | '.' :: rest =>
    let digits := rest.takeWhile isDigit
    if digits.isEmpty then none else some (some digits, rest.dropWhile isDigit)
  | cs => some (none, cs)

def readPower? (cs : List Char) : Option ((Bool × List Char) × List Char) :=
  let (down, rest) := Decimal.Literal.splitSign cs
  let digits := rest.takeWhile isDigit
  if digits.isEmpty then none else some ((down, digits), rest.dropWhile isDigit)

def readExponent? : List Char → Option (Option (Bool × List Char) × List Char)
  | 'e' :: rest => (readPower? rest).map fun (e, cs) => (some e, cs)
  | 'E' :: rest => (readPower? rest).map fun (e, cs) => (some e, cs)
  | cs => some (none, cs)

def readNumeral? (cs : List Char) : Option (Numeral × List Char) := do
  let (negative, cs) := match cs with
    | '-' :: rest => (true, rest)
    | cs => (false, cs)
  let (whole, cs) ← readWhole? cs
  let (fraction, cs) ← readFraction? cs
  let (exponent, cs) ← readExponent? cs
  return ({ negative, whole, fraction, exponent }, cs)

def readWord? : List Char → List Char → Option (List Char)
  | [], cs => some cs
  | w :: word, c :: cs => if w = c then readWord? word cs else none
  | _ :: _, [] => none

/-! ### Values -/

mutual

/-- A value at the start of a text, and what follows it. The first argument bounds the depth of the
recursion. -/
def readValue : Nat → List Char → Option (Json × List Char)
  | 0, _ => none
  | fuel + 1, cs =>
    match skipSpace cs with
    | '\x7b' :: rest =>
      match skipSpace rest with
      | '\x7d' :: rest => some (obj [], rest)
      | rest => (readMembers fuel rest).map fun (members, cs) => (obj members, cs)
    | '[' :: rest =>
      match skipSpace rest with
      | ']' :: rest => some (arr [], rest)
      | rest => (readItems fuel rest).map fun (items, cs) => (arr items, cs)
    | '"' :: rest => (readRaw [] rest).map fun (raw, cs) => (str raw, cs)
    | 'n' :: rest => (readWord? ['u', 'l', 'l'] rest).map fun cs => (null, cs)
    | 't' :: rest => (readWord? ['r', 'u', 'e'] rest).map fun cs => (bool true, cs)
    | 'f' :: rest => (readWord? ['a', 'l', 's', 'e'] rest).map fun cs => (bool false, cs)
    | cs => (readNumeral? cs).map fun (n, cs) => (num n, cs)

def readItems : Nat → List Char → Option (List Json × List Char)
  | 0, _ => none
  | fuel + 1, cs => do
    let (item, cs) ← readValue fuel cs
    match skipSpace cs with
    | ',' :: rest =>
      let (items, cs) ← readItems fuel rest
      return (item :: items, cs)
    | ']' :: rest => return ([item], rest)
    | _ => none

def readMembers : Nat → List Char → Option (List (List Char × Json) × List Char)
  | 0, _ => none
  | fuel + 1, cs => do
    let '"' :: rest := skipSpace cs | none
    let (name, cs) ← readRaw [] rest
    let ':' :: rest := skipSpace cs | none
    let (value, cs) ← readValue fuel rest
    match skipSpace cs with
    | ',' :: rest =>
      let (members, cs) ← readMembers fuel rest
      return ((name, value) :: members, cs)
    | '\x7d' :: rest => return ([(name, value)], rest)
    | _ => none

end

/-- The value that a text is, with nothing but blanks around it. Every step down the recursion
takes at least one character of two, so the bound is never met. -/
def parse? (text : String) : Option Json := do
  let cs := text.toList
  let (value, rest) ← readValue (2 * cs.length + 2) cs
  if (skipSpace rest).isEmpty then some value else none

end Json

end HashBoard
