import HashBoard.Bytes

/-!
# JSON strings

A string is kept as it is written between its quotes. Its escapes are checked when it is read; the
characters they stand for are found only when the string is used, because two halves of a
surrogate pair that do not fit together matter only then.
-/

namespace HashBoard.Json

def readRaw (acc : List Char) : List Char → Option (List Char × List Char)
  | [] => none
  | '"' :: rest => some (acc.reverse, rest)
  | '\\' :: 'u' :: a :: b :: c :: d :: rest =>
    if [a, b, c, d].all fun h => (Bytes.hexValue? h).isSome then
      readRaw (d :: c :: b :: a :: 'u' :: '\\' :: acc) rest
    else none
  | '\\' :: c :: rest =>
    if c ∈ ['"', '\\', '/', 'b', 'f', 'n', 'r', 't'] then readRaw (c :: '\\' :: acc) rest
    else none
  | c :: rest => if c.toNat < 0x20 then none else readRaw (c :: acc) rest

def unit (a b c d : Char) : Nat :=
  [a, b, c, d].foldl (fun n h => 16 * n + (Bytes.hexValue? h).getD 0) 0

def escaped (c : Char) : Char :=
  if c = 'b' then '\x08'
  else if c = 'f' then '\x0c'
  else if c = 'n' then '\n'
  else if c = 'r' then '\r'
  else if c = 't' then '\t'
  else c

/-- The characters that raw characters stand for; none when a surrogate stands alone. -/
def decodeRaw? : List Char → Option (List Char)
  | [] => some []
  | '\\' :: 'u' :: a :: b :: c :: d :: rest =>
    let first := unit a b c d
    if 0xDC00 ≤ first ∧ first ≤ 0xDFFF then none
    else if 0xD800 ≤ first ∧ first ≤ 0xDBFF then
      match rest with
      | '\\' :: 'u' :: e :: f :: g :: h :: rest =>
        let second := unit e f g h
        if 0xDC00 ≤ second ∧ second ≤ 0xDFFF then
          (decodeRaw? rest).map
            (Char.ofNat (0x10000 + (first - 0xD800) * 0x400 + (second - 0xDC00)) :: ·)
        else none
      | _ => none
    else (decodeRaw? rest).map (Char.ofNat first :: ·)
  | '\\' :: c :: rest => (decodeRaw? rest).map (escaped c :: ·)
  | c :: rest => (decodeRaw? rest).map (c :: ·)

end HashBoard.Json
