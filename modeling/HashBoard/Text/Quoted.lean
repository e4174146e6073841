import HashBoard.Bytes
import HashBoard.Text.Invisible

/-!
# Quoted text

A text between double quotes, in which quotes, backslashes and line ends are escaped and characters
that show nothing of their own are spelled by their code.
-/

namespace HashBoard.Text

def escapeChar (c : Char) : List Char :=
  if c = '"' then ['\\', '"']
  else if c = '\\' then ['\\', '\\']
  else if c = '\n' then ['\\', 'n']
  else if c = '\r' then ['\\', 'r']
  else if c = '\t' then ['\\', 't']
  else if c.toNat = 0 then ['\\', '0']
  else if isSpelledOut c then
    ['\\', 'u', '\x7b'] ++ (Bytes.hexNat 1 c.toNat).toList ++ ['\x7d']
  else [c]

def quoted (s : String) : String :=
  String.ofList ('"' :: (s.toList.flatMap escapeChar ++ ['"']))

end HashBoard.Text
