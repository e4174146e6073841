import HashBoard.Json.Decode
import HashBoard.Work.Basic

/-!
# Work in JSON

A work item is described by its number. It searches the full range of nonces for shares of
difficulty one in a header that repeats the low byte of the number, unless it says otherwise.
-/

namespace HashBoard

open Json

def Work.decode? (j : Json) : Option Work := do
  let id := UInt64.ofNat (← j.required? word64? "id")
  return {
    id := id
    header := Bytes.toVector 76 (← j.memberOr? bytes? (List.replicate 76 id.toUInt8) "header")
    nonceStart := ← j.memberOr? word32? fullStart "start"
    nonceEnd := ← j.memberOr? word32? fullEnd "end"
    shareDifficulty := ← j.memberOr? real? 1 "share" }

end HashBoard
