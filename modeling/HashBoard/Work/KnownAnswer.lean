import HashBoard.Work.Basic

/-!
# Known-answer work

Work that exercises a chain without a pool: every item covers four nonces around a header whose
answer is known, so each healthy chip should report that nonce once an item. The sink keeps score
by chip.
-/

namespace HashBoard.KnownAnswer

def header : Vector UInt8 76 :=
  #v[0x20, 0x00, 0x00, 0x00, 0xd2, 0xc4, 0x31, 0x8d, 0xfe, 0x49, 0xd6, 0xa2, 0x18, 0xea, 0x13, 0xc7,
     0x34, 0x16, 0x8c, 0xfc, 0x5d, 0x2e, 0x8b, 0xff, 0x6b, 0x11, 0xd9, 0x4e, 0x96, 0x6a, 0x5d, 0x8f,
     0x21, 0xc4, 0x72, 0x13, 0x9a, 0x10, 0xb7, 0x8d, 0xa6, 0x07, 0x1f, 0x03, 0xe7, 0x41, 0x48, 0x81,
     0x37, 0x3e, 0xcb, 0x5e, 0x29, 0x64, 0x96, 0xa2, 0xc2, 0xdf, 0x8f, 0xcc, 0x9f, 0x15, 0xa9, 0xab,
     0x7b, 0xba, 0xe7, 0xcd, 0x59, 0xed, 0xd6, 0x01, 0x1a, 0x10, 0x89, 0xd7]

def answer : UInt32 := 0x01986d55

def work (id : UInt64) : Work where
  id := id
  header := header
  nonceStart := 0x01986d54
  nonceEnd := 0x01986d57
  shareDifficulty := 16384

def source : WorkSupply where
  supply n := some (work (UInt64.ofNat n))
  requests := 0

def sink : Sink where
  judge _ _ _ nonce := nonce == answer
  events := []

structure Score where
  good : Nat
  bad : Nat
  deriving DecidableEq

def credit (chip : UInt8) (good : Bool) : List (UInt8 × Score) → List (UInt8 × Score)
  | [] => [(chip, if good then ⟨1, 0⟩ else ⟨0, 1⟩)]
  | (c, score) :: rest =>
    if chip < c then (chip, if good then ⟨1, 0⟩ else ⟨0, 1⟩) :: (c, score) :: rest
    else if chip = c then
      (c, if good then { score with good := score.good + 1 }
          else { score with bad := score.bad + 1 }) :: rest
    else (c, score) :: credit chip good rest

def scores (events : List SinkEvent) : List (UInt8 × Score) :=
  events.foldr (fun event table =>
    match event with
    | .submitted _ chip _ accepted => credit chip accepted table
    | .completed _ _ => table) []

def completed (events : List SinkEvent) : Nat :=
  events.countP fun event => match event with
    | .completed _ _ => true
    | .submitted _ _ _ _ => false

end HashBoard.KnownAnswer
