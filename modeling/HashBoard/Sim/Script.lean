import HashBoard.Bus.Channel

/-!
# A scripted chain

A channel that plays a list of replies: each successful write replaces the waiting reply by the
next one of the list, and reads take from it and then give zeros. Calls named by their number fail.
-/

namespace HashBoard

structure Script where
  replies : List Bytes
  waiting : Bytes
  /-- Numbers of the writes that fail, counted from 1. -/
  failWrites : List Nat
  failReads : List Nat
  writes : Nat
  reads : Nat

namespace Script

def start (replies : List Bytes) (failWrites failReads : List Nat) : Script where
  replies := replies
  waiting := []
  failWrites := failWrites
  failReads := failReads
  writes := 0
  reads := 0

/-- Take a frame: play the next reply, unless this write fails. -/
def write (_frame : Bytes) (s : Script) : Except Wire.ChannelError Unit × Script :=
  let s := { s with writes := s.writes + 1 }
  if s.writes ∈ s.failWrites then (.error (.transfer "scripted write failure"), s)
  else (.ok (), { s with waiting := s.replies.headD [], replies := s.replies.tail })

def read (n : Nat) (s : Script) : Except Wire.ChannelError (Vector UInt8 n) × Script :=
  let s := { s with reads := s.reads + 1 }
  if s.reads ∈ s.failReads then (.error (.transfer "scripted read failure"), s)
  else (.ok (Bytes.toVector n s.waiting), { s with waiting := s.waiting.drop n })

instance : Bus.Channel Script where
  write := write
  read := read
  now s := (0, s)

end Script

end HashBoard
