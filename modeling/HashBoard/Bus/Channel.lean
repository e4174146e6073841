import HashBoard.Wire.Error

/-!
# Channels

A half-duplex byte channel to one chain, and the clock that bounds the time spent on it. Any type
with these three operations is a channel; what it answers may depend on all that happened to it
before.
-/

namespace HashBoard.Bus

/-- A byte channel with a clock. -/
class Channel (τ : Type) where
  write : Bytes → τ → Except Wire.ChannelError Unit × τ
  read : (n : Nat) → τ → Except Wire.ChannelError (Vector UInt8 n) × τ
  now : τ → Nat × τ

instance {σ τ : Type} [Channel σ] [Channel τ] : Channel (σ ⊕ τ) where
  write frame t := match t with
    | .inl s => let (answer, s) := Channel.write frame s; (answer, .inl s)
    | .inr s => let (answer, s) := Channel.write frame s; (answer, .inr s)
  read n t := match t with
    | .inl s => let (answer, s) := Channel.read n s; (answer, .inl s)
    | .inr s => let (answer, s) := Channel.read n s; (answer, .inr s)
  now t := match t with
    | .inl s => let (time, s) := Channel.now s; (time, .inl s)
    | .inr s => let (time, s) := Channel.now s; (time, .inr s)

inductive Call where
  | wrote (frame : Bytes) (answer : Except Wire.ChannelError Unit)
  | read (count : Nat) (answer : Except Wire.ChannelError Bytes)

namespace Call

def sent? : Call → Option Bytes
  | wrote frame (.ok ()) => some frame
  | _ => none

def isWrite : Call → Bool
  | wrote _ _ => true
  | read _ _ => false

def isRead : Call → Bool
  | wrote _ _ => false
  | read _ _ => true

def requested : Call → Nat
  | wrote _ _ => 0
  | read count _ => count

end Call

structure Traffic where
  /-- The frames put on the wire, oldest first. -/
  frames : List Bytes
  reads : Nat
  bytesRead : Nat
  deriving DecidableEq

/-- The traffic after the first `count` calls of a record that has the latest call first. -/
def Traffic.after (count : Nat) (calls : List Call) : Traffic :=
  let new := (calls.take (calls.length - count)).reverse
  { frames := new.filterMap Call.sent?
    reads := new.countP Call.isRead
    bytesRead := new.foldr (fun call n => call.requested + n) 0 }

end HashBoard.Bus
