import HashBoard.Json.Basic

/-!
# Typed values in JSON

What a JSON value is as a truth value, a number of a bounded range, a text, a list or a record. A
record is an object, of which unknown members are passed over and known ones may not come twice, or
an array of its fields in order.
-/

namespace HashBoard.Json

/-! ### Single values -/

def bool? : Json → Option Bool
  | bool b => some b
  | _ => none

def nat? (bound : Nat) : Json → Option Nat
  | num n =>
    match n.value? with
    | some (.natural k) => if k ≤ bound then some k else none
    | _ => none
  | _ => none

def byte? (j : Json) : Option UInt8 := (j.nat? 0xff).map UInt8.ofNat

def word16? (j : Json) : Option UInt16 := (j.nat? 0xffff).map UInt16.ofNat

def word32? (j : Json) : Option UInt32 := (j.nat? 0xffffffff).map UInt32.ofNat

def word64? (j : Json) : Option Nat := j.nat? Numeral.wordLimit

def single? : Json → Option Float32
  | num n => n.value?.map Value.toSingle
  | _ => none

def double? : Json → Option Float
  | num n => n.value?.map Value.toDouble
  | _ => none

def text? : Json → Option String
  | str raw => (decodeRaw? raw).map String.ofList
  | _ => none

def bytes? (j : Json) : Option Bytes := j.text?.bind fun s => Bytes.ofHex? s.toList

def namedReals : List (String × Float) :=
  [("nan", Float.ofBits 0x7ff8000000000000), ("inf", Float.ofBits 0x7ff0000000000000),
   ("-inf", Float.ofBits 0xfff0000000000000), ("-0", Float.ofBits 0x8000000000000000)]

def real? (j : Json) : Option Float :=
  match j.text? with
  | some name => namedReals.lookup name
  | none => j.double?

def realSingle? (j : Json) : Option Float32 := j.real?.map Single.narrow

/-! ### Lists and options -/

def list? {α : Type} (f : Json → Option α) : Json → Option (List α)
  | arr items => items.mapM f
  | _ => none

def optional? {α : Type} (f : Json → Option α) : Json → Option (Option α)
  | null => some none
  | j => (f j).map some

def orElse? {α : Type} (f : Json → Option α) (default : α) : Option Json → Option α
  | none => some default
  | some j => f j

/-! ### Members by name -/

/-- The value of a member, unless it is null. -/
def member? (name : String) : Json → Option Json
  | obj members =>
    match members.find? fun m => m.1 == name.toList with
    | some (_, null) => none
    | found => found.map Prod.snd
  | _ => none

def required? {α : Type} (f : Json → Option α) (name : String) (j : Json) : Option α :=
  (j.member? name).bind f

def memberOr? {α : Type} (f : Json → Option α) (default : α) (name : String) (j : Json) :
    Option α :=
  orElse? f default (j.member? name)

/-! ### Records -/

def valuesOf (name : String) (members : List (String × Json)) : List Json :=
  (members.filter fun m => m.1 == name).map Prod.snd

def atMostOne : List Json → Option (Option Json)
  | [] => some none
  | [j] => some (some j)
  | _ => none

def decodeMembers? (members : List (List Char × Json)) : Option (List (String × Json)) :=
  members.mapM fun m => (decodeRaw? m.1).map fun name => (String.ofList name, m.2)

def record? (names : List String) : Json → Option (List (Option Json))
  | obj members => do
    let decoded ← decodeMembers? members
    names.mapM fun name => atMostOne (valuesOf name decoded)
  | arr items =>
    if names.length < items.length then none
    else some (items.map some ++ List.replicate (names.length - items.length) none)
  | _ => none

/-- One of some named values: its name, or an object whose only member has that name and is
null. -/
def variant? {α : Type} (ofName? : String → Option α) : Json → Option α
  | str raw => (decodeRaw? raw).bind fun name => ofName? (String.ofList name)
  | obj [(raw, null)] => (decodeRaw? raw).bind fun name => ofName? (String.ofList name)
  | _ => none

/-- A table whose keys are bytes in canonical decimal, by rising key; of two values of one key the
later holds. -/
def byteTable? {α : Type} (f : Json → Option α) : Json → Option (List (UInt8 × α))
  | obj members => do
    let entries ← members.mapM fun m => do
      let (numeral, rest) ← readNumeral? m.1
      let key ← if rest.isEmpty then (num numeral).byte? else none
      let value ← f m.2
      return (key, value)
    return (List.range 256).filterMap fun k =>
      (entries.reverse.find? fun e => e.1.toNat == k)
  | _ => none

end HashBoard.Json
