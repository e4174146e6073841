import HashBoard.Thermal.Statistics

/-!
# The view across chains

The statistics that the chains publish, and what the fans are driven by: the largest mean and the
largest maximum over the enabled chains. The view is unknown while an enabled chain has not
published. News is counted once: taking an update uses it up.
-/

namespace HashBoard.Thermal

inductive View where
  /-- No chain is enabled, or one of them has not published yet. -/
  | unknown
  /-- The largest mean, the largest maximum, and the chain with the largest mean. -/
  | known (control max : Float32) (hottest : UInt8)

structure OverviewEntry where
  enabled : Bool
  stats : Option Statistics

structure Overview where
  entries : List (UInt8 × OverviewEntry)
  /-- Whether there is news since the last update was taken. -/
  fresh : Bool

namespace Overview

def empty : Overview where
  entries := []
  fresh := false

/-! ### Entries -/

def putEntry (chain : UInt8) (entry : OverviewEntry) :
    List (UInt8 × OverviewEntry) → List (UInt8 × OverviewEntry)
  | [] => [(chain, entry)]
  | (c, e) :: rest =>
    if chain < c then (chain, entry) :: (c, e) :: rest
    else if chain = c then (chain, entry) :: rest
    else (c, e) :: putEntry chain entry rest

def entry? (o : Overview) (chain : UInt8) : Option OverviewEntry :=
  (o.entries.find? fun e => e.1 == chain).map Prod.snd

/-! ### What chains report -/

def register (o : Overview) (chain : UInt8) : Overview :=
  { o with entries := putEntry chain { enabled := true, stats := none } o.entries }

def publish (o : Overview) (chain : UInt8) (stats : Statistics) : Overview :=
  let enabled := (o.entry? chain).elim true OverviewEntry.enabled
  { entries := putEntry chain { enabled := enabled, stats := some stats } o.entries
    fresh := true }

def disable (o : Overview) (chain : UInt8) : Overview :=
  match o.entry? chain with
  | none => o
  | some _ =>
    { entries := putEntry chain { enabled := false, stats := none } o.entries
      fresh := true }

/-! ### The view -/

/-- The view over entries, given the largest maximum so far and the largest mean so far with its
chain. -/
def viewFrom (max : Float32) (control : Option (UInt8 × Float32)) :
    List (UInt8 × OverviewEntry) → View
  | [] =>
    match control with
    | some (hottest, mean) => .known mean max hottest
    | none => .unknown
  | (chain, entry) :: rest =>
    if entry.enabled then
      match entry.stats with
      | none => .unknown
      | some stats =>
        let control := match control with
          | none => some (chain, stats.mean)
          | some (c, mean) => if stats.mean > mean then some (chain, stats.mean) else some (c, mean)
        viewFrom (Single.max max stats.max) control rest
    else viewFrom max control rest

def current (o : Overview) : View := viewFrom Single.lowest none o.entries

def takeNews (o : Overview) : Option View × Overview :=
  if o.fresh then (some o.current, { o with fresh := false }) else (none, o)

end Overview

end HashBoard.Thermal
