import HashBoard.Single.Basic

/-!
# Temperature statistics

The summary of one sampling pass over a chain. The smallest and the largest reading are taken
before the ends are trimmed, so that a single hot chip still shows; the mean is taken after.
Readings are put in order as bit patterns, in which every NaN has a place of its own.
-/

namespace HashBoard.Thermal

structure Statistics where
  min : Float32
  max : Float32
  median : Float32
  mean : Float32
  samples : Nat

namespace Statistics

/-- The share of readings trimmed from each end when nothing is configured. -/
def standardTrim : Float32 := 5 / 72

/-- How many of `n` readings are trimmed from each end; at least one reading is kept. -/
def trimCount (n : Nat) (trim : Float32) : Nat :=
  Nat.min (Single.toWhole (Single.ofNat n * trim)) ((n - 1) / 2)

def sorted (patterns : List UInt32) : List UInt32 := patterns.mergeSort Single.bitsLe

def kept {α : Type} (k : Nat) (ordered : List α) : List α :=
  (ordered.drop k).take (ordered.length - 2 * k)

def meanOf (readings : List Float32) : Float32 :=
  Single.sum readings / Single.ofNat readings.length

def medianOf (readings : List Float32) : Float32 :=
  let n := readings.length
  if n % 2 = 1 then readings.getD (n / 2) 0
  else (readings.getD (n / 2 - 1) 0 + readings.getD (n / 2) 0) / 2

/-- The summary of readings that are in order. -/
def ofOrdered? (ordered : List Float32) (trim : Float32) : Option Statistics :=
  match ordered.head?, ordered.getLast? with
  | some lowest, some highest =>
    let k := trimCount ordered.length trim
    some { min := lowest
           max := highest
           median := medianOf ordered
           mean := meanOf (kept k ordered)
           samples := ordered.length }
  | _, _ => none

/-- The summary of readings given by their bits. -/
def ofBits? (patterns : List UInt32) (trim : Float32) : Option Statistics :=
  ofOrdered? ((sorted patterns).map Float32.ofBits) trim

def ofReadings? (readings : List Float32) (trim : Float32) : Option Statistics :=
  ofBits? (readings.map Float32.toBits) trim

def movedBy (s : Statistics) (delta : Float32) : Statistics where
  min := s.min + delta
  max := s.max + delta
  median := s.median + delta
  mean := s.mean + delta
  samples := s.samples

theorem length_kept {α : Type} {k : Nat} {ordered : List α} (h : 2 * k ≤ ordered.length) :
    (kept k ordered).length = ordered.length - 2 * k := by
  simp only [kept, List.length_take, List.length_drop]
  omega

end Statistics

/-- The first chip whose reading is closest to a mean. -/
def typical? (mean : Float32) : List (UInt8 × Float32) → Option (UInt8 × Float32)
  | [] => none
  | sample :: rest =>
    match typical? mean rest with
    | none => some sample
    | some other =>
      if Single.totalLe (sample.2 - mean).abs (other.2 - mean).abs then some sample
      else some other

end HashBoard.Thermal
