import HashBoard.Wire.Register

/-!
# The core clock

The first four register bytes are the clock word, high byte first. From its lowest bit on it holds
six unused bits, a two-bit output divider (a power of two), five unused bits, three fixed bits, a
nine-bit multiplier, a five-bit input divider and two unused bits. The clock is
12 MHz * multiplier / (input divider * 2 ^ output divider).
-/

namespace HashBoard.Wire

/-! ### The clock word -/

structure ClockWord where
  bits : UInt32
  deriving DecidableEq

namespace ClockWord

def postdiv (w : ClockWord) : Nat := (w.bits >>> 6).toNat % 4

def fixed (w : ClockWord) : Nat := (w.bits >>> 13).toNat % 8

def fbdiv (w : ClockWord) : Nat := (w.bits >>> 16).toNat % 512

def prediv (w : ClockWord) : Nat := (w.bits >>> 25).toNat % 32

def ofRegister (r : Register) : ClockWord :=
  ⟨Bytes.be32 r.bytes[0] r.bytes[1] r.bytes[2] r.bytes[3]⟩

/-- The word with the given fields and no other bit set, when each field fits its width. -/
def ofFields? (prediv fbdiv postdiv fixed : Nat) : Option ClockWord :=
  if prediv < 32 ∧ fbdiv < 512 ∧ postdiv < 4 ∧ fixed < 8 then
    some ⟨UInt32.ofNat (postdiv <<< 6 + fixed <<< 13 + fbdiv <<< 16 + prediv <<< 25)⟩
  else none

def toBytes (w : ClockWord) : Bytes := Bytes.ofLE32 w.bits

def frequency? (w : ClockWord) : Option Nat :=
  if w.prediv = 0 then none else some (12 * w.fbdiv / (w.prediv <<< w.postdiv))

end ClockWord

/-! ### Supported clocks -/

/-- The supported clocks in MHz, fastest first, and the bytes of their words. -/
def clockTable : List (UInt32 × UInt8 × UInt8 × UInt8 × UInt8) :=
  [(1300, 0x07, 0x45, 0x40, 0x00), (1200, 0x07, 0x2C, 0x40, 0x00), (1100, 0x07, 0x13, 0x40, 0x00),
   (1000, 0x06, 0xFA, 0x40, 0x00), (900, 0x06, 0xE1, 0x40, 0x00), (860, 0x06, 0xD7, 0x40, 0x00),
   (800, 0x06, 0xC8, 0x40, 0x00), (700, 0x06, 0xAF, 0x40, 0x00), (600, 0x07, 0x2C, 0x40, 0x40),
   (500, 0x06, 0xFA, 0x40, 0x40), (400, 0x06, 0xC8, 0x40, 0x40), (300, 0x07, 0x2C, 0x40, 0x80),
   (200, 0x06, 0xC8, 0x40, 0x80), (120, 0x02, 0x50, 0x40, 0xC0)]

def slowestClock : UInt32 × UInt8 × UInt8 × UInt8 × UInt8 := (120, 0x02, 0x50, 0x40, 0xC0)

/-- The table entry for a request: the fastest clock not above it, else the slowest. -/
def clockEntry (mhz : UInt32) : UInt32 × UInt8 × UInt8 × UInt8 × UInt8 :=
  (clockTable.find? fun entry => entry.1 ≤ mhz).getD slowestClock

def selectClock (mhz : UInt32) : UInt32 := (clockEntry mhz).1

def clockRegister (mhz : UInt32) : Register :=
  let (_, a, b, c, d) := clockEntry mhz
  ⟨#v[a, b, c, d, 0x00, 0x00, 0x00, 0xA8, 0x00, 0x24, 0xFF, 0xFF]⟩

theorem clockEntry_mem (mhz : UInt32) : clockEntry mhz ∈ clockTable := by
  unfold clockEntry
  cases hfound : clockTable.find? fun entry => entry.1 ≤ mhz with
  | none => exact List.mem_of_getLast? rfl
  | some entry => exact List.mem_of_find?_eq_some hfound

/-- The clock word of a supported clock stands for that clock. -/
theorem frequency_clockRegister (mhz : UInt32) :
    (ClockWord.ofRegister (clockRegister mhz)).frequency? = some (selectClock mhz).toNat := by
  have htable : (clockTable.all fun entry =>
      ClockWord.frequency? ⟨Bytes.be32 entry.2.1 entry.2.2.1 entry.2.2.2.1 entry.2.2.2.2⟩ ==
        some entry.1.toNat) = true := by
    decide
  exact beq_iff_eq.1 (List.all_eq_true.1 htable _ (clockEntry_mem mhz))

end HashBoard.Wire
