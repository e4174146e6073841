import HashBoard.Bytes

/-!
# The frame checksum

A reflected CRC-16 seeded with all ones, taken four bits at a time from a table of sixteen words.
On the wire it covers the frame with the two bytes of every 16-bit word exchanged, because the
chips shift data in as words with the high byte first, and it travels with its high byte first.
-/

namespace HashBoard.Wire

/-! ### The register -/

/-- What four bits shifted out of the register are worth, by their value. -/
def crcTable : Vector UInt16 16 :=
  #v[0x0000, 0xCC01, 0xD801, 0x1400, 0xF001, 0x3C00, 0x2800, 0xE401,
     0xA001, 0x6C00, 0x7800, 0xB401, 0x5000, 0x9C01, 0x8801, 0x4400]

def crcNibble (crc : UInt16) (nibble : UInt8) : UInt16 :=
  crcTable.get ⟨((nibble ^^^ crc.toUInt8) &&& 0x0f).toNat % 16, Nat.mod_lt _ (by decide)⟩ ^^^
    (crc >>> 4)

/-- Shift one byte into the checksum register, low four bits first. -/
def crcByte (crc : UInt16) (byte : UInt8) : UInt16 :=
  crcNibble (crcNibble crc byte) (byte >>> 4)

def checksum (bytes : Bytes) : UInt16 := bytes.foldl crcByte 0xFFFF

/-! ### Exchanged words -/

/-- Exchange the two bytes of every whole word; an odd last byte stays. -/
def swapPairs : Bytes → Bytes
  | a :: b :: rest => b :: a :: swapPairs rest
  | rest => rest

/-- The checksum as the chips take it: over the exchanged words. -/
def frameChecksum (bytes : Bytes) : UInt16 := checksum (swapPairs bytes)

theorem length_swapPairs (bytes : Bytes) : (swapPairs bytes).length = bytes.length := by
  fun_induction swapPairs bytes with
  | case1 a b rest ih => simp only [List.length_cons, ih]
  | case2 rest _ => rfl

theorem swapPairs_swapPairs (bytes : Bytes) : swapPairs (swapPairs bytes) = bytes := by
  fun_induction swapPairs bytes with
  | case1 a b rest ih => simp only [swapPairs, ih]
  | case2 rest h =>
    match rest, h with
    | [], _ => rfl
    | [_], _ => rfl
    | a :: b :: tail, h => exact absurd rfl (h a b tail)

/-! ### Sealed frames -/

def sealed (bytes : Bytes) : Bytes := bytes ++ Bytes.ofBE16 (frameChecksum bytes)

def trailer (frame : Bytes) : UInt16 :=
  Bytes.be16 (frame.getD (frame.length - 2) 0) (frame.getD (frame.length - 1) 0)

def isSealed (frame : Bytes) : Bool :=
  decide (2 ≤ frame.length) &&
    frameChecksum (frame.take (frame.length - 2)) == trailer frame

theorem length_sealed (bytes : Bytes) : (sealed bytes).length = bytes.length + 2 := by
  simp only [sealed, List.length_append, Bytes.length_ofBE16]

theorem isSealed_sealed (bytes : Bytes) : isSealed (sealed bytes) = true := by
  have hn : bytes.length + 1 < (sealed bytes).length := by rw [length_sealed]; omega
  have htake : (sealed bytes).take ((sealed bytes).length - 2) = bytes := by
    rw [length_sealed]
    simp only [sealed, Nat.add_sub_cancel, List.take_left]
  have htail : trailer (sealed bytes) = frameChecksum bytes := by
    simp only [trailer, length_sealed]
    have h1 : bytes.length + 2 - 2 = bytes.length := by omega
    have h2 : bytes.length + 2 - 1 = bytes.length + 1 := by omega
    rw [h1, h2]
    simp only [sealed, Bytes.ofBE16, List.getD_eq_getElem?_getD]
    simp only [List.getElem?_append_right (Nat.le_refl _), Nat.sub_self,
      List.getElem?_append_right (Nat.le_succ _), Nat.succ_eq_add_one, Nat.add_sub_cancel_left]
    simp only [List.getElem?_cons_zero, List.getElem?_cons_succ, Option.getD_some]
    exact Bytes.be16_ofBE16 _
  simp only [isSealed, htake, htail, beq_self_eq_true, Bool.and_true, decide_eq_true_eq]
  rw [length_sealed]
  omega

end HashBoard.Wire
