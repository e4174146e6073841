import HashBoard.Proofs.Wire.ChecksumErrors
import Mathlib.Logic.Function.Iterate

/-!
# The checksum, bit by bit

The register is shifted one bit at a time, and a one that is shifted out is worth the polynomial.
Shifting is linear in exclusive or, so four bits can be taken at once from a table of what the low
four bits are worth; the main statement is that the checksum with the table is the bitwise one, on
frames over the exchanged words.
-/

namespace HashBoard.Wire

/-! ### Bits -/

/-- Shift one bit out of the register. The polynomial is 0x8005 with its lowest bit first. -/
def shiftOut (crc : UInt16) : UInt16 :=
  if crc &&& 1 = 1 then crc >>> 1 ^^^ 0xA001 else crc >>> 1

def bitwiseByte (crc : UInt16) (byte : UInt8) : UInt16 := shiftOut^[8] (crc ^^^ byte.toUInt16)

def bitwiseChecksum (bytes : Bytes) : UInt16 := bytes.foldl bitwiseByte 0xFFFF

theorem and_one_eq_one_iff (crc : UInt16) : crc &&& 1 = 1 ↔ crc.toNat % 2 = 1 := by
  have hone : (1 : UInt16).toNat = 2 ^ 1 - 1 := rfl
  rw [← UInt16.toNat_inj, UInt16.toNat_and, hone, Nat.and_two_pow_sub_one_eq_mod]
  rfl

theorem shiftOut_xor (crc crc' : UInt16) :
    shiftOut (crc ^^^ crc') = shiftOut crc ^^^ shiftOut crc' := by
  have hlow : (crc ^^^ crc').toNat % 2 = (crc.toNat + crc'.toNat) % 2 := by
    rw [UInt16.toNat_xor, Nat.xor_mod_two_eq]
  have hcancel (a b p : UInt16) : a ^^^ p ^^^ (b ^^^ p) = a ^^^ b := by
    rw [UInt16.xor_assoc, UInt16.xor_comm b p, ← UInt16.xor_assoc p p b, UInt16.xor_self,
      UInt16.zero_xor]
  simp only [shiftOut, and_one_eq_one_iff, hlow, UInt16.shiftRight_xor]
  rcases Nat.mod_two_eq_zero_or_one crc.toNat with h | h <;>
    rcases Nat.mod_two_eq_zero_or_one crc'.toNat with h' | h'
  · simp [Nat.add_mod, h, h']
  · simp [Nat.add_mod, h, h', UInt16.xor_assoc]
  · simp only [Nat.add_mod, h, h', Nat.reduceAdd, Nat.reduceMod, if_true, Nat.zero_ne_one, if_false]
    rw [UInt16.xor_assoc, UInt16.xor_assoc, UInt16.xor_comm (0xA001 : UInt16)]
  · simp [Nat.add_mod, h, h', hcancel]

theorem iterate_shiftOut_xor (bits : Nat) (crc crc' : UInt16) :
    shiftOut^[bits] (crc ^^^ crc') = shiftOut^[bits] crc ^^^ shiftOut^[bits] crc' := by
  induction bits generalizing crc crc' with
  | zero => rfl
  | succ bits ih => simp only [Function.iterate_succ_apply, shiftOut_xor, ih]

/-- Only zeros are shifted out of a register whose low bits are clear. -/
theorem toNat_iterate_shiftOut (bits : Nat) {crc : UInt16} (h : 2 ^ bits ∣ crc.toNat) :
    (shiftOut^[bits] crc).toNat = crc.toNat / 2 ^ bits := by
  induction bits generalizing crc with
  | zero => simp
  | succ bits ih =>
    obtain ⟨high, hhigh⟩ := h
    have heven : crc.toNat = 2 * (2 ^ bits * high) := by
      rw [hhigh, Nat.pow_succ', Nat.mul_assoc]
    have hzero : ¬crc &&& 1 = 1 := by
      rw [and_one_eq_one_iff]
      omega
    have hshift : (shiftOut crc).toNat = crc.toNat / 2 := by
      rw [shiftOut, if_neg hzero]
      rfl
    have hhalf : (shiftOut crc).toNat = 2 ^ bits * high := by omega
    rw [Function.iterate_succ_apply, ih ⟨high, hhalf⟩, hshift, Nat.div_div_eq_div_mul,
      Nat.pow_succ']

/-! ### Four bits -/

theorem toNat_shiftRight_four (crc : UInt16) : (crc >>> 4).toNat = crc.toNat / 2 ^ 4 := by
  have hfour : (4 : UInt16).toNat % 16 = 4 := rfl
  rw [UInt16.toNat_shiftRight, hfour, Nat.shiftRight_eq_div_pow]

theorem shiftOut_four_table : ∀ place : Fin 16,
    shiftOut^[4] (UInt16.ofNat place.val) = crcTable.get place := by
  decide

theorem shiftOut_four (crc : UInt16) : shiftOut^[4] crc =
    crcTable.get ⟨crc.toNat % 16, Nat.mod_lt _ (Nat.succ_pos 15)⟩ ^^^ crc >>> 4 := by
  have hlow : (UInt16.ofNat (crc.toNat % 16)).toNat = crc.toNat % 16 := by
    rw [UInt16.toNat_ofNat']
    omega
  -- The low bits go to the table, and the register without them is shifted down.
  generalize hl : UInt16.ofNat (crc.toNat % 16) = low at hlow
  have hsplit : crc = low ^^^ (crc ^^^ low) := by
    rw [UInt16.xor_comm crc, ← UInt16.xor_assoc, UInt16.xor_self, UInt16.zero_xor]
  have hdiv : (crc ^^^ low).toNat / 2 ^ 4 = crc.toNat / 2 ^ 4 := by
    rw [UInt16.toNat_xor, Nat.xor_div_two_pow, hlow, Nat.div_eq_of_lt (Nat.mod_lt _ (by decide)),
      Nat.xor_zero]
  have hclear : 2 ^ 4 ∣ (crc ^^^ low).toNat := by
    apply Nat.dvd_of_mod_eq_zero
    rw [UInt16.toNat_xor, Nat.xor_mod_two_pow, hlow, Nat.mod_mod, Nat.xor_self]
  have hhigh : shiftOut^[4] (crc ^^^ low) = crc >>> 4 := by
    apply UInt16.toNat_inj.1
    rw [toNat_iterate_shiftOut 4 hclear, hdiv, toNat_shiftRight_four]
  have htable := shiftOut_four_table ⟨crc.toNat % 16, Nat.mod_lt _ (Nat.succ_pos 15)⟩
  calc shiftOut^[4] crc = shiftOut^[4] low ^^^ shiftOut^[4] (crc ^^^ low) := by
        rw [← iterate_shiftOut_xor, ← hsplit]
    _ = crcTable.get ⟨crc.toNat % 16, _⟩ ^^^ crc >>> 4 := by rw [hhigh, ← htable, ← hl]

/-- A table step is four bits of the register with the nibble in it, but for the bits that the
nibble itself has above those four. -/
theorem shiftOut_four_xor (crc : UInt16) (nibble : UInt8) :
    shiftOut^[4] (crc ^^^ nibble.toUInt16) = crcNibble crc nibble ^^^ nibble.toUInt16 >>> 4 := by
  have hplace : (⟨(crc ^^^ nibble.toUInt16).toNat % 16, Nat.mod_lt _ (Nat.succ_pos 15)⟩ : Fin 16) =
      crcPlace crc nibble := by
    apply Fin.ext
    have hmod := Nat.xor_mod_two_pow (a := crc.toNat) (b := nibble.toNat) (n := 4)
    rw [val_crcPlace, Nat.xor_comm]
    exact hmod
  rw [shiftOut_four, hplace, crcNibble_eq, UInt16.shiftRight_xor, UInt16.xor_assoc]

theorem crcByte_eq_bitwiseByte (crc : UInt16) (byte : UInt8) :
    crcByte crc byte = bitwiseByte crc byte := by
  have hbyte : byte.toNat < 256 := byte.toNat_lt
  have hhigh : (byte >>> 4).toUInt16 = byte.toUInt16 >>> 4 := UInt8.toUInt16_shiftRight ..
  have hnone : (byte >>> 4).toUInt16 >>> 4 = 0 := by
    apply UInt16.toNat_inj.1
    rw [hhigh, toNat_shiftRight_four, toNat_shiftRight_four, UInt8.toNat_toUInt16]
    show byte.toNat / 2 ^ 4 / 2 ^ 4 = 0
    omega
  have hsecond := shiftOut_four_xor (crcNibble crc byte) (byte >>> 4)
  rw [hnone, UInt16.xor_zero, hhigh, ← shiftOut_four_xor crc byte] at hsecond
  exact hsecond.symm

theorem checksum_eq_bitwiseChecksum (bytes : Bytes) : checksum bytes = bitwiseChecksum bytes := by
  have hstep : crcByte = bitwiseByte := funext₂ crcByte_eq_bitwiseByte
  rw [checksum, bitwiseChecksum, hstep]

/-! ### Exchanged words -/

/-- The place of the other byte of a word in a string of `n` bytes; an odd last byte stands alone. -/
def wordPartner (n place : Nat) : Nat :=
  if place % 2 = 1 then place - 1 else if place + 1 < n then place + 1 else place

def exchangedWords (bytes : Bytes) : Bytes :=
  (List.range bytes.length).filterMap fun place => bytes[wordPartner bytes.length place]?

theorem wordPartner_add_two (n place : Nat) :
    wordPartner (n + 2) (place + 2) = wordPartner n place + 2 := by
  unfold wordPartner
  split_ifs <;> omega

theorem exchangedWords_cons (a b : UInt8) (rest : Bytes) :
    exchangedWords (a :: b :: rest) = b :: a :: exchangedWords rest := by
  have hrange : List.range (rest.length + 2) = 0 :: 1 :: (List.range rest.length).map (· + 2) := by
    rw [List.range_succ_eq_map, List.range_succ_eq_map, List.map_cons, List.map_map]
    rfl
  have hfirst : wordPartner (rest.length + 2) 0 = 1 := by simp [wordPartner]
  have hsecond : wordPartner (rest.length + 2) 1 = 0 := rfl
  have hlater : (fun place => (a :: b :: rest)[wordPartner (rest.length + 2) place]?) ∘ (· + 2) =
      fun place => rest[wordPartner rest.length place]? := by
    funext place
    show (a :: b :: rest)[wordPartner (rest.length + 2) (place + 2)]? = _
    rw [wordPartner_add_two]
    rfl
  simp only [exchangedWords, List.length_cons, hrange, List.filterMap_cons, List.filterMap_map,
    hfirst, hsecond, List.getElem?_cons_succ, List.getElem?_cons_zero, hlater]

theorem swapPairs_eq_exchangedWords (bytes : Bytes) : swapPairs bytes = exchangedWords bytes := by
  fun_induction swapPairs bytes with
  | case1 a b rest ih => rw [exchangedWords_cons, ih]
  | case2 rest h =>
    rcases rest with _ | ⟨a, _ | ⟨b, tail⟩⟩
    · rfl
    · rfl
    · exact absurd rfl (h a b tail)

/-- Taken four bits at a time from the table, the checksum is the bitwise one; on a frame it is that
of the exchanged words. -/
theorem checksum_bitwise (bytes : Bytes) :
    checksum bytes = bitwiseChecksum bytes ∧
      frameChecksum bytes = bitwiseChecksum (exchangedWords bytes) := by
  refine ⟨checksum_eq_bitwiseChecksum bytes, ?_⟩
  rw [frameChecksum, checksum_eq_bitwiseChecksum, swapPairs_eq_exchangedWords]

example : checksum [0x31, 0x32, 0x33, 0x34, 0x35, 0x36, 0x37, 0x38, 0x39] = 0x4B37 := by decide +kernel

example : exchangedWords [1, 2, 3] = [2, 1, 3] := by decide

end HashBoard.Wire
