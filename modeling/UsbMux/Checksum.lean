/-
# The CRC loop computes a polynomial remainder

`ch32mux_crc16` is the register of CRC-16/CCITT: width 16, generator
`X ^ 16 + X ^ 12 + X ^ 5 + 1`, started with ones, bytes high bit first. So it
computes the remainder `Crc.poly_register` states, for messages of any length.

Key definition: `messageBits`.
Key theorems: `toBitVec_crc16`, `generator_crc16`, `crc16_remainder`.
-/
import UsbMux.Proto
import UsbMux.Lib.Crc

namespace UsbMux

open Polynomial

/-- The bits of a message, high bit of the first byte first. -/
def messageBits (d : Bytes) : List Bool := Crc.bits (d.map UInt8.toBitVec)

theorem messageBits_append (a b : Bytes) : messageBits (a ++ b) = messageBits a ++ messageBits b := by
  rw [messageBits, List.map_append, Crc.bits_append]
  rfl

theorem length_messageBits (d : Bytes) : (messageBits d).length = 8 * d.length := by
  rw [messageBits, Crc.length_bits, List.length_map]

/-- `crc & 0x8000` is the bit that falls out. -/
theorem and_top_ne_zero (crc : UInt16) : crc &&& 0x8000 ≠ 0 ↔ crc.toBitVec.msb = true := by
  have hand : (crc &&& 0x8000).toBitVec = if crc.toBitVec.getLsbD 15 then BitVec.twoPow 16 15 else 0#16 := by
    rw [UInt16.toBitVec_and]
    exact BitVec.and_twoPow crc.toBitVec 15
  rw [BitVec.msb_eq_getLsbD_last, ne_eq, ← UInt16.toBitVec_inj, hand]
  by_cases htop : crc.toBitVec.getLsbD 15 = true
  · rw [if_pos htop]
    exact iff_of_true (by decide) htop
  · rw [if_neg htop]
    exact iff_of_false (by decide) htop

/-- A round of the inner loop is a step of the register. -/
theorem toBitVec_crc16Bit (crc : UInt16) : (crc16Bit crc).toBitVec = Crc.step 0x1021#16 crc.toBitVec := by
  unfold crc16Bit Crc.step
  by_cases htop : crc.toBitVec.msb = true
  · rw [if_pos ((and_top_ne_zero crc).mpr htop), if_pos htop, UInt16.toBitVec_xor, UInt16.toBitVec_shiftLeft]
    rfl
  · rw [if_neg (mt (and_top_ne_zero crc).mp htop), if_neg htop, UInt16.toBitVec_shiftLeft]
    rfl

theorem toBitVec_iterate_crc16Bit (crc : UInt16) : ∀ n : ℕ,
    (crc16Bit^[n] crc).toBitVec = (Crc.step 0x1021#16)^[n] crc.toBitVec
  | 0 => rfl
  | n + 1 => by
    rw [Function.iterate_succ_apply', Function.iterate_succ_apply', toBitVec_crc16Bit, toBitVec_iterate_crc16Bit crc n]

theorem toBitVec_crc16Byte (crc : UInt16) (byte : UInt8) :
    (crc16Byte crc byte).toBitVec = Crc.absorb 0x1021#16 crc.toBitVec byte.toBitVec := by
  unfold crc16Byte Crc.absorb
  rw [toBitVec_iterate_crc16Bit, UInt16.toBitVec_xor, UInt16.toBitVec_shiftLeft, UInt8.toBitVec_toUInt16]
  rfl

theorem toBitVec_foldl_crc16Byte : ∀ (d : Bytes) (crc : UInt16),
    (d.foldl crc16Byte crc).toBitVec = Crc.register 0x1021#16 crc.toBitVec (d.map UInt8.toBitVec)
  | [], _ => rfl
  | b :: d, crc => by
    rw [List.foldl_cons, toBitVec_foldl_crc16Byte d, toBitVec_crc16Byte]
    rfl

/-- `crc16` is the register. -/
theorem toBitVec_crc16 (d : Bytes) :
    (crc16 d d.length).toBitVec = Crc.register 0x1021#16 0xFFFF#16 (d.map UInt8.toBitVec) := by
  unfold crc16
  rw [List.take_length, toBitVec_foldl_crc16Byte]
  rfl

/-- The generator of CRC-16/CCITT. -/
theorem generator_crc16 : Crc.generator 0x1021#16 = X ^ 16 + X ^ 12 + X ^ 5 + 1 := by
  have hlow : Crc.poly 0x1021#16 = X ^ 12 + X ^ 5 + 1 := by
    unfold Crc.poly
    simp [Finset.sum_range_succ]
    ring
  rw [Crc.generator, hlow, ← add_assoc, ← add_assoc]

/-- **The CRC loop computes the remainder** of the message's polynomial, moved
up by 16, with 16 ones before the message, modulo the generator. -/
theorem crc16_remainder (d : Bytes) : Crc.poly (crc16 d d.length).toBitVec =
    (Crc.poly 0xFFFF#16 * X ^ (8 * d.length) + Crc.ofBits (messageBits d) * X ^ 16) %ₘ
      (X ^ 16 + X ^ 12 + X ^ 5 + 1) := by
  rw [toBitVec_crc16, Crc.poly_register (show 8 ≤ 16 by decide), generator_crc16, List.length_map]
  rfl

/-- The check value of CRC-16/CCITT with ones to start with. -/
example : crc16 [0x31, 0x32, 0x33, 0x34, 0x35, 0x36, 0x37, 0x38, 0x39] 9 = 0x29B1 := by decide +kernel

end UsbMux
