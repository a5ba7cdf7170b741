/-
# Byte buffers and little-endian words

What a program does to a buffer with `memcpy` at an offset (`writeAt`), and
the bytes of 16-bit and 32-bit words, low byte first (`le16`, `word16`,
`le32`, `word32`). A buffer is the list of its bytes, and a copy right behind
the bytes already stored appends to them (`writeAt_append`).
-/
import Mathlib.Data.Nat.Notation
import Mathlib.Data.List.Basic
import Mathlib.Tactic.NormNum

namespace Buffer

variable {α : Type*}

/-- `dst` with the items from `off` on replaced by `src`. A copy past the end
makes the buffer longer, so an overrun shows in the length. -/
def writeAt (dst : List α) (off : ℕ) (src : List α) : List α :=
  dst.take off ++ src ++ dst.drop (off + src.length)

/-- A copy right behind a prefix appends to it. -/
theorem writeAt_append (pre rest src : List α) :
    writeAt (pre ++ rest) pre.length src = (pre ++ src) ++ rest.drop src.length := by
  simp [writeAt, List.drop_append]

@[simp] theorem writeAt_zero (dst src : List α) : writeAt dst 0 src = src ++ dst.drop src.length := by
  simp [writeAt]

@[simp] theorem writeAt_nil (dst : List α) (off : ℕ) : writeAt dst off [] = dst := by
  simp [writeAt]

/-- A copy within the buffer leaves its length. -/
theorem length_writeAt {dst : List α} {off : ℕ} {src : List α} (h : off + src.length ≤ dst.length) :
    (writeAt dst off src).length = dst.length := by
  simp only [writeAt, List.length_append, List.length_take, List.length_drop]
  omega

/-- Up to its end a copy is behind what stood before it. -/
theorem take_writeAt {dst : List α} {off : ℕ} {src : List α} (h : off ≤ dst.length) :
    (writeAt dst off src).take (off + src.length) = dst.take off ++ src := by
  have hlen : (dst.take off ++ src).length = off + src.length := by
    rw [List.length_append, List.length_take, Nat.min_eq_left h]
  rw [writeAt, List.take_left' hlen]

/-- Two copies, one right behind the other, are one. -/
theorem writeAt_writeAt {dst : List α} {off : ℕ} (h : off ≤ dst.length) (a b : List α) :
    writeAt (writeAt dst off a) (off + a.length) b = writeAt dst off (a ++ b) := by
  obtain ⟨pre, rest, rfl, rfl⟩ : ∃ pre rest, dst = pre ++ rest ∧ pre.length = off :=
    ⟨dst.take off, dst.drop off, (List.take_append_drop off dst).symm, List.length_take_of_le h⟩
  rw [writeAt_append, ← List.length_append, writeAt_append, writeAt_append, List.drop_drop, List.length_append,
    List.append_assoc pre]

end Buffer

namespace LittleEndian

/-- The low byte of a word. -/
def lo8 (v : UInt16) : UInt8 := (v &&& 0xFF).toUInt8

/-- The high byte of a word. -/
def hi8 (v : UInt16) : UInt8 := (v >>> 8).toUInt8

/-- The word with low byte `lo` and high byte `hi`. -/
def word16 (lo hi : UInt8) : UInt16 := lo.toUInt16 ||| (hi.toUInt16 <<< 8)

/-- Bits above and below do not meet. -/
theorem or_shiftLeft {x k : ℕ} (hx : x < 2 ^ k) (y : ℕ) : x ||| y <<< k = x + y * 2 ^ k := by
  rw [Nat.or_comm, ← Nat.shiftLeft_add_eq_or_of_lt hx y, Nat.shiftLeft_eq, Nat.add_comm]

theorem toNat_word16 (lo hi : UInt8) : (word16 lo hi).toNat = lo.toNat + 256 * hi.toNat := by
  have hl := lo.toNat_lt
  have hh := hi.toNat_lt
  have hs : hi.toNat <<< (8 % 16) % 2 ^ 16 = hi.toNat <<< 8 :=
    Nat.mod_eq_of_lt (by norm_num [Nat.shiftLeft_eq]; omega)
  calc (word16 lo hi).toNat = lo.toNat ||| hi.toNat <<< 8 := by
        unfold word16
        simp only [UInt16.toNat_or, UInt8.toNat_toUInt16, UInt16.toNat_shiftLeft]
        rw [show (8 : UInt16).toNat = 8 from rfl, hs]
    _ = lo.toNat + 256 * hi.toNat := by
        rw [or_shiftLeft (show lo.toNat < 2 ^ 8 by omega)]
        omega

theorem toNat_lo8 (v : UInt16) : (lo8 v).toNat = v.toNat % 256 := by
  have h := Nat.and_two_pow_sub_one_eq_mod (v.toNat % 256) 8
  simp [lo8] at h ⊢
  exact h

theorem toNat_hi8 (v : UInt16) : (hi8 v).toNat = v.toNat / 256 := by
  have := v.toNat_lt
  simp [hi8, Nat.shiftRight_eq_div_pow]
  omega

@[simp] theorem word16_lo8_hi8 (v : UInt16) : word16 (lo8 v) (hi8 v) = v := by
  apply UInt16.toNat_inj.mp
  rw [toNat_word16, toNat_lo8, toNat_hi8]
  omega

@[simp] theorem lo8_word16 (lo hi : UInt8) : lo8 (word16 lo hi) = lo := by
  apply UInt8.toNat_inj.mp
  have := lo.toNat_lt
  rw [toNat_lo8, toNat_word16]
  omega

@[simp] theorem hi8_word16 (lo hi : UInt8) : hi8 (word16 lo hi) = hi := by
  apply UInt8.toNat_inj.mp
  have := lo.toNat_lt
  rw [toNat_hi8, toNat_word16]
  omega

/-- The bytes of a 16-bit word. -/
def le16 (v : UInt16) : List UInt8 := [lo8 v, hi8 v]

/-! ### 32-bit words -/

/-- The bytes of a 32-bit word. -/
def le32 (v : UInt32) : List UInt8 :=
  [v.toUInt8, (v >>> 8).toUInt8, (v >>> 16).toUInt8, (v >>> 24).toUInt8]

/-- The word with these bytes. -/
def word32 (b₀ b₁ b₂ b₃ : UInt8) : UInt32 :=
  b₀.toUInt32 ||| (b₁.toUInt32 <<< 8) ||| (b₂.toUInt32 <<< 16) ||| (b₃.toUInt32 <<< 24)

/-- A byte moved up by less than four bytes stays whole. -/
theorem toNat_byte_shiftLeft (b : UInt8) {k : UInt32} (hk : k.toNat ≤ 24) :
    (b.toUInt32 <<< k).toNat = b.toNat <<< k.toNat := by
  have hb := b.toNat_lt
  have hpow : 2 ^ k.toNat ≤ 2 ^ 24 := Nat.pow_le_pow_right (by norm_num) hk
  rw [UInt32.toNat_shiftLeft, Nat.mod_eq_of_lt (show k.toNat < 32 by omega), UInt8.toNat_toUInt32]
  apply Nat.mod_eq_of_lt
  rw [Nat.shiftLeft_eq]
  calc b.toNat * 2 ^ k.toNat ≤ 255 * 2 ^ 24 := Nat.mul_le_mul (by omega) hpow
    _ < 2 ^ 32 := by norm_num

theorem toNat_word32 (b₀ b₁ b₂ b₃ : UInt8) :
    (word32 b₀ b₁ b₂ b₃).toNat = b₀.toNat + 2 ^ 8 * b₁.toNat + 2 ^ 16 * b₂.toNat + 2 ^ 24 * b₃.toNat := by
  have h₀ := b₀.toNat_lt
  have h₁ := b₁.toNat_lt
  have h₂ := b₂.toNat_lt
  unfold word32
  simp only [UInt32.toNat_or, UInt8.toNat_toUInt32]
  rw [toNat_byte_shiftLeft b₁ (show (8 : UInt32).toNat ≤ 24 by decide),
    toNat_byte_shiftLeft b₂ (show (16 : UInt32).toNat ≤ 24 by decide),
    toNat_byte_shiftLeft b₃ (show (24 : UInt32).toNat ≤ 24 by decide),
    show (8 : UInt32).toNat = 8 from rfl, show (16 : UInt32).toNat = 16 from rfl,
    show (24 : UInt32).toNat = 24 from rfl, or_shiftLeft (show b₀.toNat < 2 ^ 8 by omega),
    or_shiftLeft (show b₀.toNat + b₁.toNat * 2 ^ 8 < 2 ^ 16 by omega),
    or_shiftLeft (show b₀.toNat + b₁.toNat * 2 ^ 8 + b₂.toNat * 2 ^ 16 < 2 ^ 24 by omega)]
  omega

theorem toNat_byte (v : UInt32) {k : UInt32} (hk : k.toNat < 32) :
    (v >>> k).toUInt8.toNat = v.toNat / 2 ^ k.toNat % 2 ^ 8 := by
  rw [UInt32.toNat_toUInt8, UInt32.toNat_shiftRight, Nat.mod_eq_of_lt hk, Nat.shiftRight_eq_div_pow]

@[simp] theorem word32_le32 (v : UInt32) :
    word32 v.toUInt8 (v >>> 8).toUInt8 (v >>> 16).toUInt8 (v >>> 24).toUInt8 = v := by
  apply UInt32.toNat_inj.mp
  have := v.toNat_lt
  rw [toNat_word32, toNat_byte v (show (8 : UInt32).toNat < 32 by decide),
    toNat_byte v (show (16 : UInt32).toNat < 32 by decide), toNat_byte v (show (24 : UInt32).toNat < 32 by decide),
    UInt32.toNat_toUInt8, show (8 : UInt32).toNat = 8 from rfl, show (16 : UInt32).toNat = 16 from rfl,
    show (24 : UInt32).toNat = 24 from rfl]
  omega

@[simp] theorem le32_word32 (b₀ b₁ b₂ b₃ : UInt8) : le32 (word32 b₀ b₁ b₂ b₃) = [b₀, b₁, b₂, b₃] := by
  have h₀ := b₀.toNat_lt
  have h₁ := b₁.toNat_lt
  have h₂ := b₂.toNat_lt
  have h₃ := b₃.toNat_lt
  have hbyte₀ : (word32 b₀ b₁ b₂ b₃).toUInt8 = b₀ := by
    apply UInt8.toNat_inj.mp
    rw [UInt32.toNat_toUInt8, toNat_word32]
    omega
  have hbyte₁ : (word32 b₀ b₁ b₂ b₃ >>> 8).toUInt8 = b₁ := by
    apply UInt8.toNat_inj.mp
    rw [toNat_byte _ (show (8 : UInt32).toNat < 32 by decide), toNat_word32, show (8 : UInt32).toNat = 8 from rfl]
    omega
  have hbyte₂ : (word32 b₀ b₁ b₂ b₃ >>> 16).toUInt8 = b₂ := by
    apply UInt8.toNat_inj.mp
    rw [toNat_byte _ (show (16 : UInt32).toNat < 32 by decide), toNat_word32, show (16 : UInt32).toNat = 16 from rfl]
    omega
  have hbyte₃ : (word32 b₀ b₁ b₂ b₃ >>> 24).toUInt8 = b₃ := by
    apply UInt8.toNat_inj.mp
    rw [toNat_byte _ (show (24 : UInt32).toNat < 32 by decide), toNat_word32, show (24 : UInt32).toNat = 24 from rfl]
    omega
  rw [le32, hbyte₀, hbyte₁, hbyte₂, hbyte₃]

end LittleEndian
