/-
# The arguments of the tool

`parse_port` and the two places where `ch32v208-mux-cli.c` reads a number
without looking at what follows it, the baud rate and the seconds of a scan.
An argument is the bytes of the string up to its NUL.

A port is a numeral for a number up to 255, or, since `strtoul` negates, one
with a minus sign for a number at most 255 below 2^64 (`parse_port_iff`). A
numeral without a minus sign is read as its number by all three arguments,
each with its own limits (`numerals_read_back`).

Key definitions: `parsePort`, `baudOf`, `secondsOf`.
Key theorems: `parse_port_iff`, `strtoul_spelled`, `numerals_read_back`.
-/
import UsbMux.Proto
import UsbMux.Lib.Strtoul

namespace UsbMux

open CString

/-- `parse_port`: the port, or `none` where it returns -1. -/
def parsePort (text : Bytes) : Option UInt8 :=
  match strtoul text with
  | some (value, []) => if value > 255 then none else some (UInt8.ofNat value)
  | _ => none

/-- `strtoul(text, NULL, 0)`, which is 0 when there is nothing to convert. -/
def strtoulValue (text : Bytes) : ℕ := ((strtoul text).map Prod.fst).getD 0

/-- The baud rate of `uart-open` and `uart-loopback`: the cast keeps 32 bits. -/
def baudOf (text : Bytes) : UInt32 := UInt32.ofNat (strtoulValue text)

/-- The seconds of `ble-scan`. -/
def secondsOf (text : Option Bytes) : ℕ :=
  match text with
  | none => 5
  | some text => if strtoulValue text = 0 then 5 else strtoulValue text

/-! ### Ports -/

theorem parsePort_eq_some {text : Bytes} {p : UInt8} :
    parsePort text = some p ↔ strtoul text = some (p.toNat, []) := by
  have hp : p.toNat < 256 := p.toNat_lt
  refine ⟨fun h => ?_, fun h => ?_⟩
  · unfold parsePort at h
    rcases hread : strtoul text with _ | ⟨value, _ | ⟨c, rest⟩⟩
    · rw [hread] at h
      cases h
    · rw [hread] at h
      by_cases hbig : value > 255
      · cases (if_pos hbig).symm.trans h
      · have hsome : some (UInt8.ofNat value) = some p := (if_neg hbig).symm.trans h
        obtain rfl := Option.some.inj hsome
        rw [UInt8.toNat_ofNat', Nat.mod_eq_of_lt (by omega)]
    · rw [hread] at h
      cases h
  · unfold parsePort
    rw [h]
    dsimp only
    rw [if_neg (by omega), UInt8.ofNat_toNat]

/-- The value of a numeral is at most 255 if it is a small number, or minus
one that is almost 2^64. -/
theorem wrapped_eq {neg : Bool} {n v : ℕ} (hv : v < 256) :
    v = wrapped neg n ↔ neg = false ∧ n = v ∨ neg = true ∧ n < 2 ^ 64 ∧ 2 ^ 64 ∣ n + v := by
  unfold wrapped
  cases neg with
  | false =>
    simp only [Bool.false_eq_true, if_false, true_and, false_and, or_false]
    split_ifs with hbig <;> omega
  | true =>
    simp only [Bool.true_eq_false, if_true, true_and, false_and, false_or]
    split_ifs with hbig <;> omega

/-- **What is a port.** The argument is accepted as port `p` exactly when it
is a numeral in base 8, 10 or 16 (white space and a sign may come first) for
`p`, or a numeral with a minus sign for a number below 2^64 that `p` makes up
to a multiple of 2^64. -/
theorem parse_port_iff (text : Bytes) (p : UInt8) :
    parsePort text = some p ↔ ∃ neg n, Spells text neg n ∧
      (neg = false ∧ n = p.toNat ∨ neg = true ∧ n < 2 ^ 64 ∧ 2 ^ 64 ∣ n + p.toNat) := by
  rw [parsePort_eq_some, strtoul_eq_some]
  refine ⟨fun h => ?_, fun h => ?_⟩
  · obtain ⟨neg, n, hspells, hv⟩ := h
    exact ⟨neg, n, hspells, (wrapped_eq p.toNat_lt).mp hv⟩
  · obtain ⟨neg, n, hspells, hv⟩ := h
    exact ⟨neg, n, hspells, (wrapped_eq p.toNat_lt).mpr hv⟩

/-! ### Numerals -/

theorem strtoul_spelled {n : ℕ} {text : Bytes} (h : Spells text false n) :
    strtoul text = some (min n (2 ^ 64 - 1), []) := by
  refine strtoul_eq_some.mpr ⟨false, n, h, ?_⟩
  unfold wrapped
  simp only [Bool.false_eq_true, if_false]
  split_ifs with hbig <;> omega

/-- **Numerals are read** as the number they are for, in any of the three
bases, behind any white space and with a plus sign or none: a number up to 255
as that port and a greater one not at all; as a baud rate modulo 2^32, and as
the seconds of a scan if it is not 0, both clipped to 64 bits first. -/
theorem numerals_read_back (n : ℕ) (text : Bytes) (h : Spells text false n) :
    parsePort text = (if n ≤ 255 then some (UInt8.ofNat n) else none) ∧
      baudOf text = UInt32.ofNat (min n (2 ^ 64 - 1)) ∧
      secondsOf (some text) = if n = 0 then 5 else min n (2 ^ 64 - 1) := by
  have hread := strtoul_spelled h
  have hvalue : strtoulValue text = min n (2 ^ 64 - 1) := by
    unfold strtoulValue
    rw [hread]
    rfl
  refine ⟨?_, by rw [baudOf, hvalue], ?_⟩
  · unfold parsePort
    rw [hread]
    dsimp only
    by_cases hn : n ≤ 255
    · rw [if_neg (by omega), if_pos hn, Nat.min_eq_left (by omega)]
    · rw [if_pos (by omega), if_neg hn]
  · unfold secondsOf
    dsimp only
    rw [hvalue]
    by_cases hn : n = 0
    · rw [if_pos (by omega), if_pos hn]
    · rw [if_neg (by omega), if_neg hn]

/-- Port 200 as " +0xC8". -/
theorem numerals_read_back_hex :
    let c8 : Bytes := [0x20, 0x2B, 0x30, 0x78, 0x43, 0x38]
    parsePort c8 = some 200 ∧ baudOf c8 = 200 ∧ secondsOf (some c8) = 200 := by
  intro c8
  have hspells : Spells c8 false 200 :=
    ⟨[0x20], [0x2B], [0x30, 0x78, 0x43, 0x38], 16, [0x43, 0x38], rfl, List.forall_mem_singleton.mpr rfl,
      .inr ⟨rfl, .inr rfl⟩, .hex (.inl rfl) (List.forall_mem_cons.mpr ⟨rfl, List.forall_mem_singleton.mpr rfl⟩), rfl⟩
  obtain ⟨hport, hbaud, hseconds⟩ := numerals_read_back 200 c8 hspells
  have hmin : min 200 (2 ^ 64 - 1) = 200 := Nat.min_eq_left (by omega)
  rw [if_pos (by omega)] at hport
  rw [hmin] at hbaud
  rw [if_neg (by omega), hmin] at hseconds
  exact ⟨hport, hbaud, hseconds⟩

/-- `n` as `printf` writes it: with `%u` and `0%o`, and behind `0x` or `0X`
with `%x` and `%X`. -/
def printed (n : ℕ) : List Bytes :=
  [numeral false 10 n, 0x30 :: numeral false 8 n, 0x30 :: 0x78 :: numeral false 16 n,
    0x30 :: 0x58 :: numeral false 16 n,
    0x30 :: 0x78 :: numeral true 16 n, 0x30 :: 0x58 :: numeral true 16 n]

/-- What is printed is read back. -/
theorem strtoul_printed {n : ℕ} {text : Bytes} (h : text ∈ printed n) :
    strtoul text = some (min n (2 ^ 64 - 1), []) := by
  obtain ⟨hdec, hoct, hhex⟩ := spells_numeral false n
  obtain ⟨-, -, hcapital⟩ := spells_numeral true n
  apply strtoul_spelled
  simp only [printed, List.mem_cons, List.not_mem_nil, or_false] at h
  rcases h with rfl | rfl | rfl | rfl | rfl | rfl
  · exact hdec
  · exact hoct
  · exact hhex 0x78 (.inl rfl)
  · exact hhex 0x58 (.inr rfl)
  · exact hcapital 0x78 (.inl rfl)
  · exact hcapital 0x58 (.inr rfl)

-- "-18446744073709551361" is a port
example : parsePort [0x2D, 0x31, 0x38, 0x34, 0x34, 0x36, 0x37, 0x34, 0x34, 0x30, 0x37, 0x33, 0x37, 0x30, 0x39, 0x35,
    0x35, 0x31, 0x33, 0x36, 0x31] = some 255 := by decide +kernel

end UsbMux
