/-
# Cyclic redundancy checks

A CRC register of width `w` shifts left a bit at a time and takes the
generator's lower coefficients in when a bit falls out at the top (`step`).
With words read as polynomials over GF(2), lowest bit the constant term
(`poly`), a step multiplies by `X` modulo the generator (`poly_step`), so the
register holds the remainder of the message (`poly_register`).

An error in the message and its check goes unnoticed only if the generator
divides the polynomial of its bits (`dvd_of_undetected`). It does not for an
odd number of bits when it has the root 1 (`not_dvd_of_odd`), for two bits
closer than the order of `X` (`not_dvd_of_two`), and for a burst no longer
than the register (`not_dvd_of_burst`).
-/
import Mathlib.Algebra.Polynomial.Div
import Mathlib.Algebra.CharP.Two
import Mathlib.Algebra.Field.ZMod
import Mathlib.RingTheory.Coprime.Lemmas

namespace Crc

open Polynomial Finset

variable {w k : ℕ}

/-! ### Words and bits as polynomials -/

/-- A word as a polynomial over GF(2). -/
noncomputable def poly (c : BitVec w) : (ZMod 2)[X] := ∑ i ∈ range w, if c.getLsbD i then X ^ i else 0

theorem coeff_ite_X_pow (b : Bool) (n i : ℕ) :
    (if b then (X : (ZMod 2)[X]) ^ n else 0).coeff i = if i = n then (if b then 1 else 0) else 0 := by
  cases b
  · simp
  · simp only [if_true, coeff_X_pow]

theorem coeff_poly (c : BitVec w) (i : ℕ) : (poly c).coeff i = if c.getLsbD i then 1 else 0 := by
  unfold poly
  rw [finsetSum_coeff, sum_congr rfl fun j _ => coeff_ite_X_pow (c.getLsbD j) j i, sum_ite_eq (range w) i]
  by_cases hi : i < w
  · rw [if_pos (mem_range.mpr hi)]
  · rw [if_neg (by simpa using hi), c.getLsbD_of_ge i (by omega)]
    rfl

theorem degree_poly_lt (c : BitVec w) : (poly c).degree < w := by
  rw [degree_lt_iff_coeff_zero]
  intro i hi
  rw [coeff_poly, c.getLsbD_of_ge i hi]
  rfl

theorem getLsbD_eq (c : BitVec w) (i : ℕ) : c.getLsbD i = decide ((poly c).coeff i = 1) := by
  rw [coeff_poly]
  cases c.getLsbD i <;> decide

/-- The polynomial determines the word. -/
theorem poly_injective : Function.Injective (poly : BitVec w → (ZMod 2)[X]) := by
  intro a b hab
  apply BitVec.eq_of_getLsbD_eq
  intro i _
  rw [getLsbD_eq a, hab, ← getLsbD_eq b]

/-- Exclusive or is addition. -/
theorem poly_xor (a b : BitVec w) : poly (a ^^^ b) = poly a + poly b := by
  ext i
  rw [coeff_add, coeff_poly, coeff_poly, coeff_poly, BitVec.getLsbD_xor]
  by_cases ha : a.getLsbD i = true
  · by_cases hb : b.getLsbD i = true
    · simp [ha, hb, CharTwo.add_self_eq_zero]
    · simp [ha, hb]
  · simp [ha]

/-- The word with `a` above `b`. -/
theorem poly_append {n m : ℕ} (a : BitVec n) (b : BitVec m) : poly (a ++ b) = poly a * X ^ m + poly b := by
  ext i
  rw [coeff_add, coeff_mul_X_pow', coeff_poly, coeff_poly, coeff_poly, BitVec.getLsbD_append]
  by_cases hi : i < m
  · rw [if_pos hi, if_neg (show ¬m ≤ i by omega), zero_add]
  · rw [if_neg hi, if_pos (show m ≤ i by omega), b.getLsbD_of_ge i (by omega)]
    simp

/-- The bits of a string, first item and highest bit first, as coefficients:
the last one is the constant term. -/
noncomputable def ofBits : List Bool → (ZMod 2)[X]
  | [] => 0
  | b :: l => (if b then X ^ l.length else 0) + ofBits l

theorem ofBits_append : ∀ a b : List Bool, ofBits (a ++ b) = ofBits a * X ^ b.length + ofBits b
  | [], b => by simp [ofBits]
  | x :: a, b => by
    rw [List.cons_append, ofBits, ofBits, ofBits_append a b, List.length_append, add_mul, ← add_assoc]
    cases x
    · simp
    · simp [pow_add]

theorem ofBits_replicate_false : ∀ n : ℕ, ofBits (List.replicate n false) = 0
  | 0 => rfl
  | n + 1 => by rw [List.replicate_succ, ofBits, ofBits_replicate_false n]; simp

theorem eq_replicate_false {l : List Bool} (h : l.count true = 0) : l = List.replicate l.length false := by
  rw [List.count_eq_zero] at h
  apply List.eq_replicate_iff.mpr ⟨rfl, ?_⟩
  intro b hb
  cases b
  · rfl
  · exact absurd hb h

/-- The bits of a word, the highest first. -/
def bitsOf (c : BitVec w) : List Bool := (List.range w).map c.getMsbD

/-- The bits of a string of words. -/
def bits (bs : List (BitVec k)) : List Bool := bs.flatMap bitsOf

@[simp] theorem length_bitsOf (c : BitVec w) : (bitsOf c).length = w := by simp [bitsOf]

theorem bits_cons (b : BitVec k) (bs : List (BitVec k)) : bits (b :: bs) = bitsOf b ++ bits bs := rfl

theorem bits_append (a b : List (BitVec k)) : bits (a ++ b) = bits a ++ bits b := List.flatMap_append

theorem length_bits : ∀ bs : List (BitVec k), (bits bs).length = k * bs.length
  | [] => rfl
  | b :: bs => by
    rw [bits_cons, List.length_append, length_bitsOf, length_bits bs, List.length_cons, Nat.mul_succ, Nat.add_comm]

theorem ofBits_map_range (f : ℕ → Bool) : ∀ n : ℕ,
    ofBits ((List.range n).map f) = ∑ i ∈ range n, if f (n - 1 - i) then X ^ i else 0
  | 0 => rfl
  | n + 1 => by
    rw [List.range_succ, List.map_append, ofBits_append, ofBits_map_range f n, sum_range_succ']
    simp [ofBits, sum_mul, ite_mul, pow_succ, Nat.sub_sub, Nat.add_comm]

theorem ofBits_bitsOf (c : BitVec w) : ofBits (bitsOf c) = poly c := by
  unfold bitsOf poly
  rw [ofBits_map_range]
  apply sum_congr rfl
  intro i hi
  have hiw : i < w := mem_range.mp hi
  rw [BitVec.getMsbD_eq_getLsbD, show w - 1 - (w - 1 - i) = i by omega]
  simp [show w - 1 - i < w by omega]

/-! ### The register -/

/-- The polynomial a register of width `w` divides by. -/
noncomputable def generator (g : BitVec w) : (ZMod 2)[X] := X ^ w + poly g

theorem generator_monic (g : BitVec w) : (generator g).Monic := monic_X_pow_add (degree_poly_lt g)

theorem degree_generator (g : BitVec w) : (generator g).degree = w := by
  have hlt : (poly g).degree < (X ^ w : (ZMod 2)[X]).degree := by
    rw [degree_X_pow]
    exact degree_poly_lt g
  rw [generator, degree_add_eq_left_of_degree_lt hlt, degree_X_pow]

/-- One bit: the register shifts left, and the generator goes in for the bit
that falls out. -/
def step (g c : BitVec w) : BitVec w := if c.msb then (c <<< 1) ^^^ g else c <<< 1

/-- A shift multiplies by `X`, less the bit that falls out. -/
theorem X_mul_poly (c : BitVec w) : X * poly c = poly (c <<< 1) + if c.msb then X ^ w else 0 := by
  ext i
  rw [coeff_add, coeff_ite_X_pow, coeff_poly, BitVec.getLsbD_shiftLeft, BitVec.msb_eq_getLsbD_last]
  cases i with
  | zero =>
    rw [coeff_X_mul_zero]
    by_cases hw : 0 = w
    · subst hw
      simp
    · simp [hw]
  | succ i =>
    rw [coeff_X_mul, coeff_poly]
    rcases Nat.lt_trichotomy (i + 1) w with hlt | heq | hgt
    · simp [hlt, hlt.ne]
    · subst heq
      simp
    · rw [c.getLsbD_of_ge i (by omega)]
      simp [hgt.ne', show ¬i + 1 < w by omega]

/-- **A step multiplies by `X`** modulo the generator. -/
theorem poly_step (g c : BitVec w) : poly (step g c) = (X * poly c) %ₘ generator g := by
  have hdeg : (poly (step g c)).degree < (generator g).degree := by
    rw [degree_generator]
    exact degree_poly_lt _
  apply ((div_modByMonic_unique (if c.msb then 1 else 0) (poly (step g c)) (generator_monic g) ⟨?_, hdeg⟩).2).symm
  unfold step generator
  rw [X_mul_poly]
  by_cases htop : c.msb = true
  · -- the generator was added, and adding it again takes it away
    have hg : poly g + poly g = 0 := CharTwo.add_self_eq_zero _
    rw [if_pos htop, if_pos htop, if_pos htop, poly_xor, mul_one]
    calc poly (c <<< 1) + poly g + (X ^ w + poly g) = poly (c <<< 1) + X ^ w + (poly g + poly g) := by ring
      _ = poly (c <<< 1) + X ^ w := by rw [hg, add_zero]
  · rw [if_neg htop, if_neg htop, if_neg htop, mul_zero]

/-- A factor may be reduced first. -/
theorem mul_mod_mod {P : (ZMod 2)[X]} (hP : P.Monic) (p q : (ZMod 2)[X]) : (p * (q %ₘ P)) %ₘ P = (p * q) %ₘ P := by
  apply modByMonic_eq_of_dvd_sub hP
  rw [← mul_sub]
  exact (dvd_modByMonic_sub q P).mul_left p

theorem poly_mod (g c : BitVec w) : poly c %ₘ generator g = poly c := by
  rw [modByMonic_eq_self_iff (generator_monic g), degree_generator]
  exact degree_poly_lt c

/-- So `n` steps multiply by `X ^ n`. -/
theorem poly_iterate (g c : BitVec w) : ∀ n : ℕ, poly ((step g)^[n] c) = (X ^ n * poly c) %ₘ generator g
  | 0 => by rw [pow_zero, one_mul, poly_mod]; rfl
  | n + 1 => by
    rw [Function.iterate_succ_apply', poly_step, poly_iterate g c n, mul_mod_mod (generator_monic g), ← mul_assoc,
      pow_succ']

/-- An item of `k` bits goes in at the top and is shifted through. -/
def absorb (g c : BitVec w) (b : BitVec k) : BitVec w := (step g)^[k] (c ^^^ (b.setWidth w <<< (w - k)))

/-- The register after a string of items. -/
def register (g init : BitVec w) (bs : List (BitVec k)) : BitVec w := bs.foldl (absorb g) init

theorem poly_shiftLeft_top (hk : k ≤ w) (b : BitVec k) : poly (b.setWidth w <<< (w - k)) = X ^ (w - k) * poly b := by
  ext i
  rw [coeff_poly, coeff_X_pow_mul', coeff_poly, BitVec.getLsbD_shiftLeft, BitVec.getLsbD_setWidth]
  by_cases hlow : w - k ≤ i
  · rw [if_pos hlow]
    by_cases hi : i < w
    · simp [hi, show ¬i < w - k by omega, show i - (w - k) < w by omega]
    · rw [b.getLsbD_of_ge (i - (w - k)) (by omega)]
      simp [hi]
  · rw [if_neg hlow]
    simp [show i < w - k by omega]

theorem poly_absorb (hk : k ≤ w) (g c : BitVec w) (b : BitVec k) :
    poly (absorb g c b) = (X ^ k * poly c + X ^ w * poly b) %ₘ generator g := by
  unfold absorb
  rw [poly_iterate, poly_xor, poly_shiftLeft_top hk, mul_add, ← mul_assoc, ← pow_add, Nat.add_sub_of_le hk]

/-- **The register holds the remainder** of the message, moved up by its own
width, and of what it started with, moved up by the message. -/
theorem poly_register (hk : k ≤ w) (g : BitVec w) : ∀ (bs : List (BitVec k)) (init : BitVec w),
    poly (register g init bs) =
      (poly init * X ^ (k * bs.length) + ofBits (bits bs) * X ^ w) %ₘ generator g
  | [], init => by
    rw [show register g init ([] : List (BitVec k)) = init from rfl, show bits ([] : List (BitVec k)) = [] from rfl]
    simp [ofBits, poly_mod]
  | b :: bs, init => by
    rw [show register g init (b :: bs) = register g (absorb g init b) bs from rfl, poly_register hk g bs,
      poly_absorb hk]
    rw [bits_cons, ofBits_append, ofBits_bitsOf, length_bits, List.length_cons]
    set P := generator g
    set A := X ^ k * poly init + X ^ w * poly b
    apply modByMonic_eq_of_dvd_sub (generator_monic g)
    have hdiff : A %ₘ P * X ^ (k * bs.length) + ofBits (bits bs) * X ^ w -
        (poly init * X ^ (k * (bs.length + 1)) + (poly b * X ^ (k * bs.length) + ofBits (bits bs)) * X ^ w) =
        (A %ₘ P - A) * X ^ (k * bs.length) := by
      rw [Nat.mul_succ, pow_add]
      ring
    rw [hdiff]
    exact (dvd_modByMonic_sub A P).mul_right _

/-! ### Errors -/

theorem ofBits_bits_xor : ∀ {d e : List (BitVec k)}, d.length = e.length →
    ofBits (bits (List.zipWith (· ^^^ ·) d e)) = ofBits (bits d) + ofBits (bits e)
  | [], [], _ => by simp [bits, ofBits]
  | x :: d, y :: e, h => by
    have hlen : d.length = e.length := Nat.succ.inj h
    have hzip : (List.zipWith (· ^^^ ·) d e).length = d.length := by rw [List.length_zipWith, hlen, Nat.min_self]
    rw [List.zipWith_cons_cons, bits_cons, bits_cons, bits_cons, ofBits_append, ofBits_append, ofBits_append,
      ofBits_bits_xor hlen, ofBits_bitsOf, ofBits_bitsOf, ofBits_bitsOf, poly_xor,
      length_bits, length_bits, length_bits,
      hzip, hlen]
    ring

/-- **An error goes unnoticed** only if the generator divides it: the error
`e` in the message and the difference it makes to the register. -/
theorem dvd_of_undetected (hk : k ≤ w) (g init : BitVec w) {d e : List (BitVec k)} (hlen : d.length = e.length) :
    generator g ∣ ofBits (bits e) * X ^ w +
      (poly (register g init d) + poly (register g init (List.zipWith (· ^^^ ·) d e))) := by
  rw [poly_register hk, poly_register hk, ofBits_bits_xor hlen, List.length_zipWith, ← hlen, Nat.min_self]
  set P := generator g
  set E := ofBits (bits e) * X ^ w
  set A := poly init * X ^ (k * d.length) + ofBits (bits d) * X ^ w with hA
  set B := poly init * X ^ (k * d.length) + (ofBits (bits d) + ofBits (bits e)) * X ^ w with hB
  have hzero : E + (A + B) = 0 := by
    have hBA : B = A + E := by rw [hA, hB, add_mul, add_assoc]
    calc E + (A + B) = (A + E) + (A + E) := by rw [hBA]; ring
      _ = 0 := CharTwo.add_self_eq_zero _
  have hsum : E + (A %ₘ P + B %ₘ P) = (A %ₘ P - A) + (B %ₘ P - B) + (E + (A + B)) := by ring
  rw [hsum, hzero, add_zero]
  exact dvd_add (dvd_modByMonic_sub A P) (dvd_modByMonic_sub B P)

theorem eval_one_ofBits : ∀ l : List Bool, (ofBits l).eval 1 = (l.count true : ZMod 2)
  | [] => by simp [ofBits]
  | b :: l => by
    rw [ofBits, eval_add, eval_one_ofBits l]
    cases b
    · simp
    · simp [add_comm]

/-- A generator with the root 1 divides no odd number of bits. -/
theorem not_dvd_of_odd {g : BitVec w} (hroot : (generator g).eval 1 = 0) {l : List Bool} (hodd : Odd (l.count true)) :
    ¬generator g ∣ ofBits l := by
  rintro ⟨q, hq⟩
  have heval := eval_one_ofBits l
  rw [hq, eval_mul, hroot, zero_mul] at heval
  exact ZMod.natCast_ne_zero_iff_odd.mpr hodd heval.symm

theorem degree_ofBits_lt : ∀ l : List Bool, (ofBits l).degree < l.length
  | [] => by simp [ofBits]
  | b :: l => by
    have hl : (ofBits l).degree < ((l.length + 1 : ℕ) : WithBot ℕ) :=
      (degree_ofBits_lt l).trans (by exact_mod_cast Nat.lt_succ_self _)
    have hb : (if b then (X : (ZMod 2)[X]) ^ l.length else 0).degree < ((l.length + 1 : ℕ) : WithBot ℕ) := by
      cases b
      · simp
      · rw [if_pos rfl, degree_X_pow]
        exact_mod_cast Nat.lt_succ_self _
    rw [ofBits, List.length_cons]
    exact (degree_add_le _ _).trans_lt (max_lt hb hl)

theorem ofBits_eq_zero_iff : ∀ {l : List Bool}, ofBits l = 0 ↔ l.count true = 0
  | [] => by simp [ofBits]
  | false :: l => by
    rw [ofBits, if_neg (by simp), zero_add, List.count_cons_of_ne (by simp)]
    exact ofBits_eq_zero_iff
  | true :: l => by
    have hdeg := degree_ofBits_lt l
    have hcoeff : (ofBits (true :: l)).coeff l.length = 1 := by
      rw [ofBits, if_pos rfl, coeff_add, coeff_X_pow_self, coeff_eq_zero_of_degree_lt hdeg, add_zero]
    constructor
    · intro h
      rw [h, coeff_zero] at hcoeff
      exact absurd hcoeff (by decide)
    · intro h
      rw [List.count_cons_self] at h
      cases h

/-- The generator has a constant term. -/
theorem isCoprime_X {g : BitVec w} (hg : g.getLsbD 0 = true) : IsCoprime (generator g) X := by
  have hw : w ≠ 0 := by
    rintro rfl
    rw [g.getLsbD_of_ge 0 le_rfl] at hg
    cases hg
  have hcoeff : (generator g).coeff 0 = 1 := by
    rw [generator, coeff_add, coeff_X_pow, if_neg (Ne.symm hw), coeff_poly, if_pos hg, zero_add]
  obtain ⟨q, hq⟩ := X_dvd_sub_C (p := generator g)
  rw [hcoeff, C_1, sub_eq_iff_eq_add] at hq
  exact ⟨1, -q, by rw [hq]; ring⟩

/-- A generator divides no burst that fits its register, wherever it stands. -/
theorem not_dvd_of_burst {g : BitVec w} (hg : IsCoprime (generator g) X) {mid : List Bool} (hmid : mid.length ≤ w)
    (hne : true ∈ mid) (i j : ℕ) :
    ¬generator g ∣ ofBits (List.replicate i false ++ mid ++ List.replicate j false) := by
  intro hdvd
  rw [ofBits_append, ofBits_append, ofBits_replicate_false, ofBits_replicate_false, zero_mul, zero_add, add_zero]
    at hdvd
  have hmidne : ofBits mid ≠ 0 := by
    rw [ne_eq, ofBits_eq_zero_iff, List.count_eq_zero]
    exact not_not.mpr hne
  have hdeg : (ofBits mid).degree < (generator g).degree := by
    rw [degree_generator]
    exact (degree_ofBits_lt mid).trans_le (by exact_mod_cast hmid)
  exact (generator_monic g).not_dvd_of_degree_lt hmidne hdeg (hg.pow_right.dvd_of_dvd_mul_right hdvd)

theorem ofBits_of_count_one : ∀ {l : List Bool}, l.count true = 1 → ∃ i < l.length, ofBits l = X ^ i
  | [], h => by cases h
  | false :: l, h => by
    rw [List.count_cons_of_ne (by simp)] at h
    obtain ⟨i, hi, hl⟩ := ofBits_of_count_one h
    exact ⟨i, Nat.lt_succ_of_lt hi, by rw [ofBits, if_neg (by simp), zero_add, hl]⟩
  | true :: l, h => by
    rw [List.count_cons_self] at h
    have hl : ofBits l = 0 := ofBits_eq_zero_iff.mpr (Nat.succ.inj h)
    exact ⟨l.length, Nat.lt_succ_self _, by rw [ofBits, if_pos rfl, hl, add_zero]⟩

theorem ofBits_of_count_two : ∀ {l : List Bool}, l.count true = 2 →
    ∃ i j, i < j ∧ j < l.length ∧ ofBits l = X ^ j + X ^ i
  | [], h => by cases h
  | false :: l, h => by
    rw [List.count_cons_of_ne (by simp)] at h
    obtain ⟨i, j, hij, hj, hl⟩ := ofBits_of_count_two h
    exact ⟨i, j, hij, Nat.lt_succ_of_lt hj, by rw [ofBits, if_neg (by simp), zero_add, hl]⟩
  | true :: l, h => by
    rw [List.count_cons_self] at h
    obtain ⟨i, hi, hl⟩ := ofBits_of_count_one (Nat.succ.inj h)
    exact ⟨i, l.length, hi, Nat.lt_succ_self _, by rw [ofBits, if_pos rfl, hl]⟩

/-- A generator divides no two bits that are closer than the order of `X`. -/
theorem not_dvd_of_two {g : BitVec w} (hg : g.getLsbD 0 = true) {l : List Bool}
    (horder : ∀ n, 0 < n → n < l.length → (step g)^[n] 1 ≠ 1) (htwo : l.count true = 2) : ¬generator g ∣ ofBits l := by
  intro hdvd
  obtain ⟨i, j, hij, hj, hl⟩ := ofBits_of_count_two htwo
  have hone : poly (1 : BitVec w) = 1 := by
    ext m
    have hw : 0 < w := by
      by_contra hw
      rw [g.getLsbD_of_ge 0 (by omega)] at hg
      cases hg
    rw [coeff_poly, coeff_one, show (1 : BitVec w) = 1#w from rfl, BitVec.getLsbD_one]
    by_cases hm : m = 0
    · simp [hm, hw]
    · simp [hm, hw]
  have hsplit : ofBits l = X ^ i * (X ^ (j - i) + 1) := by
    rw [hl, mul_add, ← pow_add, Nat.add_sub_of_le hij.le, mul_one]
  rw [hsplit] at hdvd
  have hd : generator g ∣ X ^ (j - i) + 1 := (isCoprime_X hg).pow_right.dvd_of_dvd_mul_left hdvd
  apply horder (j - i) (Nat.sub_pos_of_lt hij) (by omega)
  apply poly_injective
  rw [poly_iterate, hone, mul_one]
  calc X ^ (j - i) %ₘ generator g = 1 %ₘ generator g := by
        apply modByMonic_eq_of_dvd_sub (generator_monic g)
        rwa [CharTwo.sub_eq_add]
    _ = 1 := by rw [← hone, poly_mod]

end Crc
