/-
# A counter that goes round

A counter that runs from 1 to `p` and starts again at 1: its `n`-th value is
`cyclic p n`. Two draws have the same value when their distance is a multiple
of `p` (`cyclic_eq_iff`), so of two different draws with one value the later
is `p` draws behind the earlier at least, and `p` draws in a row are
different (`nodup_cyclic`).
-/
import Mathlib.Data.Nat.Notation
import Mathlib.Data.List.Nodup
import Mathlib.Data.Nat.ModEq

namespace Counter

/-- The `n`-th value of a counter that runs from 1 to `p`. -/
def cyclic (p n : ℕ) : ℕ := n % p + 1

theorem cyclic_pos (p n : ℕ) : 0 < cyclic p n := Nat.succ_pos _

theorem cyclic_succ {p : ℕ} (hp : 0 < p) (n : ℕ) :
    cyclic p (n + 1) = if cyclic p n = p then 1 else cyclic p n + 1 := by
  have hlt := Nat.mod_lt n hp
  unfold cyclic
  rw [Nat.add_mod_eq_ite]
  rcases Nat.eq_or_lt_of_le (show 1 ≤ p from hp) with rfl | h1
  · simp [Nat.mod_one]
  · rw [Nat.mod_eq_of_lt h1]
    split <;> split <;> omega

/-- A counter that has the first value counts on from there. -/
theorem cyclic_of_le {p v : ℕ} (h0 : 0 < v) (hv : v ≤ p) : cyclic p (v - 1) = v := by
  unfold cyclic
  rw [Nat.mod_eq_of_lt (by omega)]
  omega

theorem cyclic_eq_iff {p m n : ℕ} (h : m ≤ n) : cyclic p m = cyclic p n ↔ p ∣ n - m := by
  unfold cyclic
  rw [Nat.add_right_cancel_iff]
  exact Nat.modEq_iff_dvd' h

/-- Equal values are equal draws or a round apart. -/
theorem eq_or_le_of_cyclic_eq {p m n : ℕ} (h : m ≤ n) (hc : cyclic p m = cyclic p n) : m = n ∨ p ≤ n - m := by
  have hdvd := (cyclic_eq_iff h).mp hc
  rcases Nat.eq_zero_or_pos (n - m) with h0 | h0
  · exact .inl (by omega)
  · exact .inr (Nat.le_of_dvd h0 hdvd)

/-- A round of draws has no value twice. -/
theorem nodup_cyclic {p : ℕ} (a k : ℕ) (hk : k ≤ p) : ((List.range' a k).map (cyclic p)).Nodup := by
  apply List.Nodup.map_on _ (List.nodup_range' ..)
  intro x hx y hy hxy
  rw [List.mem_range'_1] at hx hy
  rcases le_total x y with h | h
  · rcases eq_or_le_of_cyclic_eq h hxy with heq | hle <;> omega
  · rcases eq_or_le_of_cyclic_eq h hxy.symm with heq | hle <;> omega

/-- Wherever a round is taken from a row of draws. -/
theorem nodup_cyclic_window (p a n i : ℕ) : ((((List.range' a n).map (cyclic p)).drop i).take p).Nodup := by
  rw [← List.map_drop, ← List.map_take, List.drop_range']
  rcases le_total (n - i) p with h | h
  · rw [List.take_range'_of_length_le h]
    exact nodup_cyclic _ _ h
  · rw [List.take_range'_of_length_ge h]
    exact nodup_cyclic _ _ le_rfl

end Counter
