/-
# `strtoul` with base 0

The C function in the C locale, with an `unsigned long` of 64 bits: white
space, a sign, a mark for the base, digits. A value of 2^64 or more is
clipped, a minus sign negates modulo 2^64, and the `0x` of a numeral that
has no hexadecimal digit is not a mark: the `0` is read, the `x` is left.

A text is a numeral (`Spells`) exactly when `strtoul` reads all of it
(`strtoul_eq_some`), so the numerals of a number in base 8, 10 and 16, with
small or with capital letters, are read back (`spells_numeral`).
-/
import Mathlib.Data.List.TakeWhile
import Mathlib.Data.Nat.Digits.Lemmas

namespace CString

/-! ### The function -/

/-- `isspace` in the C locale. -/
def isSpace (c : UInt8) : Bool := c == 0x20 || (0x09 ≤ c && c ≤ 0x0D)

/-- The value of a digit in a base of at most 16. -/
def digitValue (c : UInt8) : Option ℕ :=
  if 0x30 ≤ c ∧ c ≤ 0x39 then some (c.toNat - 0x30)
  else if 0x41 ≤ c ∧ c ≤ 0x46 then some (c.toNat - 0x41 + 10)
  else if 0x61 ≤ c ∧ c ≤ 0x66 then some (c.toNat - 0x61 + 10)
  else none

def isDigit (base : ℕ) (c : UInt8) : Bool := (digitValue c).any (· < base)

/-- The value of digits, the most significant first. -/
def value (base : ℕ) (digits : List UInt8) : ℕ :=
  digits.foldl (fun n c => n * base + (digitValue c).getD 0) 0

/-- Whether there is a minus sign, and what follows a sign. -/
def readSign : List UInt8 → Bool × List UInt8
  | [] => (false, [])
  | c :: t => if c = 0x2D then (true, t) else if c = 0x2B then (false, t) else (false, c :: t)

/-- The base, and what follows its mark. The `0` of an octal numeral is a
digit of it. -/
def readBase : List UInt8 → ℕ × List UInt8
  | [] => (10, [])
  | c :: t =>
    if c ≠ 0x30 then (10, c :: t)
    else
      match t with
      | x :: d :: ds => if (x = 0x78 ∨ x = 0x58) ∧ isDigit 16 d then (16, d :: ds) else (8, c :: t)
      | _ => (8, c :: t)

/-- What becomes of a value. -/
def wrapped (neg : Bool) (n : ℕ) : ℕ :=
  if 2 ^ 64 ≤ n then 2 ^ 64 - 1 else if neg then (2 ^ 64 - n) % 2 ^ 64 else n

/-- `strtoul(text, &end, 0)`: the value and the text from `end` on, or `none`
where there is nothing to convert and `end` is the text itself. -/
def strtoul (text : List UInt8) : Option (ℕ × List UInt8) :=
  let (neg, t) := readSign (text.dropWhile isSpace)
  let (base, t) := readBase t
  let digits := t.takeWhile (isDigit base)
  if digits = [] then none else some (wrapped neg (value base digits), t.dropWhile (isDigit base))

/-! ### Numerals -/

/-- A sign, or none. -/
def IsSign (sign : List UInt8) (neg : Bool) : Prop :=
  neg = true ∧ sign = [0x2D] ∨ neg = false ∧ (sign = [] ∨ sign = [0x2B])

/-- A numeral without sign: its base and its digits. -/
inductive IsBody : List UInt8 → ℕ → List UInt8 → Prop
  | dec {c : UInt8} {ds : List UInt8} (hc : c ≠ 0x30) (h : ∀ d ∈ c :: ds, isDigit 10 d) : IsBody (c :: ds) 10 (c :: ds)
  | oct {ds : List UInt8} (h : ∀ d ∈ ds, isDigit 8 d) : IsBody (0x30 :: ds) 8 (0x30 :: ds)
  | hex {x d : UInt8} {ds : List UInt8} (hx : x = 0x78 ∨ x = 0x58) (h : ∀ e ∈ d :: ds, isDigit 16 e) :
      IsBody (0x30 :: x :: d :: ds) 16 (d :: ds)

/-- The text is a numeral, with a minus sign or without, for `n`. -/
def Spells (text : List UInt8) (neg : Bool) (n : ℕ) : Prop :=
  ∃ blanks sign body base digits, text = blanks ++ (sign ++ body) ∧ (∀ c ∈ blanks, isSpace c) ∧ IsSign sign neg ∧
    IsBody body base digits ∧ n = value base digits

theorem forall_byte {P : UInt8 → Prop} (h : ∀ n : Fin 256, P (UInt8.ofFin n)) (c : UInt8) : P c := h c.toFin

theorem isDigit_mono {base base' : ℕ} (h : base ≤ base') {c : UInt8} (hc : isDigit base c) : isDigit base' c := by
  unfold isDigit at hc ⊢
  cases hd : digitValue c with
  | none =>
    rw [hd] at hc
    cases hc
  | some d =>
    rw [hd] at hc
    have hlt : d < base := of_decide_eq_true hc
    exact decide_eq_true (lt_of_lt_of_le hlt h)

/-- A digit is no white space, sign or mark. -/
theorem not_of_isDigit : ∀ c : UInt8, isDigit 16 c →
    isSpace c = false ∧ c ≠ 0x2D ∧ c ≠ 0x2B ∧ c ≠ 0x78 ∧ c ≠ 0x58 :=
  forall_byte (by decide +kernel)

theorem IsBody.first {body digits : List UInt8} {base : ℕ} (h : IsBody body base digits) :
    ∃ c t, body = c :: t ∧ isDigit 16 c := by
  cases h with
  | @dec c ds hc h => exact ⟨c, ds, rfl, isDigit_mono (by omega) (h c List.mem_cons_self)⟩
  | @oct ds h => exact ⟨0x30, ds, rfl, rfl⟩
  | @hex x d ds hx h => exact ⟨0x30, x :: d :: ds, rfl, rfl⟩

theorem IsBody.digits {body digits : List UInt8} {base : ℕ} (h : IsBody body base digits) :
    digits ≠ [] ∧ ∀ c ∈ digits, isDigit base c := by
  cases h with
  | dec hc h => exact ⟨List.cons_ne_nil _ _, h⟩
  | oct h => exact ⟨List.cons_ne_nil _ _, List.forall_mem_cons.mpr ⟨rfl, h⟩⟩
  | hex hx h => exact ⟨List.cons_ne_nil _ _, h⟩

/-- **A body is what `readBase` takes to its end.** -/
theorem isBody_iff {body digits : List UInt8} {base : ℕ} :
    IsBody body base digits ↔ readBase body = (base, digits) ∧ digits ≠ [] ∧ ∀ c ∈ digits, isDigit base c := by
  refine ⟨fun h => ⟨?_, h.digits⟩, fun h => ?_⟩
  · cases h with
    | dec hc h => exact if_pos hc
    | @oct ds h =>
      rcases ds with _ | ⟨x, _ | ⟨d, ds⟩⟩
      · rfl
      · rfl
      · have hx := not_of_isDigit x (isDigit_mono (by omega) (h x List.mem_cons_self))
        have hmark : ¬((x = 0x78 ∨ x = 0x58) ∧ isDigit 16 d) := fun hm => hm.1.elim hx.2.2.2.1 hx.2.2.2.2
        exact if_neg hmark
    | hex hx h => exact if_pos ⟨hx, h _ List.mem_cons_self⟩
  · obtain ⟨hread, hne, hall⟩ := h
    rcases body with _ | ⟨c, t⟩
    · obtain ⟨-, rfl⟩ := Prod.mk.inj hread
      exact absurd rfl hne
    · by_cases hc : c = 0x30
      · subst hc
        rcases t with _ | ⟨x, _ | ⟨d, ds⟩⟩
        · obtain ⟨rfl, rfl⟩ := Prod.mk.inj hread
          exact .oct (List.forall_mem_cons.mp hall).2
        · obtain ⟨rfl, rfl⟩ := Prod.mk.inj hread
          exact .oct (List.forall_mem_cons.mp hall).2
        · by_cases hmark : (x = 0x78 ∨ x = 0x58) ∧ isDigit 16 d
          · have heq : (16, d :: ds) = (base, digits) := (if_pos hmark).symm.trans hread
            obtain ⟨rfl, rfl⟩ := Prod.mk.inj heq
            exact .hex hmark.1 hall
          · have heq : (8, (0x30 : UInt8) :: x :: d :: ds) = (base, digits) := (if_neg hmark).symm.trans hread
            obtain ⟨rfl, rfl⟩ := Prod.mk.inj heq
            exact .oct (List.forall_mem_cons.mp hall).2
      · have heq : (10, c :: t) = (base, digits) := (if_pos hc).symm.trans hread
        obtain ⟨rfl, rfl⟩ := Prod.mk.inj heq
        exact .dec hc hall

/-! ### What is read -/

/-- A sign is taken off, if there is one. -/
theorem readSign_eq {t body : List UInt8} {neg : Bool} (h : readSign t = (neg, body)) :
    ∃ sign, t = sign ++ body ∧ IsSign sign neg := by
  rcases t with _ | ⟨c, t⟩
  · obtain ⟨rfl, rfl⟩ := Prod.mk.inj h
    exact ⟨[], rfl, .inr ⟨rfl, .inl rfl⟩⟩
  · replace h : (if c = 0x2D then (true, t) else if c = 0x2B then (false, t) else (false, c :: t)) = (neg, body) := h
    split_ifs at h with hminus hplus
    · obtain ⟨rfl, rfl⟩ := Prod.mk.inj h
      exact ⟨[0x2D], by rw [hminus]; rfl, .inl ⟨rfl, rfl⟩⟩
    · obtain ⟨rfl, rfl⟩ := Prod.mk.inj h
      exact ⟨[0x2B], by rw [hplus]; rfl, .inr ⟨rfl, .inr rfl⟩⟩
    · obtain ⟨rfl, rfl⟩ := Prod.mk.inj h
      exact ⟨[], rfl, .inr ⟨rfl, .inl rfl⟩⟩

theorem readSign_body {sign body digits : List UInt8} {neg : Bool} {base : ℕ} (hsign : IsSign sign neg)
    (hbody : IsBody body base digits) :
    readSign (sign ++ body) = (neg, body) ∧ (sign ++ body).dropWhile isSpace = sign ++ body := by
  obtain ⟨c, t, rfl, hc⟩ := hbody.first
  obtain ⟨hspace, hminus, hplus, -, -⟩ := not_of_isDigit c hc
  rcases hsign with ⟨rfl, rfl⟩ | ⟨rfl, rfl | rfl⟩
  · exact ⟨rfl, rfl⟩
  · refine ⟨?_, List.dropWhile_cons_of_neg (by rw [hspace]; exact Bool.false_ne_true)⟩
    show (if c = 0x2D then (true, t) else if c = 0x2B then (false, t) else (false, c :: t)) = _
    rw [if_neg hminus, if_neg hplus]
  · exact ⟨rfl, rfl⟩

/-- **The texts `strtoul` reads to their end** are the numerals. -/
theorem strtoul_eq_some {text : List UInt8} {v : ℕ} :
    strtoul text = some (v, []) ↔ ∃ neg n, Spells text neg n ∧ v = wrapped neg n := by
  refine ⟨fun h => ?_, fun h => ?_⟩
  · rcases hsign : readSign (text.dropWhile isSpace) with ⟨neg, body⟩
    rcases hbase : readBase body with ⟨base, t⟩
    have hread : strtoul text = if t.takeWhile (isDigit base) = [] then none else
        some (wrapped neg (value base (t.takeWhile (isDigit base))), t.dropWhile (isDigit base)) := by
      simp only [strtoul, hsign, hbase]
    rw [hread] at h
    by_cases hne : t.takeWhile (isDigit base) = []
    · rw [if_pos hne] at h
      cases h
    · rw [if_neg hne] at h
      obtain ⟨hv, hrest⟩ := Prod.mk.inj (Option.some.inj h)
      have hall : ∀ c ∈ t, isDigit base c := List.dropWhile_eq_nil_iff.mp hrest
      rw [List.takeWhile_eq_self_iff.mpr hall] at hne hv
      obtain ⟨sign, htext, hs⟩ := readSign_eq hsign
      refine ⟨neg, value base t, ⟨text.takeWhile isSpace, sign, body, base, t, ?_, ?_, hs, ?_, rfl⟩, hv.symm⟩
      · rw [← htext, List.takeWhile_append_dropWhile]
      · exact fun c hc => List.mem_takeWhile_imp hc
      · exact isBody_iff.mpr ⟨hbase, hne, hall⟩
  · obtain ⟨neg, n, ⟨blanks, sign, body, base, digits, rfl, hblanks, hs, hbody, rfl⟩, rfl⟩ := h
    obtain ⟨hsign, hdrop⟩ := readSign_body hs hbody
    obtain ⟨hbase, hne, hall⟩ := isBody_iff.mp hbody
    have htake : digits.takeWhile (isDigit base) = digits := List.takeWhile_eq_self_iff.mpr hall
    have hrest : digits.dropWhile (isDigit base) = [] := List.dropWhile_eq_nil_iff.mpr hall
    simp only [strtoul, List.dropWhile_append_of_pos hblanks, hdrop, hsign, hbase, htake, hrest, if_neg hne]

/-! ### Numbers written out -/

/-- A digit, from 10 on a letter: a capital one, or a small one. -/
def digitByte (capital : Bool) (d : ℕ) : UInt8 :=
  if d < 10 then UInt8.ofNat (0x30 + d) else if capital then UInt8.ofNat (0x37 + d) else UInt8.ofNat (0x57 + d)

/-- `n` in base `base`, as `printf` writes it. -/
def numeral (capital : Bool) (base n : ℕ) : List UInt8 :=
  if n = 0 then [0x30] else (base.digits n).reverse.map (digitByte capital)

theorem digitByte_spec : ∀ capital, ∀ d < 16,
    digitValue (digitByte capital d) = some d ∧ (digitByte capital d = 0x30 → d = 0) := by
  decide

theorem value_append (base : ℕ) (ds : List UInt8) (c : UInt8) :
    value base (ds ++ [c]) = value base ds * base + (digitValue c).getD 0 := by
  unfold value
  rw [List.foldl_append]
  rfl

theorem value_digits (capital : Bool) {base : ℕ} : ∀ {ds : List ℕ}, (∀ d ∈ ds, d < 16) →
    value base (ds.reverse.map (digitByte capital)) = Nat.ofDigits base ds
  | [], _ => rfl
  | d :: ds, h => by
    obtain ⟨hd, hds⟩ := List.forall_mem_cons.mp h
    rw [List.reverse_cons, List.map_append, List.map_singleton, value_append, value_digits capital hds,
      (digitByte_spec capital d hd).1, Nat.ofDigits_cons, Option.getD_some, Nat.mul_comm, Nat.add_comm]

theorem numeral_spec (capital : Bool) {base : ℕ} (h1 : 1 < base) (h16 : base ≤ 16) (n : ℕ) :
    let digits := numeral capital base n
    digits ≠ [] ∧ (∀ c ∈ digits, isDigit base c) ∧ value base digits = n := by
  intro digits
  by_cases hn : n = 0
  · subst hn
    have hzero : isDigit base 0x30 := decide_eq_true (show 0 < base by omega)
    exact ⟨List.cons_ne_nil _ _, List.forall_mem_singleton.mpr hzero, Nat.zero_mul base⟩
  · have hlt : ∀ d ∈ base.digits n, d < base := fun d hd => Nat.digits_lt_base h1 hd
    have heq : digits = (base.digits n).reverse.map (digitByte capital) := if_neg hn
    rw [heq]
    refine ⟨?_, fun c hc => ?_, ?_⟩
    · have hdigits : base.digits n ≠ [] := Nat.digits_ne_nil_iff_ne_zero.mpr hn
      simp [hdigits]
    · obtain ⟨d, hd, rfl⟩ := List.mem_map.mp hc
      have hd := hlt d (List.mem_reverse.mp hd)
      unfold isDigit
      rw [(digitByte_spec capital d (by omega)).1]
      exact decide_eq_true hd
    · rw [value_digits capital fun d hd => lt_of_lt_of_le (hlt d hd) h16, Nat.ofDigits_digits]

/-- Only the numeral of 0 begins with `0`. -/
theorem numeral_first (capital : Bool) {n : ℕ} (hn : n ≠ 0) : ∃ c ds, numeral capital 10 n = c :: ds ∧ c ≠ 0x30 := by
  have heq : numeral capital 10 n = (Nat.digits 10 n).reverse.map (digitByte capital) := if_neg hn
  have hne : Nat.digits 10 n ≠ [] := Nat.digits_ne_nil_iff_ne_zero.mpr hn
  obtain ⟨ds, d, hsplit⟩ : ∃ ds d, Nat.digits 10 n = ds ++ [d] :=
    ⟨_, _, (List.dropLast_append_getLast hne).symm⟩
  refine ⟨digitByte capital d, ds.reverse.map (digitByte capital), by rw [heq, hsplit]; simp, fun h => ?_⟩
  have hmem : d ∈ Nat.digits 10 n := by rw [hsplit]; simp
  have hd : d < 10 := Nat.digits_lt_base (by omega) hmem
  have hlast := Nat.getLast_digit_ne_zero 10 hn
  simp only [hsplit, List.getLast_append_singleton] at hlast
  exact hlast ((digitByte_spec capital d (by omega)).2 h)

/-- **Numbers are read back**, in each of the three bases. -/
theorem spells_numeral (capital : Bool) (n : ℕ) :
    Spells (numeral capital 10 n) false n ∧ Spells (0x30 :: numeral capital 8 n) false n ∧
      ∀ x : UInt8, x = 0x78 ∨ x = 0x58 → Spells (0x30 :: x :: numeral capital 16 n) false n := by
  have hnone : IsSign [] false := .inr ⟨rfl, .inl rfl⟩
  obtain ⟨-, hall, hvalue⟩ := numeral_spec capital (show 1 < 10 by omega) (by omega) n
  obtain ⟨-, hall8, hvalue8⟩ := numeral_spec capital (show 1 < 8 by omega) (by omega) n
  obtain ⟨hne16, hall16, hvalue16⟩ := numeral_spec capital (show 1 < 16 by omega) (by omega) n
  refine ⟨?_, ?_, fun x hx => ?_⟩
  · by_cases hn : n = 0
    · subst hn
      exact ⟨[], [], [0x30], 8, [0x30], rfl, List.forall_mem_nil _, hnone, .oct (List.forall_mem_nil _), rfl⟩
    · obtain ⟨c, ds, heq, hc⟩ := numeral_first capital hn
      rw [heq] at hall hvalue ⊢
      exact ⟨[], [], c :: ds, 10, c :: ds, rfl, List.forall_mem_nil _, hnone, .dec hc hall, hvalue.symm⟩
  · refine ⟨[], [], _, 8, 0x30 :: numeral capital 8 n, rfl, List.forall_mem_nil _, hnone, .oct hall8, ?_⟩
    exact hvalue8.symm
  · obtain ⟨d, ds, heq⟩ := List.exists_cons_of_ne_nil hne16
    rw [heq] at hall16 hvalue16 ⊢
    exact ⟨[], [], _, 16, d :: ds, rfl, List.forall_mem_nil _, hnone, .hex hx hall16, hvalue16.symm⟩

end CString
