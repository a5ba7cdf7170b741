/-
# Resources taken and given back

A shared state that resources are taken from and given back to (`Ledger`). A
resource that is free may be taken, and giving it back then undoes the
taking. Takings commute, and of two that are free one after the other either
may come first.

So the order in which resources were taken does not matter (`takeAll_perm`,
`FreeAll.perm`), and a holder can give back what it took whatever others have
taken and given back since. The state is at any time what the holders' lists
make of the first one (`Held`), so it is the first one again when nobody
holds anything.
-/
import Mathlib.Data.List.Perm.Basic
import Mathlib.Tactic.TypeStar

/-- Taking from and giving back to a shared state. -/
structure Ledger (ρ β : Type*) where
  take : ρ → β → β
  give : ρ → β → β
  /-- The resource may be taken. -/
  Free : ρ → β → Prop
  take_comm : ∀ r r' b, take r (take r' b) = take r' (take r b)
  give_take : ∀ {r b}, Free r b → give r (take r b) = b
  free_comm : ∀ {r r' b}, Free r b → Free r' (take r b) → Free r' b ∧ Free r (take r' b)

namespace Ledger

variable {ρ β : Type*} (L : Ledger ρ β)

/-- Takes the resources, the first one first. -/
def takeAll : List ρ → β → β
  | [], b => b
  | r :: rs, b => takeAll rs (L.take r b)

def giveAll : List ρ → β → β
  | [], b => b
  | r :: rs, b => giveAll rs (L.give r b)

/-- Each resource is free when its turn comes. -/
def FreeAll : List ρ → β → Prop
  | [], _ => True
  | r :: rs, b => L.Free r b ∧ FreeAll rs (L.take r b)

theorem takeAll_append (rs' : List ρ) :
    ∀ (rs : List ρ) (b : β), L.takeAll (rs ++ rs') b = L.takeAll rs' (L.takeAll rs b)
  | [], _ => rfl
  | r :: rs, b => takeAll_append rs' rs (L.take r b)

theorem giveAll_append (rs' : List ρ) :
    ∀ (rs : List ρ) (b : β), L.giveAll (rs ++ rs') b = L.giveAll rs' (L.giveAll rs b)
  | [], _ => rfl
  | r :: rs, b => giveAll_append rs' rs (L.give r b)

theorem freeAll_append (rs' : List ρ) : ∀ (rs : List ρ) (b : β),
    L.FreeAll (rs ++ rs') b ↔ L.FreeAll rs b ∧ L.FreeAll rs' (L.takeAll rs b)
  | [], _ => ⟨fun h => ⟨trivial, h⟩, fun h => h.2⟩
  | r :: rs, b => by
    simp only [List.cons_append, FreeAll, takeAll, freeAll_append rs' rs, and_assoc]

theorem takeAll_perm {rs rs' : List ρ} (h : rs.Perm rs') (b : β) : L.takeAll rs b = L.takeAll rs' b := by
  induction h generalizing b with
  | nil => rfl
  | cons r _ ih => exact ih (L.take r b)
  | swap r r' l =>
    show L.takeAll l (L.take r (L.take r' b)) = L.takeAll l (L.take r' (L.take r b))
    rw [L.take_comm]
  | trans _ _ ih₁ ih₂ => exact (ih₁ b).trans (ih₂ b)

variable {L}

theorem FreeAll.perm {rs rs' : List ρ} (h : rs.Perm rs') {b : β} (hf : L.FreeAll rs b) : L.FreeAll rs' b := by
  induction h generalizing b with
  | nil => exact hf
  | cons r _ ih => exact ⟨hf.1, ih hf.2⟩
  | swap r r' l =>
    obtain ⟨hr', hr, hl⟩ := hf
    obtain ⟨hfirst, hthen⟩ := L.free_comm hr' hr
    exact ⟨hfirst, hthen, L.take_comm r r' b ▸ hl⟩
  | trans _ _ ih₁ ih₂ => exact ih₂ (ih₁ hf)

/-- Giving back in the reverse order undoes the taking. -/
theorem FreeAll.giveAll_takeAll {rs : List ρ} {b : β} (hf : L.FreeAll rs b) :
    L.giveAll rs.reverse (L.takeAll rs b) = b := by
  induction rs generalizing b with
  | nil => rfl
  | cons r rs ih =>
    calc L.giveAll (r :: rs).reverse (L.takeAll (r :: rs) b)
        = L.giveAll [r] (L.giveAll rs.reverse (L.takeAll rs (L.take r b))) := by
          rw [List.reverse_cons, giveAll_append]
          rfl
      _ = L.give r (L.take r b) := by
          rw [ih hf.2]
          rfl
      _ = b := L.give_take hf.1

/-! ### Holders -/

variable (L) in
/-- From `b₀` on the holders have taken what their lists say, and that has
led to `b`. -/
def Held (b₀ : β) (holders : List (List ρ)) (b : β) : Prop :=
  L.FreeAll holders.flatten b₀ ∧ b = L.takeAll holders.flatten b₀

theorem Held.nil (b : β) : L.Held b [] b := ⟨trivial, rfl⟩

variable {b₀ b : β}

/-- A new holder takes what is free. -/
theorem Held.take {holders : List (List ρ)} (h : L.Held b₀ holders b) {rs : List ρ} (hf : L.FreeAll rs b) :
    L.Held b₀ (holders ++ [rs]) (L.takeAll rs b) := by
  obtain ⟨hfree, rfl⟩ := h
  unfold Held
  rw [List.flatten_append, List.flatten_singleton, freeAll_append, takeAll_append]
  exact ⟨⟨hfree, hf⟩, rfl⟩

/-- Any holder gives back what it took. -/
theorem Held.give {before after : List (List ρ)} {rs : List ρ} (h : L.Held b₀ (before ++ rs :: after) b) :
    L.Held b₀ (before ++ after) (L.giveAll rs.reverse b) := by
  obtain ⟨hfree, rfl⟩ := h
  -- the holder's takings may as well have come last
  have hperm : (before ++ rs :: after).flatten.Perm ((before ++ after).flatten ++ rs) := by
    simp only [List.flatten_append, List.flatten_cons, List.append_assoc]
    exact List.Perm.append_left _ List.perm_append_comm
  obtain ⟨hrest, hrs⟩ := (L.freeAll_append _ _ _).mp (hfree.perm hperm)
  refine ⟨hrest, ?_⟩
  rw [L.takeAll_perm hperm, takeAll_append, hrs.giveAll_takeAll]

/-- The state is determined by what is held, in whatever order. -/
theorem Held.unique {holders holders' : List (List ρ)} {b' : β} (h : L.Held b₀ holders b)
    (h' : L.Held b₀ holders' b') (hperm : holders.Perm holders') : b = b' := by
  rw [h.2, h'.2, L.takeAll_perm hperm.flatten]

end Ledger
