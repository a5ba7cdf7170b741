/-
# Machines that answer

A machine takes inputs one after the other; for each it puts something out
and goes to its next state. One machine refines another up to a relation of
their states (`Refines`) if from related states both put out the same and
stay related. Then they put out the same over every run (`Refines.run`).

Behind a queue (`delay`) a machine puts out what it would without one, so
many steps late as the queue is long (`outputs_delay`). A machine that turns
some inputs down (`skip`) runs on the others (`outputs_skip`).
-/
import Mathlib.Tactic.TypeStar

namespace Machine

variable {ι ο σ τ υ : Type*}

/-- What the machine puts out for the inputs, one after the other. -/
def outputs (step : ι → σ → ο × σ) : List ι → σ → List ο
  | [], _ => []
  | i :: is, s => (step i s).1 :: outputs step is (step i s).2

/-- The state after the inputs. -/
def after (step : ι → σ → ο × σ) : List ι → σ → σ
  | [], s => s
  | i :: is, s => after step is (step i s).2

/-- For an input in `A` and from related states both machines put out the
same and go to related states. -/
def Refines (A : ι → Prop) (R : σ → τ → Prop) (step : ι → σ → ο × σ) (step' : ι → τ → ο × τ) : Prop :=
  ∀ i, A i → ∀ s t, R s t → (step i s).1 = (step' i t).1 ∧ R (step i s).2 (step' i t).2

variable {A : ι → Prop} {R : σ → τ → Prop} {R' : τ → υ → Prop} {step : ι → σ → ο × σ} {step' : ι → τ → ο × τ}
  {step'' : ι → υ → ο × υ}

/-- **Runs.** -/
theorem Refines.run (h : Refines A R step step') {is : List ι} (his : ∀ i ∈ is, A i) {s : σ} {t : τ} (hR : R s t) :
    outputs step is s = outputs step' is t ∧ R (after step is s) (after step' is t) := by
  induction is generalizing s t with
  | nil => exact ⟨rfl, hR⟩
  | cons i is ih =>
    obtain ⟨hi, hrest⟩ := List.forall_mem_cons.mp his
    obtain ⟨hout, hnext⟩ := h i hi s t hR
    obtain ⟨houts, hafter⟩ := ih hrest hnext
    refine ⟨?_, hafter⟩
    show (step i s).1 :: _ = (step' i t).1 :: _
    rw [hout, houts]

/-- Refinements compose. -/
theorem Refines.trans (h : Refines A R step step') (h' : Refines A R' step' step'') :
    Refines A (fun s u => ∃ t, R s t ∧ R' t u) step step'' := by
  intro i hi s u hsu
  obtain ⟨t, hR, hR'⟩ := hsu
  obtain ⟨hout, hnext⟩ := h i hi s t hR
  obtain ⟨hout', hnext'⟩ := h' i hi t u hR'
  exact ⟨hout.trans hout', (step' i t).2, hnext, hnext'⟩

theorem Refines.restrict {A' : ι → Prop} (h : Refines A R step step') (hA : ∀ i, A' i → A i) :
    Refines A' R step step' :=
  fun i hi => h i (hA i hi)

/-! ### Queues -/

/-- The machine behind a queue: each step it puts its value at the end, and
the first one comes out. -/
def delay (step : ι → σ → ο × σ) : ι → List ο × σ → ο × (List ο × σ)
  | i, ([], s) => ((step i s).1, ([], (step i s).2))
  | i, (o :: q, s) => (o, (q ++ [(step i s).1], (step i s).2))

/-- **A queue delays.** -/
theorem outputs_delay (step : ι → σ → ο × σ) (is : List ι) (q : List ο) (s : σ) :
    outputs (delay step) is (q, s) = (q ++ outputs step is s).take is.length ∧
      after (delay step) is (q, s) = ((q ++ outputs step is s).drop is.length, after step is s) := by
  induction is generalizing q s with
  | nil => exact ⟨rfl, by rw [outputs, List.append_nil]; rfl⟩
  | cons i is ih =>
    rcases q with _ | ⟨o, q⟩
    · obtain ⟨houts, hafter⟩ := ih [] (step i s).2
      exact ⟨congrArg ((step i s).1 :: ·) houts, hafter⟩
    · obtain ⟨houts, hafter⟩ := ih (q ++ [(step i s).1]) (step i s).2
      rw [List.append_assoc, List.singleton_append] at houts hafter
      exact ⟨congrArg (o :: ·) houts, hafter⟩

/-! ### Inputs turned down -/

/-- The machine takes the inputs in `p`; it puts `o` out for any other, and
stays as it is. -/
def skip (p : ι → Bool) (o : ο) (step : ι → σ → ο × σ) : ι → σ → ο × σ :=
  fun i s => if p i then step i s else (o, s)

/-- Values for the inputs in `p`, in order, with `o` for the others. -/
def weave (p : ι → Bool) (o : ο) : List ι → List ο → List ο
  | [], _ => []
  | i :: is, os => if p i then os.take 1 ++ weave p o is (os.drop 1) else o :: weave p o is os

/-- **Inputs that are turned down** make no difference to the others. -/
theorem outputs_skip (p : ι → Bool) (o : ο) (step : ι → σ → ο × σ) (is : List ι) (s : σ) :
    outputs (skip p o step) is s = weave p o is (outputs step (is.filter p) s) ∧
      after (skip p o step) is s = after step (is.filter p) s := by
  induction is generalizing s with
  | nil => exact ⟨rfl, rfl⟩
  | cons i is ih =>
    have hrun : ∀ (step : ι → σ → ο × σ) (is : List ι),
        outputs step (i :: is) s = (step i s).1 :: outputs step is (step i s).2 ∧
        after step (i :: is) s = after step is (step i s).2 := fun _ _ => ⟨rfl, rfl⟩
    obtain ⟨hout, hafter⟩ := hrun (skip p o step) is
    rw [hout, hafter]
    by_cases hi : p i
    · have hstep : skip p o step i s = step i s := if_pos hi
      have hweave : ∀ x os, weave p o (i :: is) (x :: os) = x :: weave p o is os := fun _ _ => if_pos hi
      rw [List.filter_cons_of_pos hi, (hrun step _).1, (hrun step _).2, hstep, hweave]
      obtain ⟨houts, hend⟩ := ih (step i s).2
      exact ⟨congrArg ((step i s).1 :: ·) houts, hend⟩
    · have hstep : skip p o step i s = (o, s) := if_neg hi
      have hweave : ∀ os, weave p o (i :: is) os = o :: weave p o is os := fun _ => if_neg hi
      rw [List.filter_cons_of_neg hi, hstep, hweave]
      obtain ⟨houts, hend⟩ := ih s
      exact ⟨congrArg (o :: ·) houts, hend⟩

/-- A machine that turns the inputs outside `p` down refines one that does. -/
theorem Refines.skip {p : ι → Bool} {o : ο} (h : Refines (fun i => A i ∧ p i) R step step')
    (hskip : ∀ i, A i → ¬p i → ∀ s t, R s t → (step i s).1 = o ∧ R (step i s).2 t) :
    Refines A R step (skip p o step') := by
  intro i hi s t hR
  unfold Machine.skip
  by_cases hp : p i
  · rw [if_pos hp]
    exact h i ⟨hi, hp⟩ s t hR
  · rw [if_neg hp]
    exact hskip i hi hp s t hR

theorem length_outputs (step : ι → σ → ο × σ) (is : List ι) (s : σ) : (outputs step is s).length = is.length := by
  induction is generalizing s with
  | nil => rfl
  | cons i is ih => exact congrArg (· + 1) (ih (step i s).2)

end Machine
