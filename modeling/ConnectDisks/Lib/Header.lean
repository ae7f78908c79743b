import Mathlib.Logic.Function.Iterate

/-!
# The header of a loop

`for (; goesOn s; s = next s)`, looked at without its body. Whatever the body is, it can
only leave the loop earlier than the header does, so what the header alone guarantees
holds of the loop: `Enters` says that the body may be entered for a certain round, and
the two rules prove, from one invariant that may count the rounds, what holds in every
round that is entered and that one is not.
-/

namespace Lib

variable {σ : Type*} {goesOn : σ → Bool} {next : σ → σ} {s : σ} {k : ℕ}

/-- The condition holds before round `k`, and held before every round until then. -/
def Enters (goesOn : σ → Bool) (next : σ → σ) (s : σ) (k : ℕ) : Prop :=
  ∀ j ≤ k, goesOn (next^[j] s) = true

theorem enters_zero : Enters goesOn next s 0 ↔ goesOn s = true := by
  constructor
  · intro h
    exact h 0 (Nat.le_refl 0)
  · intro h j hj
    obtain rfl := Nat.le_zero.mp hj
    exact h

theorem enters_succ :
    Enters goesOn next s (k + 1) ↔ goesOn s = true ∧ Enters goesOn next (next s) k := by
  constructor
  · intro h
    exact ⟨h 0 (Nat.zero_le _), fun j hj => h (j + 1) (Nat.succ_le_succ hj)⟩
  · rintro ⟨h0, h⟩ j hj
    cases j with
    | zero => exact h0
    | succ j => exact h j (Nat.le_of_succ_le_succ hj)

theorem Enters.mono {j : ℕ} (h : Enters goesOn next s k) (hj : j ≤ k) :
    Enters goesOn next s j :=
  fun i hi => h i (Nat.le_trans hi hj)

/-- The invariant rule. -/
theorem Enters.invariant {I : ℕ → σ → Prop} (h0 : I 0 s)
    (hnext : ∀ k s, I k s → goesOn s = true → I (k + 1) (next s))
    (h : Enters goesOn next s k) : I k (next^[k] s) := by
  induction k with
  | zero => exact h0
  | succ k ih =>
      rw [Function.iterate_succ_apply']
      exact hnext k _ (ih (h.mono (Nat.le_succ k))) (h k (Nat.le_succ k))

/-- The exit rule: where the invariant says that a round is not entered, the loop has
come to its end. -/
theorem exists_exit {I : ℕ → σ → Prop} (h0 : I 0 s)
    (hnext : ∀ k s, I k s → goesOn s = true → I (k + 1) (next s))
    (hlast : ∀ s, I k s → goesOn s = false) :
    ∃ j ≤ k, goesOn (next^[j] s) = false := by
  by_contra hall
  have henters : Enters goesOn next s k := by
    intro j hj
    by_contra hnot
    exact hall ⟨j, hj, Bool.eq_false_iff.mpr hnot⟩
  have hstop := hlast _ (henters.invariant h0 hnext)
  exact absurd ((henters k (Nat.le_refl k)).symm.trans hstop) (by decide)

end Lib
