import Mathlib.Algebra.BigOperators.Group.Finset.Basic
import Mathlib.Algebra.Order.BigOperators.Group.Finset
import Mathlib.Data.List.Count

/-!
# Counting the entries of a list

A list over a finite set of values in which no value occurs more than `k` times
has at most `k` entries a value, and that many only if each occurs `k` times.
-/

namespace Lib

variable {α : Type*} [DecidableEq α] {l : List α} {s : Finset α}

theorem sum_count_eq_length (hs : ∀ a ∈ l, a ∈ s) : ∑ a ∈ s, l.count a = l.length := by
  have hsub : l.toFinset ⊆ s := fun a ha => hs a (List.mem_toFinset.mp ha)
  rw [← List.sum_toFinset_count_eq_length l]
  refine (Finset.sum_subset hsub fun a _ ha => ?_).symm
  rw [List.count_eq_zero]
  exact fun hin => ha (List.mem_toFinset.mpr hin)

theorem length_le_card_mul {k : ℕ} (hs : ∀ a ∈ l, a ∈ s) (hk : ∀ a ∈ s, l.count a ≤ k) :
    l.length ≤ s.card * k := by
  rw [← sum_count_eq_length hs]
  simpa using Finset.sum_le_card_nsmul s (l.count ·) k hk

theorem length_eq_card_mul_iff {k : ℕ} (hs : ∀ a ∈ l, a ∈ s)
    (hk : ∀ a ∈ s, l.count a ≤ k) : l.length = s.card * k ↔ ∀ a ∈ s, l.count a = k := by
  have hsum : ∑ _a ∈ s, k = s.card * k := by simp
  rw [← sum_count_eq_length hs, ← hsum]
  exact Finset.sum_eq_sum_iff_of_le hk

end Lib
