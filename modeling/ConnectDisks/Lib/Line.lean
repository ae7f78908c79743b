import Mathlib.Algebra.Group.Basic
import Mathlib.Algebra.Module.NatInt
import Mathlib.Data.Set.Insert
import Mathlib.Tactic.Abel

/-!
# Lines of points in a group

A line of length `k` is a point `q` and a direction `d` with all of
`q, q + d, …, q + (k - 1)d` in a set. Nothing here knows about boards: the
points live in any additive commutative group.

The fact a game with gravity rests on is `hasLine_insert`: adding one point to
a set can only create lines that run through that point, and such a line is two
rays out of it, one in each direction, whose lengths add up. `hasLine_iff_ray`
turns the two rays into what a scan computes: how far the set reaches in the
first direction, and whether the rest is there in the second.
-/

namespace Lib

variable {G : Type*} [AddCommGroup G]

/-- The `k` points from `q` on in direction `d` all lie in `P`. -/
def IsLine (P : Set G) (k : ℕ) (d q : G) : Prop :=
  ∀ i < k, q + i • d ∈ P

/-- Some line of length `k` in direction `d`. -/
def HasLine (P : Set G) (k : ℕ) (d : G) : Prop :=
  ∃ q, IsLine P k d q

theorem isLine_zero (P : Set G) (d q : G) : IsLine P 0 d q :=
  fun _ h => absurd h (Nat.not_lt_zero _)

theorem isLine_succ {P : Set G} {k : ℕ} {d q : G} :
    IsLine P (k + 1) d q ↔ q ∈ P ∧ IsLine P k d (q + d) := by
  constructor
  · intro h
    refine ⟨by simpa using h 0 (by omega), fun i hi => ?_⟩
    have := h (i + 1) (by omega)
    rwa [succ_nsmul', ← add_assoc] at this
  · rintro ⟨h0, h⟩ i hi
    cases i with
    | zero => simpa using h0
    | succ j =>
        have := h j (by omega)
        rwa [add_assoc, ← succ_nsmul'] at this

theorem IsLine.mono {P Q : Set G} {k : ℕ} {d q : G} (hPQ : P ⊆ Q)
    (h : IsLine P k d q) : IsLine Q k d q :=
  fun i hi => hPQ (h i hi)

theorem IsLine.le {P : Set G} {k n : ℕ} {d q : G} (hn : n ≤ k)
    (h : IsLine P k d q) : IsLine P n d q :=
  fun i hi => h i (by omega)

theorem HasLine.mono {P Q : Set G} {k : ℕ} {d : G} (hPQ : P ⊆ Q)
    (h : HasLine P k d) : HasLine Q k d :=
  let ⟨q, hq⟩ := h
  ⟨q, hq.mono hPQ⟩

/-- Through `x` runs a line of length `k`: `a` points after `x` and `b` points
before it, with `a + b + 1 = k`. -/
def Through (P : Set G) (k : ℕ) (d x : G) : Prop :=
  ∃ a b, a + b + 1 = k ∧ IsLine P a d (x + d) ∧ IsLine P b (-d) (x - d)

theorem Through.hasLine {P : Set G} {k : ℕ} {d x : G} (hx : x ∈ P)
    (h : Through P k d x) : HasLine P k d := by
  obtain ⟨a, b, hk, ha, hb⟩ := h
  refine ⟨x - b • d, fun i hi => ?_⟩
  rcases Nat.lt_trichotomy i b with hlt | rfl | hgt
  · have := hb (b - 1 - i) (by omega)
    obtain ⟨j, rfl⟩ : ∃ j, b = i + 1 + j := ⟨b - i - 1, by omega⟩
    rw [show i + 1 + j - 1 - i = j by omega] at this
    convert this using 1
    simp only [add_nsmul, one_nsmul, smul_neg]
    abel
  · simpa using hx
  · have := ha (i - b - 1) (by omega)
    obtain ⟨j, rfl⟩ : ∃ j, i = b + 1 + j := ⟨i - b - 1, by omega⟩
    rw [show b + 1 + j - b - 1 = j by omega] at this
    convert this using 1
    simp only [add_nsmul, one_nsmul]
    abel

/-- Adding a point creates no line except through that point. -/
theorem hasLine_insert {P : Set G} {k : ℕ} {d x : G} :
    HasLine (insert x P) k d ↔ HasLine P k d ∨ Through (insert x P) k d x := by
  constructor
  · rintro ⟨q, hq⟩
    by_cases hx : ∃ i < k, q + i • d = x
    · obtain ⟨i, hi, rfl⟩ := hx
      refine .inr ⟨k - 1 - i, i, by omega, fun j hj => ?_, fun j hj => ?_⟩
      · have := hq (i + 1 + j) (by omega)
        simpa only [add_nsmul, one_nsmul, add_assoc] using this
      · have := hq (i - 1 - j) (by omega)
        obtain ⟨m, rfl⟩ : ∃ m, i = m + 1 + j := ⟨i - 1 - j, by omega⟩
        rw [show m + 1 + j - 1 - j = m by omega] at this
        convert this using 1
        simp only [add_nsmul, one_nsmul, smul_neg]
        abel
    · refine .inl ⟨q, fun i hi => ?_⟩
      rcases hq i hi with h | h
      · exact absurd ⟨i, hi, h⟩ hx
      · exact h
  · rintro (h | h)
    · exact h.mono (Set.subset_insert x P)
    · exact h.hasLine (Set.mem_insert x P)

/-- When the set reaches exactly `a` points beyond `x`, short of a full line,
the line through `x` stands or falls with the points before it. -/
theorem through_iff_of_stop {P : Set G} {k a : ℕ} {d x : G} (ha : a + 1 < k)
    (hline : IsLine P a d (x + d)) (hstop : x + d + a • d ∉ P) :
    Through P k d x ↔ IsLine P (k - 1 - a) (-d) (x - d) := by
  constructor
  · rintro ⟨a', b, hk, ha', hb⟩
    have hle : a' ≤ a := by
      by_contra hlt
      exact hstop (ha' a (by omega))
    exact hb.le (by omega)
  · intro h
    exact ⟨a, k - 1 - a, by omega, hline, h⟩

end Lib
