import Mathlib.Data.Int.CardIntervalMod

/-!
# Turns in rotation

There are `n` people, and the turns go round: the turn with number `i` is taken by
number `(s + i) % n`, where `s` began. Then nobody gets ahead of anybody else by more
than one turn, and whoever is next has taken as few as anybody.
-/

namespace Lib

/-- How many of the first `t` turns number `a` took. -/
def turnsOf (n s a t : ℕ) : ℕ := t.count fun i => (s + i) % n = a

theorem turnsOf_succ (n s a t : ℕ) :
    turnsOf n s a (t + 1) = turnsOf n s a t + if (s + t) % n = a then 1 else 0 :=
  Nat.count_succ _ t

theorem lt_of_turnsOf_pos {n s a t : ℕ} (hn : 0 < n) (h : 0 < turnsOf n s a t) : a < n := by
  by_contra hge
  have hnever : ∀ i, (s + i) % n ≠ a := fun i heq => hge (heq ▸ Nat.mod_lt _ hn)
  simp [turnsOf, hnever] at h

variable {n a : ℕ}

/-- It is number `a`'s turn as often as a number falls into one class modulo `n`. -/
theorem modEq_iff (ha : a < n) (s i : ℕ) :
    (s + i) % n = a ↔ i ≡ a + (n - s % n) [MOD n] := by
  have hs : s % n < n := Nat.mod_lt s (by omega)
  have hshift : s + (a + (n - s % n)) ≡ a [MOD n] := by
    have heq : s + (a + (n - s % n)) = a + n * (s / n + 1) := by
      have hdiv := Nat.div_add_mod s n
      rw [Nat.mul_add, Nat.mul_one]
      omega
    rw [heq]
    exact Nat.add_mul_mod_self_left a n _
  constructor
  · intro h
    refine Nat.ModEq.add_left_cancel' s ?_
    exact (show s + i ≡ a [MOD n] by rw [Nat.ModEq, h, Nat.mod_eq_of_lt ha]).trans hshift.symm
  · intro h
    have hsum := (h.add_left s).trans hshift
    rwa [Nat.ModEq, Nat.mod_eq_of_lt ha] at hsum

theorem turnsOf_eq (ha : a < n) (s t : ℕ) :
    turnsOf n s a t = t / n + if (a + (n - s % n)) % n < t % n then 1 else 0 := by
  rw [← Nat.count_modEq_card t (by omega), turnsOf]
  simp only [modEq_iff ha]

/-- The turns are shared out evenly. -/
theorem turnsOf_cases (ha : a < n) (s t : ℕ) :
    turnsOf n s a t = t / n ∨ turnsOf n s a t = t / n + 1 ∧ 0 < t % n := by
  rw [turnsOf_eq ha]
  split
  · next h => exact .inr ⟨rfl, Nat.lt_of_le_of_lt (Nat.zero_le _) h⟩
  · exact .inl rfl

/-- Whoever is next has taken as few as anybody. -/
theorem turnsOf_next (hn : 0 < n) (s t : ℕ) : turnsOf n s ((s + t) % n) t = t / n := by
  have hlt := Nat.mod_lt (s + t) hn
  have hclass := (modEq_iff hlt s t).mp rfl
  rw [turnsOf_eq hlt, if_neg, Nat.add_zero]
  rw [← show t % n = _ from hclass]
  exact Nat.lt_irrefl _

end Lib
