import Mathlib.Data.Prod.Lex
import Mathlib.Order.WellFounded
import ConnectDisks.Lib.Run

/-!
# Runs that go on

A system that can always take another step has runs without end. What can be said
about these is what must happen in them sooner or later, and the rule for that is a
rank: if every step makes the rank smaller as long as some phase lasts, then no phase
lasts for ever (`Endless.changes`).

Ranks are pairs here, of which the first component counts before the second.
-/

namespace Lib

variable {σ ε : Type*} {step : σ → ε → Option σ} {ok : σ → ε → Prop}

/-- A run without end, as the states it passes. -/
def Endless (step : σ → ε → Option σ) (ok : σ → ε → Prop) (f : ℕ → σ) : Prop :=
  ∀ n, ∃ e, ok (f n) e ∧ step (f n) e = some (f (n + 1))

/-- There is one if no run gets stuck. -/
theorem exists_endless {s₀ : σ}
    (h : ∀ s, Reaches step ok s₀ s → ∃ e s', ok s e ∧ step s e = some s') :
    ∃ f : ℕ → σ, f 0 = s₀ ∧ Endless step ok f := by
  have hnext : ∀ s : {s // Reaches step ok s₀ s}, ∃ s' : {s // Reaches step ok s₀ s},
      ∃ e, ok s e ∧ step s e = some s'.1 := by
    rintro ⟨s, hs⟩
    obtain ⟨e, s', hok, hstep⟩ := h s hs
    exact ⟨⟨s', .step hs hok hstep⟩, e, hok, hstep⟩
  choose next hnext using hnext
  refine ⟨fun n => (next^[n] ⟨s₀, .refl⟩).1, rfl, fun n => ?_⟩
  dsimp only
  rw [Function.iterate_succ_apply']
  exact hnext _

namespace Endless

variable {f : ℕ → σ}

theorem reaches (h : Endless step ok f) (n : ℕ) : Reaches step ok (f 0) (f n) := by
  induction n with
  | zero => exact .refl
  | succ n ih =>
      obtain ⟨e, hok, hstep⟩ := h n
      exact .step ih hok hstep

/-- A phase whose steps make a rank smaller does not last. -/
theorem changes {α β : Type*} [LT α] [WellFoundedLT α] (h : Endless step ok f)
    (phase : σ → β) (rank : σ → α)
    (hrank : ∀ n e, ok (f n) e → step (f n) e = some (f (n + 1)) →
      phase (f (n + 1)) ≠ phase (f n) ∨ rank (f (n + 1)) < rank (f n)) (n : ℕ) :
    ∃ m, n ≤ m ∧ phase (f m) ≠ phase (f n) := by
  by_contra hnever
  push Not at hnever
  -- the phase lasts from `n` on, so the rank descends for ever
  have hlower : ∀ k, rank (f (n + (k + 1))) < rank (f (n + k)) := by
    intro k
    have hsame : phase (f (n + k + 1)) = phase (f (n + k)) :=
      (hnever (n + k + 1) (by omega)).trans (hnever (n + k) (by omega)).symm
    obtain ⟨e, hok, hstep⟩ := h (n + k)
    exact (hrank (n + k) e hok hstep).resolve_left (not_not_intro hsame)
  obtain ⟨k, hk⟩ := WellFounded.not_rel_apply_succ (r := (· < ·)) fun k => rank (f (n + k))
  exact hk (hlower k)

end Endless

/-! ## Ranks -/

theorem toLex_lt_of_le {α β : Type*} [PartialOrder α] [Preorder β] {a a' : α} {b b' : β}
    (ha : a' ≤ a) (hb : b' < b) : toLex (a', b') < toLex (a, b) :=
  Prod.Lex.toLex_lt_toLex'.mpr ⟨ha, fun _ => hb⟩

theorem toLex_lt_of_lt {α β : Type*} [LT α] [LT β] {a a' : α} (b b' : β) (ha : a' < a) :
    toLex (a', b') < toLex (a, b) :=
  Prod.Lex.toLex_lt_toLex.mpr (.inl ha)

end Lib
