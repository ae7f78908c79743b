import Mathlib.Data.List.Chain

/-!
# A flag that announces its changes

A flag is off at first. Each time it changes, its new value goes to the end of a
log, and nothing else does. Then the log alternates, begins with `true`, and its
last entry is the flag.
-/

namespace Lib

/-- The log of a flag that was off at first. -/
structure Alternates (log : List Bool) (flag : Bool) : Prop where
  chain : log.IsChain (· ≠ ·)
  first : ∀ b ∈ log.head?, b = true
  last : log.getLast?.getD false = flag

theorem Alternates.nil : Alternates [] false :=
  ⟨.nil, fun _ h => (by cases h), rfl⟩

theorem Alternates.flip {log : List Bool} {flag : Bool} (h : Alternates log flag) :
    Alternates (log ++ [!flag]) (!flag) := by
  have hlast : ∀ b ∈ log.getLast?, b = flag := by
    intro b hb
    rw [← h.last, Option.mem_def.mp hb]
    rfl
  refine ⟨h.chain.append (.singleton _) ?_, ?_, ?_⟩
  · intro b hb b' hb'
    obtain rfl := Option.some.inj hb'
    rw [hlast b hb]
    cases flag <;> decide
  · intro b hb
    cases log with
    | nil =>
        obtain rfl := Option.some.inj hb
        rw [← h.last]
        rfl
    | cons b' log => exact h.first b hb
  · rw [List.getLast?_concat]
    rfl

theorem Alternates.step {log log' : List Bool} {flag flag' : Bool} (h : Alternates log flag)
    (hlog : log' = log ++ if flag' = flag then [] else [flag']) : Alternates log' flag' := by
  split at hlog
  · next heq =>
      rw [hlog, List.append_nil, heq]
      exact h
  · next hne =>
      rw [hlog, Bool.eq_not_of_ne hne]
      exact h.flip

end Lib
