import Mathlib.Data.List.Nodup
import Mathlib.Logic.Function.Basic

/-!
# Calling every subscriber

A signal calls its subscribers one after the other, and each call changes the
state of that subscriber only. When no subscriber is on the list twice the
order does not matter, and the outcome is the change applied once to each.
-/

namespace Lib

variable {α β : Type*} [DecidableEq α]

/-- Applies `f` at every key of the list, in order. -/
def broadcast (f : β → β) (keys : List α) (m : α → β) : α → β :=
  keys.foldl (fun m k => Function.update m k (f (m k))) m

@[simp] theorem broadcast_nil (f : β → β) (m : α → β) : broadcast f [] m = m := rfl

theorem broadcast_cons (f : β → β) (k : α) (keys : List α) (m : α → β) :
    broadcast f (k :: keys) m = broadcast f keys (Function.update m k (f (m k))) := rfl

theorem broadcast_of_notMem {f : β → β} {keys : List α} {m : α → β} {a : α}
    (h : a ∉ keys) : broadcast f keys m a = m a := by
  induction keys generalizing m with
  | nil => rfl
  | cons k keys ih =>
      rw [broadcast_cons, ih fun h' => h (List.mem_cons_of_mem k h'),
        Function.update_of_ne (List.ne_of_not_mem_cons h)]

theorem broadcast_of_mem {f : β → β} {keys : List α} {m : α → β} {a : α}
    (hnodup : keys.Nodup) (h : a ∈ keys) : broadcast f keys m a = f (m a) := by
  induction keys generalizing m with
  | nil => cases h
  | cons k keys ih =>
      obtain ⟨hk, hnodup⟩ := List.nodup_cons.mp hnodup
      rw [broadcast_cons]
      rcases List.mem_cons.mp h with rfl | h
      · rw [broadcast_of_notMem hk, Function.update_self]
      · rw [ih hnodup h, Function.update_of_ne (ne_of_mem_of_not_mem h hk)]

theorem broadcast_apply {f : β → β} {keys : List α} (m : α → β) (a : α)
    (hnodup : keys.Nodup) :
    broadcast f keys m a = if a ∈ keys then f (m a) else m a := by
  split
  · next h => exact broadcast_of_mem hnodup h
  · next h => exact broadcast_of_notMem h

/-- What every change keeps, the broadcast keeps, also with repetitions. -/
theorem broadcast_keeps {γ : Type*} {f : β → β} (view : β → γ)
    (hf : ∀ b, view (f b) = view b) (keys : List α) (m : α → β) (a : α) :
    view (broadcast f keys m a) = view (m a) := by
  induction keys generalizing m with
  | nil => rfl
  | cons k keys ih =>
      rw [broadcast_cons, ih]
      by_cases h : a = k
      · subst h
        rw [Function.update_self, hf]
      · rw [Function.update_of_ne h]

theorem broadcast_rel {γ : Type*} {R : β → γ → Prop} {f : β → β} {g : γ → γ}
    (hfg : ∀ b c, R b c → R (f b) (g c)) (keys : List α) {m : α → β} {n : α → γ} {a : α}
    (h : R (m a) (n a)) : R (broadcast f keys m a) (broadcast g keys n a) := by
  induction keys generalizing m n with
  | nil => exact h
  | cons k keys ih =>
      rw [broadcast_cons, broadcast_cons]
      refine ih ?_
      by_cases hk : a = k
      · subst hk
        rw [Function.update_self, Function.update_self]
        exact hfg _ _ h
      · rw [Function.update_of_ne hk, Function.update_of_ne hk]
        exact h

/-- Changes at two keys may be made in either order, and so may two changes at one key
that commute. -/
theorem update_swap {f g : β → β} {k a : α} (h : k = a → ∀ b, f (g b) = g (f b))
    (m : α → β) :
    Function.update (Function.update m a (g (m a))) k (f (Function.update m a (g (m a)) k)) =
      Function.update (Function.update m k (f (m k))) a
        (g (Function.update m k (f (m k)) a)) := by
  by_cases hk : k = a
  · subst hk
    simp only [Function.update_self, Function.update_idem, h rfl]
  · rw [Function.update_of_ne hk, Function.update_of_ne (Ne.symm hk),
      Function.update_comm (Ne.symm hk)]

/-- A change at one key may be made before or after, if the key is no subscriber or the
two changes commute. -/
theorem broadcast_update {f g : β → β} {keys : List α} {a : α}
    (h : a ∈ keys → ∀ b, f (g b) = g (f b)) (m : α → β) :
    broadcast f keys (Function.update m a (g (m a))) =
      Function.update (broadcast f keys m) a (g (broadcast f keys m a)) := by
  induction keys generalizing m with
  | nil => rfl
  | cons k keys ih =>
      have hswap := update_swap (f := f) (g := g) (k := k) (a := a)
        (fun hk => h (hk ▸ List.mem_cons_self)) m
      rw [broadcast_cons, hswap, ih fun hin => h (List.mem_cons_of_mem k hin)]
      rfl

end Lib
