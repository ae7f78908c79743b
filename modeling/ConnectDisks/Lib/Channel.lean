import ConnectDisks.Lib.Run
import Mathlib.Logic.Function.Basic

/-!
# A sender and its channels

A system that sends to many receivers, over one channel to each that loses
nothing and keeps the order. `out s i` is everything the sender in state `s` has
sent to receiver `i` so far, and `delivered i` how much of it has arrived. The
sender takes its steps, and the channels deliver, in any order.

However the two are interleaved, a receiver is where handling the first
`delivered i` messages takes it (`Net.replayed`). So a statement about every
moment of every run comes down to one about the prefixes of what was sent.
-/

namespace Lib

/-- The sender, the receivers, and how far each channel has come. -/
structure Net (σ ι κ : Type*) where
  sender : σ
  receiver : ι → κ
  delivered : ι → Nat

inductive NetEvent (ε ι : Type*)
  | send (e : ε)
  | deliver (i : ι)
deriving DecidableEq

namespace Net

variable {σ ε ι κ μ : Type*}

def start (s₀ : σ) (k₀ : κ) : Net σ ι κ where
  sender := s₀
  receiver := fun _ => k₀
  delivered := fun _ => 0

/-- What has been sent to `i` and has not arrived. -/
def inFlight (out : σ → ι → List μ) (n : Net σ ι κ) (i : ι) : List μ :=
  (out n.sender i).drop (n.delivered i)

/-- What has arrived at `i`. -/
def arrived (out : σ → ι → List μ) (n : Net σ ι κ) (i : ι) : List μ :=
  (out n.sender i).take (n.delivered i)

/-- A condition on the sender's steps. -/
def When (ok : σ → ε → Prop) (n : Net σ ι κ) : NetEvent ε ι → Prop
  | .send e => ok n.sender e
  | .deliver _ => True

instance (ok : σ → ε → Prop) [∀ s e, Decidable (ok s e)] (n : Net σ ι κ)
    (e : NetEvent ε ι) : Decidable (When ok n e) := by
  cases e <;> unfold When <;> infer_instance

/-- Where every receiver is, in every state that is reached. -/
structure Replayed (send : σ → ε → Option σ) (ok : σ → ε → Prop) (out : σ → ι → List μ)
    (handle : κ → μ → Option κ) (s₀ : σ) (k₀ : κ) (n : Net σ ι κ) : Prop where
  sender : Reaches send ok s₀ n.sender
  delivered : ∀ i, n.delivered i ≤ (out n.sender i).length
  receiver : ∀ i, run handle k₀ (n.arrived out i) = some (n.receiver i)

variable {send : σ → ε → Option σ} {ok : σ → ε → Prop} {out : σ → ι → List μ}
  {handle : κ → μ → Option κ} {s₀ : σ} {k₀ : κ}

/-- Handling what is in flight as well takes the receiver through everything that
was sent. -/
theorem Replayed.inFlight {n : Net σ ι κ} (h : Replayed send ok out handle s₀ k₀ n) (i : ι) :
    run handle (n.receiver i) (n.inFlight out i) = run handle k₀ (out n.sender i) := by
  have hsplit : out n.sender i = n.arrived out i ++ n.inFlight out i :=
    (List.take_append_drop ..).symm
  rw [hsplit, run_append, h.receiver i]
  rfl

theorem arrived_next {n : Net σ ι κ} {i : ι} {m : μ} (hm : (n.inFlight out i).head? = some m) :
    n.arrived out i ++ [m] <+: out n.sender i := by
  obtain ⟨ms, hms⟩ := List.head?_eq_some_iff.mp hm
  refine ⟨ms, ?_⟩
  rw [List.append_assoc, List.singleton_append, ← hms]
  exact List.take_append_drop ..

variable [DecidableEq ι]

/-- A message that its receiver cannot handle is not delivered. -/
def step (send : σ → ε → Option σ) (out : σ → ι → List μ) (handle : κ → μ → Option κ)
    (n : Net σ ι κ) : NetEvent ε ι → Option (Net σ ι κ)
  | .send e => (send n.sender e).map fun s => { n with sender := s }
  | .deliver i =>
      (out n.sender i)[n.delivered i]?.bind fun m =>
        (handle (n.receiver i) m).map fun k =>
          { n with
            receiver := Function.update n.receiver i k
            delivered := Function.update n.delivered i (n.delivered i + 1) }

theorem replayed (hgrows : ∀ s e s', Reaches send ok s₀ s → ok s e → send s e = some s' →
      ∀ i, out s i <+: out s' i) {n : Net σ ι κ}
    (hn : Reaches (step send out handle) (When ok) (start s₀ k₀) n) :
    Replayed send ok out handle s₀ k₀ n := by
  refine hn.invariant ⟨.refl, fun i => Nat.zero_le _, fun i => rfl⟩ ?_
  intro n e n' h hok hs
  cases e with
  | send e =>
      obtain ⟨s', hs', rfl⟩ := Option.map_eq_some_iff.mp hs
      have hout := hgrows n.sender e s' h.sender hok hs'
      refine ⟨.step h.sender hok hs', fun i => ?_, fun i => ?_⟩
      · exact Nat.le_trans (h.delivered i) (hout i).length_le
      · obtain ⟨ms, hms⟩ := hout i
        have hrun := h.receiver i
        rw [arrived] at hrun ⊢
        show run handle k₀ ((out s' i).take (n.delivered i)) = some (n.receiver i)
        rw [← hms, List.take_append_of_le_length (h.delivered i)]
        exact hrun
  | deliver i =>
      obtain ⟨m, hm, hs⟩ := Option.bind_eq_some_iff.mp hs
      obtain ⟨k, hk, rfl⟩ := Option.map_eq_some_iff.mp hs
      obtain ⟨hlt, hget⟩ := List.getElem?_eq_some_iff.mp hm
      refine ⟨h.sender, fun j => ?_, fun j => ?_⟩
      · show Function.update n.delivered i (n.delivered i + 1) j ≤ (out n.sender j).length
        by_cases hj : j = i
        · subst hj
          rw [Function.update_self]
          exact hlt
        · rw [Function.update_of_ne hj]
          exact h.delivered j
      · by_cases hj : j = i
        · subst hj
          have hrun := h.receiver j
          simp only [arrived, Function.update_self] at hrun ⊢
          rw [List.take_succ_eq_append_getElem hlt, run_append, hrun, hget]
          exact (run_singleton handle _ m).trans hk
        · have hrun := h.receiver j
          simp only [arrived, Function.update_of_ne hj] at hrun ⊢
          exact hrun

end Net

end Lib
