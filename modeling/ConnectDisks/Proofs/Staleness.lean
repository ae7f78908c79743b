import ConnectDisks.Proofs.QueuePositions

/-!
# How stale a place gets

A sweep that leaves ten players or more tells them their places only if the size of
the queue has changed by ten. It compares with the size at the sweep before, which it
keeps whether or not it told anybody. So a queue that shrinks by less than ten from each
sweep to the next is not announced again while ten players are left in it, however far
it has moved in all, and neither is one that as many join as leave.

What goes wrong needs ten players to leave while every sweep finds the queue steady:
as long as that never happens, the places are fresh after every sweep.
-/

namespace ConnectDisks.Net

open ConnectDisks.Game Lib

namespace Server

/-- A sweep finds ten players or more, and their number within ten of the number the
sweep before found. -/
def Steady (s : Server) : Prop :=
  10 ≤ s.liveQueue.length ∧ s.liveQueue.length < s.lastQueueSize + 10 ∧
    s.lastQueueSize < s.liveQueue.length + 10

instance (s : Server) : Decidable s.Steady := by
  unfold Steady
  infer_instance

/-- Every sweep of the run on these events finds the queue steady. -/
def Overlooked (s : Server) (es : List ServerEvent) : Prop :=
  Meets step (fun s e => e = .queueTimer → s.Steady) s es

instance (s : Server) (es : List ServerEvent) : Decidable (s.Overlooked es) := by
  unfold Overlooked
  infer_instance

/-- The run on these events passes a moment at which `c` had the place it was told last,
and every sweep since has found the queue steady. -/
def LastTold (es : List ServerEvent) (s : Server) (c : ConnId) : Prop :=
  ∃ es₁ es₂ t i, es = es₁ ++ es₂ ∧ run step new es₁ = some t ∧ t.Overlooked es₂ ∧
    t.playerQueue[i]? = some c ∧ (s.places c).getLast? = some (UInt64.ofNat (i + 1))

theorem LastTold.concat {es : List ServerEvent} {s s' : Server} {c : ConnId}
    (h : LastTold es s c) (hrun : run step new es = some s) {e : ServerEvent}
    (hsteady : e = .queueTimer → s.Steady) (htold : s'.places c = s.places c) :
    LastTold (es ++ [e]) s' c := by
  obtain ⟨es₁, es₂, t, i, rfl, ht, hun, hi, hlast⟩ := h
  refine ⟨es₁, es₂ ++ [e], t, i, List.append_assoc .., ht, hun.concat ?_, hi, by rwa [htold]⟩
  intro u hu
  have hu' : run step new (es₁ ++ es₂) = some u := by
    rw [run_append, ht]
    exact hu
  obtain rfl := Option.some.inj (hrun.symm.trans hu')
  exact hsteady

/-- A connection is closed by its client. -/
def leaves (c : ConnId) : ServerEvent := .read c (.failed .eof) 1

end Server

end ConnectDisks.Net
