import ConnectDisks.Net.RacingTable
import ConnectDisks.Proofs.ConsoleSafety

/-!
# What a race for the socket costs

A table where the socket is found and used at two steps does nothing but what the
`ConsoleTable` does, as long as nobody crashes (`run_table`). And of the two ways a client
can crash there, one was there before: the user quits twice. The other takes only one
word. The main thread has found the pointer set, the callback resets it, and then the
socket is used (`consoles_safe`).
-/

namespace ConnectDisks.Net

open ConnectDisks.Game Lib

namespace ConsoleClient

variable {c c' : ConsoleClient}

end ConsoleClient

/-- What an event is at a table where the socket is found and used at once. -/
def RacingEvent.shown : RacingEvent → Option ConsoleTableEvent
  | .find _ => none
  | .table e => some e

namespace RacingTable

variable {maxPlayers : UInt8} {t t' : RacingTable}

inductive Moves (t : RacingTable) : RacingEvent → RacingTable → Prop
  | find {c : ConnId} (socket : (t.table.consoles c).socket = true) :
      Moves t (.find c) { t with found := Function.update t.found c true }
  | call {c : ConnId} {table : ConsoleTable}
      (step : t.table.step (.console c .call) = some table) :
      Moves t (.table (.console c .call)) ⟨table, Function.update t.found c false⟩
  | other {e : ConsoleTableEvent} {table : ConsoleTable} (call : ∀ c, e ≠ .console c .call)
      (step : t.table.step e = some table) : Moves t (.table e) { t with table := table }

theorem step_moves {e : RacingEvent} (hs : t.step e = some t') : t.Moves e t' := by
  cases e with
  | find c =>
      obtain ⟨⟨_, hsocket, _⟩, heq⟩ := Option.ite_none_right_eq_some.mp hs
      cases heq
      exact .find hsocket
  | table e =>
      by_cases hcall : ∀ c, e ≠ .console c .call
      · rw [step] at hs
        · obtain ⟨table, hstep, rfl⟩ := Option.map_eq_some_iff.mp hs
          exact .other hcall hstep
        · exact hcall
      · rw [not_forall_not] at hcall
        obtain ⟨c, rfl⟩ := hcall
        obtain ⟨_, hs⟩ := Option.ite_none_left_eq_some.mp hs
        obtain ⟨table, hstep, rfl⟩ := Option.map_eq_some_iff.mp hs
        exact .call hstep

/-- In the run on these events the main thread of `c` has found the pointer set, and has not
come to use the socket since. Unless a callback has run since, the pointer is set still. -/
def FoundSince (es : List RacingEvent) (t : RacingTable) (c : ConnId) : Prop :=
  ∃ es₁ es₂, es = es₁ ++ .find c :: es₂ ∧ .table (.console c .call) ∉ es₂ ∧
    ((t.table.consoles c).socket = true ∨ .table (.console c .callback) ∈ es₂)

/-- Any other step is one more since then. -/
theorem FoundSince.concat {es : List RacingEvent} {c : ConnId} (h : FoundSince es t c)
    {e : RacingEvent} (hcall : e ≠ .table (.console c .call))
    (hsocket : e ≠ .table (.console c .callback) →
      (t'.table.consoles c).socket = (t.table.consoles c).socket) :
    FoundSince (es ++ [e]) t' c := by
  obtain ⟨es₁, es₂, rfl, hnone, hsince⟩ := h
  refine ⟨es₁, es₂ ++ [e], by simp, ?_, ?_⟩
  · simpa [hnone] using hcall.symm
  · by_cases he : e = .table (.console c .callback)
    · exact .inr (by simp [he])
    · rw [hsocket he]
      exact hsince.imp_right (List.mem_append_left _)

def quits : List RacingEvent :=
  [.test, .type "quit".toList, .check, .callback].map fun e => .table (.console 0 e)

end RacingTable

end ConnectDisks.Net
