import ConnectDisks.Proofs.Queue

/-!
# The queue cannot be overtaken

A newcomer is offered any lobby that is not full, and nobody looks at the queue
first. What keeps newcomers from passing the players that wait is that there is
no such lobby while somebody waits: a vacancy is filled from the queue in the event
that makes it. So the server is a waiting line, and its order is the order of
arrival.
-/

namespace ConnectDisks.Net

open ConnectDisks.Game Lib

namespace Server

/-- The server is a waiting line, as long as nobody waits while a lobby has room. -/
theorem QueueMoves.line {s s' : Server} {e : ServerEvent} (hm : s.QueueMoves e s')
    (hfull : s.playerQueue ≠ [] → s.AllFull) :
    s.line.Moves s'.line ∧ (s'.playerQueue ≠ [] → s'.AllFull) := by
  cases hm with
  | stays _ hline hkept _ =>
      refine ⟨hline ▸ .stay, fun hne => ?_⟩
      rw [queue_of_line hline] at hne
      rcases hkept with hkept | hnil
      · rw [AllFull, hkept]
        exact hfull hne
      · exact absurd hnil hne
  | seated hnew hvacancy hline _ =>
      have hnil : s.playerQueue = [] := by
        by_contra hne
        exact hvacancy (hfull hne)
      refine ⟨hline ▸ .serve hnew hnil, fun hne => ?_⟩
      rw [queue_of_line hline] at hne
      exact absurd hnil hne
  | queued hnew hall hline hkept _ _ =>
      refine ⟨hline ▸ .join hnew, fun _ => ?_⟩
      rw [AllFull, hkept]
      exact hall
  | swept hline hkept _ _ _ =>
      refine ⟨hline ▸ .leave _, fun hne => ?_⟩
      rw [AllFull, hkept]
      refine hfull fun hnil => hne ?_
      rw [queue_of_line hline, liveQueue, hnil]
      rfl
  | filled _ hfront hline hkept _ =>
      refine ⟨hline ▸ .next hfront, fun _ => ?_⟩
      rw [AllFull, hkept]
      exact hfull (by simp [hfront])

/-- Everybody the server has accepted and not lost waits or was placed. -/
theorem QueueMoves.waiting {s s' : Server} {e : ServerEvent} (hm : s.QueueMoves e s')
    (halive : ∀ c, (s'.conns c).isAlive = true → (s.conns c).isAlive = true)
    (h : ∀ c ∈ s.accepted, (s.conns c).isAlive = true → c ∈ s.playerQueue ∨ c ∈ s.placed) :
    ∀ c ∈ s'.accepted, (s'.conns c).isAlive = true → c ∈ s'.playerQueue ∨ c ∈ s'.placed := by
  intro d hd hd'
  have hold := fun hacc => h d hacc (halive d hd')
  have hlists : ∀ {l : WaitingLine ConnId}, s'.line = l →
      s'.accepted = l.arrived ∧ s'.playerQueue = l.queue ∧ s'.placed = l.served := fun heq =>
    ⟨congrArg WaitingLine.arrived heq, congrArg WaitingLine.queue heq,
      congrArg WaitingLine.served heq⟩
  cases hm with
  | stays _ hline _ _ =>
      obtain ⟨hacc, hqueue, hplaced⟩ := hlists hline
      rw [hacc] at hd
      rw [hqueue, hplaced]
      exact hold hd
  | seated _ _ hline _ =>
      obtain ⟨hacc, hqueue, hplaced⟩ := hlists hline
      rw [hacc] at hd
      rw [hqueue, hplaced]
      rcases List.mem_append.mp hd with hd | hd
      · exact (hold hd).imp_right (List.mem_append_left _)
      · exact .inr (List.mem_append_right _ hd)
  | queued _ _ hline _ _ _ =>
      obtain ⟨hacc, hqueue, hplaced⟩ := hlists hline
      rw [hacc] at hd
      rw [hqueue, hplaced]
      rcases List.mem_append.mp hd with hd | hd
      · exact (hold hd).imp_left (List.mem_append_left _)
      · exact .inl (List.mem_append_right _ hd)
  | swept hline _ _ _ _ =>
      obtain ⟨hacc, hqueue, hplaced⟩ := hlists hline
      rw [hacc] at hd
      rw [hqueue, hplaced]
      exact (hold hd).imp_left fun hin => List.mem_filter.mpr ⟨hin, halive d hd'⟩
  | filled _ hfront hline _ _ =>
      obtain ⟨hacc, hqueue, hplaced⟩ := hlists hline
      rw [hacc] at hd
      rw [hqueue, hplaced]
      rcases hold hd with hin | hin
      · rw [hfront] at hin
        rcases List.mem_cons.mp hin with rfl | hin
        · exact .inr (List.mem_append_right _ (List.mem_singleton_self d))
        · exact .inl hin
      · exact .inr (List.mem_append_left _ hin)

/-- The order in which the server serves. -/
structure InLine (s : Server) : Prop where
  inv : s.Inv
  orderly : s.line.Orderly
  full : s.playerQueue ≠ [] → s.AllFull
  waiting : ∀ c ∈ s.accepted, (s.conns c).isAlive = true → c ∈ s.playerQueue ∨ c ∈ s.placed

theorem reachable_inLine {s : Server} (hs : Reachable step new s) : s.InLine := by
  refine hs.invariant ⟨new_inv, WaitingLine.empty_orderly, ?_, ?_⟩ ?_
  · exact fun hne => absurd rfl hne
  · exact fun _ hc => by cases hc
  · intro s e s' h _ hstep
    have hm := step_queueMoves h.inv hstep
    obtain ⟨hline, hfull⟩ := hm.line h.full
    exact ⟨h.inv.moves (step_moves h.inv.rooms hstep), h.orderly.moves hline, hfull,
      hm.waiting (fun _ => step_alive hstep) h.waiting⟩

namespace InLine

variable {s : Server} (h : s.InLine)
include h

theorem slot_of_placed {c : ConnId} (hc : c ∈ s.placed) (halive : (s.conns c).isAlive = true) :
    ∃ l i, s.Holds c (.slot l i) := by
  obtain ⟨hacc, hnot⟩ := h.orderly.served c hc
  rcases h.inv.book.placed c hacc halive with hnone | hh | hq
  · cases hnone
  · obtain ⟨l, lobby, hl, hin⟩ := (h.inv.rooms.attached c).resolve_left hh
    obtain ⟨i, hi⟩ := (h.inv.rooms.inv hl).seats.alive c hin halive
    exact ⟨l, i, lobby, hl, hi⟩
  · exact absurd hq hnot

theorem placed_of_slot {c : ConnId} {l : LobbyId} {i : Nat} (hc : s.Holds c (.slot l i))
    (halive : (s.conns c).isAlive = true) : c ∈ s.placed := by
  obtain ⟨lobby, hl, hi⟩ := hc
  have hin := ((h.inv.rooms.inv hl).seats.seated i c hi).1
  have hacc : c ∈ s.accepted := by
    by_contra hnot
    have hnil := h.inv.rooms.handlers_eq hl hin
    rw [h.inv.book.unborn c hnot] at hnil
    cases hnil
  exact (h.waiting c hacc halive).resolve_left (h.inv.not_queued hl hin)

end InLine

/-- First come, first served. If `a` was accepted before `b` and is still alive, then
`b` was not placed before `a` was, whether or not `a` had to wait; those with a slot
are the players that were placed. And while anybody waits, all the lobbies there
may be exist and are full. -/
theorem served_in_order {s : Server} (hs : Reachable step new s) :
    (∀ a b, [a, b].Sublist s.accepted → (s.conns a).isAlive = true → b ∈ s.placed →
      [a, b].Sublist s.placed ∧ ∃ l i, s.Holds a (.slot l i)) ∧
    (∀ b l i, (s.conns b).isAlive = true → s.Holds b (.slot l i) → b ∈ s.placed) ∧
    (s.playerQueue ≠ [] →
      s.lobbies.length = maxLobbies ∧ ∀ lobby ∈ s.lobbies, lobby.isFull = true) := by
  have h := reachable_inLine hs
  refine ⟨fun a b hab halive hb => ?_, fun b l i halive hb => h.placed_of_slot hb halive,
    fun hne => ?_⟩
  · have hacc : a ∈ s.accepted := hab.subset (by simp)
    have hbefore : [a, b].Sublist s.placed :=
      h.orderly.before hab hb (h.waiting a hacc halive)
    exact ⟨hbefore, h.slot_of_placed (hbefore.subset (by simp)) halive⟩
  · obtain ⟨hlen, hall⟩ := List.eq_replicate_iff.mp (h.full hne)
    rw [fullness, List.length_map] at hlen
    exact ⟨hlen, fun lobby hin => hall _ (List.mem_map_of_mem hin)⟩

/-- Two players wait, and the first of them gets the slot that becomes free. -/
theorem served_in_order_vacancy :
    ∃ s, run step new (nineArrivals ++ [.accept false, .read 0 (.failed .eof) 0]) = some s ∧
      s.placed = List.range 9 ∧ s.playerQueue = [9] ∧
      (∀ a b, [a, b].Sublist s.accepted → (s.conns a).isAlive = true → b ∈ s.placed →
        [a, b].Sublist s.placed ∧ ∃ l i, s.Holds a (.slot l i)) ∧
      (∀ b l i, (s.conns b).isAlive = true → s.Holds b (.slot l i) → b ∈ s.placed) ∧
      (s.playerQueue ≠ [] →
        s.lobbies.length = maxLobbies ∧ ∀ lobby ∈ s.lobbies, lobby.isFull = true) := by
  have hrun : (run step new (nineArrivals ++ [.accept false, .read 0 (.failed .eof) 0])).any
      (fun s => decide (s.placed = List.range 9 ∧ s.playerQueue = [9])) = true := by
    decide +kernel
  obtain ⟨s, hrun, hs⟩ := (Option.any_eq_true ..).mp hrun
  obtain ⟨hplaced, hq⟩ := of_decide_eq_true hs
  exact ⟨s, hrun, hplaced, hq, served_in_order (.of_run hrun)⟩

end Server

end ConnectDisks.Net
