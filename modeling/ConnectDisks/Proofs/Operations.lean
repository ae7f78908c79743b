import ConnectDisks.Proofs.Dialogue
import ConnectDisks.Proofs.Queue

/-!
# What is left with Asio

Two reads on one socket could each get a part of a message, and a timer that is started
again gives up the wait that was outstanding. So there should be one operation of each
kind on a connection, and there is: a completion starts at most the operation it is the
completion of, and an accept starts the first ones (`one_operation_each`).

There is no more than one, but there may be none. After a read that ends with an empty
message, or with an error `onReadSocket` does not know, nobody reads from the connection any
more, and the connection is not dropped either. The ping timer is given up with any error.
As long as nothing of the kind happens to a connection that is alive (`Undisturbed`), it is
read from and pinged.
-/

namespace ConnectDisks.Net

open ConnectDisks.Game Lib

/-! ## One connection -/

/-- A read ends with a message, or with an error that drops the connection. -/
def ReadResult.Conclusive : ReadResult → Prop
  | .message _ => True
  | .empty => False
  | .failed .unknown => False
  | .failed _ => True

instance (result : ReadResult) : Decidable result.Conclusive := by
  unfold ReadResult.Conclusive
  split <;> infer_instance

namespace Connection

/-- Whether the connection is alive, and the operations that are outstanding. -/
def operations (c : Connection) : Bool × Nat × Nat := (c.isAlive, c.reads, c.waits)

theorem sendMessage_operations (c : Connection) (m : Message) :
    (c.sendMessage m).operations = c.operations := by
  rw [sendMessage]
  split <;> rfl

theorem waitForMessages_operations (c : Connection) :
    c.waitForMessages.operations =
      (c.isAlive, if c.isAlive then c.reads + 1 else c.reads, c.waits) := by
  rw [waitForMessages, isAlive]
  cases hconn : c.clientIsConnected <;> simp [operations, isAlive, hconn]

/-- A read is followed by another one if it brought a message and the connection is alive,
and by the end of the connection if it failed in a way that is known. -/
theorem onReadSocket_operations (c : Connection) (result : ReadResult) :
    (c.onReadSocket result).1.operations =
      match result with
      | .message _ => (c.isAlive, if c.isAlive then c.reads + 1 else c.reads, c.waits)
      | .empty => c.operations
      | .failed .unknown => c.operations
      | .failed _ => (false, c.reads, c.waits) := by
  have hdrop : c.handleDisconnect.1.operations = (false, c.reads, c.waits) := by
    rw [handleDisconnect]
    cases hconn : c.clientIsConnected <;> simp [operations, isAlive, hconn]
  cases result with
  | message m =>
      rw [onReadSocket]
      split
      · dsimp only
        split
        · exact waitForMessages_operations { c with clientIsReady := true }
        · exact waitForMessages_operations c
      · dsimp only
        split <;> exact waitForMessages_operations c
      · exact waitForMessages_operations { c with receivedPong := true }
      · exact waitForMessages_operations c
  | empty => rfl
  | failed error =>
      cases error with
      | eof => exact hdrop
      | connectionAborted => exact hdrop
      | connectionReset => exact hdrop
      | unknown => rfl

/-- A tick of the ping timer is followed by another one as long as the connection is
alive, unless it ends with an error. -/
theorem pingOnTimer_operations (c : Connection) (error : Bool) :
    (c.pingOnTimer error).1.operations =
      ((c.pingOnTimer error).1.isAlive, c.reads,
        if error = false ∧ (c.pingOnTimer error).1.isAlive = true then c.waits + 1
        else c.waits) := by
  have hping : ∀ d : Connection, d.isAlive = true →
      d.sendPing.startTimer.operations = (d.sendPing.startTimer.isAlive, d.reads, d.waits + 1) ∧
        d.sendPing.startTimer.isAlive = true := by
    intro d hd
    rw [sendPing, sendMessage_of_alive (by exact hd)]
    exact ⟨rfl, hd⟩
  cases error with
  | true => rfl
  | false =>
      cases hconn : c.clientIsConnected with
      | false =>
          rw [pingOnTimer, if_neg (by decide), hconn]
          simp [operations, isAlive, hconn]
      | true =>
          rw [pingOnTimer, if_neg (by decide), if_pos hconn]
          split
          · obtain ⟨hops, halive⟩ := hping { c with missedPongs := 0 } hconn
            rw [hops, if_pos ⟨rfl, halive⟩]
          · dsimp only
            split
            · rw [handleDisconnect, if_pos hconn]
              rfl
            · obtain ⟨hops, halive⟩ := hping { c with missedPongs := c.missedPongs + 1 } hconn
              rw [hops, if_pos ⟨rfl, halive⟩]

theorem onAccept_operations {c : Connection} (h : c.isAlive = true) :
    c.onAccept.operations = (true, c.reads + 1, c.waits + 1) := by
  rw [isAlive] at h
  rw [onAccept, waitForMessages, if_neg (by simp [h]), startPings, sendPing,
    sendMessage_of_alive (by exact h)]
  simp [startTimer, operations, isAlive, h]

end Connection

theorem lobbyKeeps_operations : LobbyKeeps Connection.operations :=
  .of_sendMessage (fun _ _ => rfl) (fun _ _ => rfl) (fun _ _ => rfl) (fun _ _ => rfl)
    fun c m _ => c.sendMessage_operations m

namespace Connection

/-- One operation of each kind at most. -/
def Few (c : Connection) : Prop := c.reads ≤ 1 ∧ c.waits ≤ 1

/-- While the connection is alive it has one of each. -/
def Tended (c : Connection) : Prop := c.isAlive = true → c.reads = 1 ∧ c.waits = 1

variable {c c' : Connection}

theorem operations_eq_iff {alive : Bool} {reads waits : Nat} :
    c.operations = (alive, reads, waits) ↔
      c.isAlive = alive ∧ c.reads = reads ∧ c.waits = waits := by
  rw [operations, Prod.mk.injEq, Prod.mk.injEq]

theorem Few.congr (h : c.Few) (hops : c'.operations = c.operations) : c'.Few := by
  obtain ⟨_, hreads, hwaits⟩ := operations_eq_iff.mp hops
  rwa [Few, hreads, hwaits]

theorem Tended.congr (h : c.Tended) (hops : c'.operations = c.operations) : c'.Tended := by
  obtain ⟨halive, hreads, hwaits⟩ := operations_eq_iff.mp hops
  rwa [Tended, halive, hreads, hwaits]

theorem onAccept_few : create.onAccept.Few ∧ create.onAccept.Tended := by
  obtain ⟨_, hreads, hwaits⟩ := operations_eq_iff.mp (onAccept_operations (c := create) rfl)
  rw [Few, Tended, hreads, hwaits]
  exact ⟨by decide, fun _ => by decide⟩

/-- What the completion of a read leaves. -/
def afterRead (c : Connection) (result : ReadResult) : Connection :=
  (onReadSocket { c with reads := c.reads - 1 } result).1

theorem Few.afterRead (h : c.Few) (hreads : 0 < c.reads) (result : ReadResult) :
    (c.afterRead result).Few := by
  obtain ⟨hfew, hwaits⟩ := h
  have hops := onReadSocket_operations { c with reads := c.reads - 1 } result
  rw [Few, Connection.afterRead]
  split at hops <;> obtain ⟨_, hr, hw⟩ := operations_eq_iff.mp hops <;> rw [hr, hw]
  · refine ⟨?_, hwaits⟩
    split <;> dsimp only <;> omega
  all_goals exact ⟨by dsimp only; omega, hwaits⟩

theorem Tended.afterRead (h : c.Tended) {result : ReadResult}
    (hresult : c.isAlive = true → result.Conclusive) : (c.afterRead result).Tended := by
  have hops := onReadSocket_operations { c with reads := c.reads - 1 } result
  intro halive
  have hbefore : c.isAlive = true → c.reads = 1 ∧ c.waits = 1 := h
  rw [Connection.afterRead] at halive ⊢
  split at hops <;> obtain ⟨ha, hr, hw⟩ := operations_eq_iff.mp hops <;> rw [ha] at halive
  · obtain ⟨hreads, hwaits⟩ := hbefore halive
    have hone : c.reads - 1 + 1 = 1 := by omega
    rw [hr, hw, if_pos halive]
    exact ⟨hone, hwaits⟩
  · exact (hresult halive).elim
  · exact (hresult halive).elim
  · cases halive

/-- What the completion of a wait leaves. -/
def afterTick (c : Connection) (error : Bool) : Connection :=
  (pingOnTimer { c with waits := c.waits - 1 } error).1

theorem Few.afterTick (h : c.Few) (hwaits : 0 < c.waits) (error : Bool) :
    (c.afterTick error).Few := by
  obtain ⟨hreads, hfew⟩ := h
  have hops := pingOnTimer_operations { c with waits := c.waits - 1 } error
  obtain ⟨_, hr, hw⟩ := operations_eq_iff.mp hops
  rw [Few, Connection.afterTick, hr, hw]
  refine ⟨hreads, ?_⟩
  split <;> dsimp only <;> omega

theorem Tended.afterTick (h : c.Tended) {error : Bool}
    (herror : c.isAlive = true → error = false) : (c.afterTick error).Tended := by
  have hops := pingOnTimer_operations { c with waits := c.waits - 1 } error
  obtain ⟨_, hr, hw⟩ := operations_eq_iff.mp hops
  intro halive
  have hbefore : c.isAlive = true := by
    have hout := (pingOnTimer_outcome { c with waits := c.waits - 1 } error).of_idles
      (waits_idles c (c.waits - 1))
    exact hout.keepsSeat.isAlive halive
  obtain ⟨hreads, hwaits⟩ := h hbefore
  rw [Connection.afterTick] at halive ⊢
  rw [hr, hw, if_pos ⟨herror hbefore, halive⟩]
  exact ⟨hreads, by dsimp only; omega⟩

end Connection

/-! ## Runs of the server -/

namespace Server

/-- What an event makes of a connection, apart from what a lobby or the queue does. -/
def alone (s : Server) (d : ConnId) : ServerEvent → Connection
  | .accept failed =>
      if failed = false ∧ s.accepting.head? = some d then (s.conns d).onAccept else s.conns d
  | .read c result _ => if d = c then (s.conns c).afterRead result else s.conns d
  | .pingTimer c error => if d = c then (s.conns c).afterTick error else s.conns d
  | .queueTimer => s.conns d

theorem notifyFrom_operations (conns : ConnId → Connection) (pos : Nat) (queue : List ConnId)
    (d : ConnId) : (notifyFrom conns pos queue d).operations = (conns d).operations := by
  induction queue generalizing conns pos with
  | nil => rfl
  | cons player rest ih =>
      rw [notifyFrom, ih]
      by_cases hd : d = player
      · rw [hd, Function.update_self]
        exact Connection.sendMessage_operations _ _
      · rw [Function.update_of_ne hd]

theorem welcomed_operations (s : Server) (c d : ConnId) :
    ((s.welcomed c).conns d).operations =
      (if d = c then (s.conns c).onAccept else s.conns d).operations := by
  split
  · next hd => rw [hd, welcomed, modify_conns_self]
  · next hd => rw [welcomed, modify_conns_of_ne s hd]

theorem onConnectionAccepted_operations (s : Server) (c d : ConnId) :
    ((s.onConnectionAccepted c false).conns d).operations =
      (if d = c then (s.conns c).onAccept else s.conns d).operations := by
  refine Eq.trans ?_ (s.welcomed_operations c d)
  rcases onConnectionAccepted_cases s c with
    ⟨l, _, _, _, heq⟩ | ⟨_, _, heq⟩ | ⟨_, _, heq⟩ <;> rw [heq]
  · exact lobbyKeeps_operations.serverAddPlayer _ l c d
  · exact lobbyKeeps_operations.serverAddPlayer _ _ c d
  · exact modify_view (s := { s.welcomed c with playerQueue := s.playerQueue ++ [c] })
      (f := fun conn => conn.notifyQueuePosition _) Connection.operations
      (Connection.sendMessage_operations _ _) d

theorem onConnectionAccepted_accepted (s : Server) (c : ConnId) :
    (s.onConnectionAccepted c false).accepted = s.accepted ++ [c] := by
  have hadd : ∀ (t : Server) (l : LobbyId), (t.addPlayer l c).accepted = t.accepted := by
    intro t l
    rw [addPlayer]
    split <;> rfl
  rcases onConnectionAccepted_cases s c with
    ⟨l, _, _, _, heq⟩ | ⟨_, _, heq⟩ | ⟨_, _, heq⟩ <;> rw [heq]
  · exact hadd _ l
  · exact hadd _ _
  · rfl

theorem step_operations {s s' : Server} {e : ServerEvent} (hs : s.step e = some s')
    (d : ConnId) : (s'.conns d).operations = (s.alone d e).operations := by
  cases e with
  | accept failed =>
      obtain ⟨c, rest, hnext, rfl⟩ := step_accept hs
      rw [alone, hnext, List.head?_cons]
      cases failed with
      | true => rfl
      | false =>
          rw [onConnectionAccepted_operations]
          by_cases hd : d = c
          · subst hd
            rw [if_pos rfl, if_pos ⟨rfl, rfl⟩]
          · rw [if_neg hd, if_neg]
            exact fun h => hd (Option.some.inj h.2).symm
  | read c result first =>
      obtain ⟨_, heq⟩ := Option.ite_none_right_eq_some.mp hs
      rw [← Option.some.inj heq, lobbyKeeps_operations.complete, alone]
      split <;> rfl
  | pingTimer c error =>
      obtain ⟨_, heq⟩ := Option.ite_none_right_eq_some.mp hs
      rw [← Option.some.inj heq, lobbyKeeps_operations.complete, alone]
      split <;> rfl
  | queueTimer =>
      obtain ⟨_, heq⟩ := Option.ite_none_right_eq_some.mp hs
      rw [← Option.some.inj heq, alone]
      rcases updateQueuePositions_conns { s with timers := s.timers - 1 } with hc | hc <;> rw [hc]
      exact notifyFrom_operations _ _ _ d

theorem QueueMoves.accepted_eq {s s' : Server} {e : ServerEvent} (hm : s.QueueMoves e s')
    (he : e ≠ .accept false) : s'.accepted = s.accepted := by
  cases hm with
  | stays _ hline _ _ => exact accepted_of_line hline
  | seated _ _ _ _ => exact absurd rfl he
  | queued _ _ _ _ _ _ => exact absurd rfl he
  | swept hline _ _ _ _ => exact accepted_of_line hline
  | filled _ _ hline _ _ => exact accepted_of_line hline

theorem step_accepted {s s' : Server} {e : ServerEvent} (h : s.Inv)
    (hs : s.step e = some s') {d : ConnId} (hd : d ∈ s'.accepted) :
    d ∈ s.accepted ∨ e = .accept false ∧ s.accepting.head? = some d := by
  cases e with
  | accept failed =>
      obtain ⟨c, rest, hnext, rfl⟩ := step_accept hs
      rw [hnext]
      cases failed with
      | true => exact .inl hd
      | false =>
          rw [onConnectionAccepted_accepted] at hd
          exact (List.mem_append.mp hd).imp_right fun hin => ⟨rfl, by
            rw [List.mem_singleton.mp hin]; rfl⟩
  | read c result first => exact .inl ((step_queueMoves h hs).accepted_eq (by rintro ⟨⟩) ▸ hd)
  | pingTimer c error => exact .inl ((step_queueMoves h hs).accepted_eq (by rintro ⟨⟩) ▸ hd)
  | queueTimer => exact .inl ((step_queueMoves h hs).accepted_eq (by rintro ⟨⟩) ▸ hd)

theorem Inv.next_create {s : Server} (h : s.Inv) {c : ConnId}
    (hnext : s.accepting.head? = some c) : s.conns c = Connection.create := by
  obtain ⟨rest, hrest⟩ := List.head?_eq_some_iff.mp hnext
  exact h.book.unborn c (h.book.next_new hrest)

theorem few_step {s s' : Server} {e : ServerEvent} (hinv : s.Inv)
    (h : ∀ c, (s.conns c).Few) (hs : s.step e = some s') (d : ConnId) : (s'.conns d).Few := by
  refine Connection.Few.congr ?_ (step_operations hs d)
  cases e with
  | accept failed =>
      rw [alone]
      split
      · next hnext =>
          rw [hinv.next_create hnext.2]
          exact Connection.onAccept_few.1
      · exact h d
  | read c result first =>
      obtain ⟨hreads, _⟩ := Option.ite_none_right_eq_some.mp hs
      rw [alone]
      split
      · exact (h c).afterRead hreads result
      · exact h d
  | pingTimer c error =>
      obtain ⟨hwaits, _⟩ := Option.ite_none_right_eq_some.mp hs
      rw [alone]
      split
      · exact (h c).afterTick hwaits error
      · exact h d
  | queueTimer => exact h d

/-- No read and no wait of a connection that is alive ends for nothing. -/
def Undisturbed (s : Server) : ServerEvent → Prop
  | .read c result _ => (s.conns c).isAlive = true → result.Conclusive
  | .pingTimer c error => (s.conns c).isAlive = true → error = false
  | _ => True

instance (s : Server) (e : ServerEvent) : Decidable (s.Undisturbed e) := by
  cases e <;> unfold Undisturbed <;> infer_instance

theorem tended_step {s s' : Server} {e : ServerEvent} (hinv : s.Inv)
    (h : ∀ c ∈ s.accepted, (s.conns c).Tended) (hok : s.Undisturbed e)
    (hs : s.step e = some s') {d : ConnId} (hd : d ∈ s'.accepted) : (s'.conns d).Tended := by
  refine Connection.Tended.congr ?_ (step_operations hs d)
  have hd' := step_accepted hinv hs hd
  cases e with
  | accept failed =>
      rw [alone]
      split
      · next hnext =>
          rw [hinv.next_create hnext.2]
          exact Connection.onAccept_few.2
      · next hnot =>
          refine h d (hd'.resolve_right fun hnew => hnot ⟨?_, hnew.2⟩)
          exact ServerEvent.accept.inj hnew.1
  | read c result first =>
      have hin := hd'.resolve_right (by rintro ⟨⟨⟩, _⟩)
      rw [alone]
      split
      · next heq => exact (h c (heq ▸ hin)).afterRead hok
      · exact h d hin
  | pingTimer c error =>
      have hin := hd'.resolve_right (by rintro ⟨⟨⟩, _⟩)
      rw [alone]
      split
      · next heq => exact (h c (heq ▸ hin)).afterTick hok
      · exact h d hin
  | queueTimer => exact h d (hd'.resolve_right (by rintro ⟨⟨⟩, _⟩))

/-- At any moment of any run of the server, no connection has two reads outstanding or two
waits for its ping timer. If no read and no wait of a connection that was alive ended for
nothing so far, every connection that was accepted and is alive has one of each. -/
theorem one_operation_each {s : Server} {es : List ServerEvent}
    (hrun : run step new es = some s) :
    (∀ c, (s.conns c).reads ≤ 1 ∧ (s.conns c).waits ≤ 1) ∧
    (Meets step Undisturbed new es → ∀ c ∈ s.accepted, (s.conns c).isAlive = true →
      (s.conns c).reads = 1 ∧ (s.conns c).waits = 1) := by
  have hinv : ∀ {s s' : Server} {e : ServerEvent}, s.Inv → s.step e = some s' → s'.Inv :=
    fun h hs => h.moves (step_moves h.rooms hs)
  constructor
  · have hall := (Reachable.of_run hrun).invariant (I := fun s => s.Inv ∧ ∀ c, (s.conns c).Few)
      ⟨new_inv, fun _ => ⟨Nat.zero_le _, Nat.zero_le _⟩⟩
      fun _ _ _ h _ hs => ⟨hinv h.1 hs, few_step h.1 h.2 hs⟩
    exact hall.2
  · intro hmeets
    have hreach : Reaches step Undisturbed new s := Reaches.run .refl hmeets hrun
    have hall := hreach.invariant (I := fun s => s.Inv ∧ ∀ c ∈ s.accepted, (s.conns c).Tended)
      ⟨new_inv, fun _ hc => by cases hc⟩
      fun _ _ _ h hok hs => ⟨hinv h.1 hs, fun _ hd => tended_step h.1 h.2 hok hs hd⟩
    exact hall.2

/-- Two clients are accepted. The first answers its ping, the second goes away. -/
def answersPing : List ServerEvent :=
  [.accept false, .accept false, .read 0 (.message .pong) 1, .pingTimer 0 false,
    .read 1 (.failed .eof) 1]

theorem one_operation_each_ping : ∃ s, run step new answersPing = some s ∧
    s.accepted = [0, 1] ∧ (s.conns 0).isAlive = true ∧
    (s.conns 0).reads = 1 ∧ (s.conns 0).waits = 1 ∧ (s.conns 1).reads ≤ 1 := by
  have hrun : (run step new answersPing).any (fun s =>
      decide (s.accepted = [0, 1] ∧ (s.conns 0).isAlive = true)) = true := by
    decide +kernel
  obtain ⟨s, hs, hn⟩ := (Option.any_eq_true ..).mp hrun
  obtain ⟨haccepted, halive⟩ := of_decide_eq_true hn
  obtain ⟨hfew, htended⟩ := one_operation_each hs
  obtain ⟨hreads, hwaits⟩ := htended (by decide +kernel) 0 (by rw [haccepted]; decide) halive
  exact ⟨s, hs, haccepted, halive, hreads, hwaits, (hfew 1).1⟩

end Server

/-! ## One lobby that is read to -/

namespace Connection

/-- While the connection is alive it is read from. -/
def Served (c : Connection) : Prop := c.isAlive = true → 0 < c.reads

instance (c : Connection) : Decidable c.Served := by
  unfold Served
  infer_instance

variable {c c' : Connection}

theorem Served.congr (h : c.Served) (hops : c'.operations = c.operations) : c'.Served := by
  obtain ⟨halive, hreads, _⟩ := operations_eq_iff.mp hops
  rwa [Served, halive, hreads]

theorem afterRead_served {result : ReadResult}
    (hresult : c.isAlive = true → result.Conclusive) : (c.afterRead result).Served := by
  have hops := onReadSocket_operations { c with reads := c.reads - 1 } result
  intro halive
  rw [afterRead] at halive ⊢
  split at hops <;> obtain ⟨ha, hr, _⟩ := operations_eq_iff.mp hops <;> rw [ha] at halive
  · rw [hr, if_pos halive]
    exact Nat.succ_pos _
  · exact (hresult halive).elim
  · exact (hresult halive).elim
  · cases halive

theorem Served.afterTick (h : c.Served) (error : Bool) : (c.afterTick error).Served := by
  have hops := pingOnTimer_operations { c with waits := c.waits - 1 } error
  obtain ⟨_, hr, _⟩ := operations_eq_iff.mp hops
  intro halive
  have hout := (pingOnTimer_outcome { c with waits := c.waits - 1 } error).of_idles
    (waits_idles c (c.waits - 1))
  rw [Connection.afterTick, hr]
  exact h (hout.keepsSeat.isAlive halive)

end Connection

namespace Room

/-- What an event makes of a connection, apart from what the lobby does. -/
def alone (r : Room) (d : ConnId) : RoomEvent → Connection
  | .accept c => if d = c then (r.conns c).onAccept else r.conns d
  | .read c result _ _ => if d = c then (r.conns c).afterRead result else r.conns d
  | .tick c error _ => if d = c then (r.conns c).afterTick error else r.conns d
  | _ => r.conns d

theorem modify_operations {r : Room} {c d : ConnId} {f : Connection → Connection} :
    ((r.modify c f).conns d).operations =
      (if d = c then f (r.conns c) else r.conns d).operations := by
  split
  · next hd => rw [hd, modify_conns_self]
  · next hd => rw [modify_conns_of_ne r hd]

theorem step_operations {r r' : Room} {e : RoomEvent} (h : r.Inv) (hs : r.step e = some r')
    (d : ConnId) : (r'.conns d).operations = (r.alone d e).operations := by
  cases e with
  | accept c =>
      obtain ⟨_, heq⟩ := Option.ite_none_right_eq_some.mp hs
      rw [← Option.some.inj heq]
      exact modify_operations
  | notify c position =>
      obtain ⟨_, heq⟩ := Option.ite_none_right_eq_some.mp hs
      rw [← Option.some.inj heq, modify_operations]
      split
      · next hd =>
          rw [Connection.notifyQueuePosition, Connection.sendMessage_operations, ← hd]
          rfl
      · rfl
  | join c =>
      obtain ⟨_, heq⟩ := Option.ite_none_right_eq_some.mp hs
      rw [← Option.some.inj heq]
      exact lobbyKeeps_operations.addPlayer r c d
  | read c result first refill =>
      obtain ⟨_, heq⟩ := Option.ite_none_right_eq_some.mp hs
      rw [← Option.some.inj heq]
      have hout := (Connection.onReadSocket_outcome _ result).of_idles
        (Connection.reads_idles (r.conns c) ((r.conns c).reads - 1))
      exact (lobbyKeeps_operations.roomComplete h.seats hout.keepsSeat first refill d).trans
        modify_operations
  | tick c error refill =>
      obtain ⟨_, heq⟩ := Option.ite_none_right_eq_some.mp hs
      rw [← Option.some.inj heq]
      have hout := (Connection.pingOnTimer_outcome _ error).of_idles
        (Connection.waits_idles (r.conns c) ((r.conns c).waits - 1))
      exact (lobbyKeeps_operations.roomComplete h.seats hout.keepsSeat 0 refill d).trans
        modify_operations

theorem Moves.attached {r r' : Room} {e : RoomEvent} (h : r.Inv) (hm : r.Moves e r')
    {d : ConnId} (hd : d ∈ r'.lobby.handlers) : d ∈ r.lobby.handlers ∨ d ∈ e.joins := by
  have hadmitted : ∀ {s : Room} {c : ConnId} {i : Nat},
      d ∈ (s.admitted c i).lobby.handlers → d ∈ s.lobby.handlers ∨ d = c := fun hin =>
    (List.mem_append.mp hin).imp_right List.mem_singleton.mp
  cases hm with
  | idle _ _ _ => exact .inl hd
  | outside _ _ _ _ => exact .inl hd
  | @join c _ =>
      rcases addPlayer_cases h.seats c with ⟨_, heq⟩ | ⟨_, i, _, _, heq⟩ <;> rw [heq] at hd
      · exact .inl hd
      · exact (hadmitted hd).imp_right fun heq => congrArg some heq.symm
  | ready _ hi _ _ =>
      rw [(onReady_within (h.modify (ready_wanders hi).seat).seats _ _).handlers] at hd
      exact .inl hd
  | turn _ hi _ _ _ =>
      rw [(onTakeTurn_within (h.modify hi.keepsSeat).playing _ _).handlers] at hd
      exact .inl hd
  | @drop _ c conn i refill hc _ hi _ _ hjoins =>
      have hleft := (left_within (r.modify c fun _ => conn.dropped) c i).handlers
      rcases onLobbyAvailable_cases (h.dropped hc hi).seats refill with
        heq | ⟨c', i', hc', _, _, heq⟩
      · rw [heq, hleft] at hd
        exact .inl hd
      · rw [heq] at hd
        refine (hadmitted hd).imp (fun hin => ?_) fun heq => ?_
        · rw [hleft] at hin
          exact hin
        · rw [hjoins, hc', heq]
          rfl

/-- Only connections that are read from are added, and no read of a connection that is
alive ends for nothing. -/
def Attends (r : Room) (e : RoomEvent) : Prop :=
  (∀ d ∈ e.joins, (r.conns d).Served) ∧
    match e with
    | .read c result _ _ => (r.conns c).isAlive = true → result.Conclusive
    | _ => True

instance (r : Room) (e : RoomEvent) : Decidable (r.Attends e) := by
  cases e <;> unfold Attends <;> infer_instance

/-- Every player is read from. -/
def Attended (r : Room) : Prop := ∀ c ∈ r.lobby.handlers, (r.conns c).Served

theorem Attended.step {r r' : Room} {e : RoomEvent} (h : r.Attended) (hinv : r.Inv)
    (hok : r.Attends e) (hs : r.step e = some r') : r'.Attended := by
  intro d hd
  refine Connection.Served.congr ?_ (step_operations hinv hs d)
  have hserved : (r.conns d).Served :=
    ((step_moves hinv hs).attached hinv hd).elim (h d) (hok.1 d)
  cases e with
  | accept c =>
      rw [alone]
      split
      · obtain ⟨heq, _⟩ := Option.ite_none_right_eq_some.mp hs
        rw [heq]
        intro _
        have hreads := (Connection.operations_eq_iff.mp
          (Connection.onAccept_operations (c := Connection.create) rfl)).2.1
        rw [hreads]
        exact Nat.succ_pos _
      · exact hserved
  | notify c position => exact hserved
  | join c => exact hserved
  | read c result first refill =>
      rw [alone]
      split
      · exact Connection.afterRead_served hok.2
      · exact hserved
  | tick c error refill =>
      rw [alone]
      split
      · next heq => exact Connection.Served.afterTick (heq ▸ hserved) error
      · exact hserved

end Room

end ConnectDisks.Net
