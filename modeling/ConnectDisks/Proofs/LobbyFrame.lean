import ConnectDisks.Proofs.ServerRooms

/-!
# What the lobbies leave alone

A lobby changes a connection through seven methods only: the three `addPlayer`
calls and the four handlers of the lobby's signals. So whatever these seven keep,
every method of a lobby and every completion keeps on all connections, except
for what the completion itself does to the connection it belongs to. That takes no
invariant: it holds for connections of the lobby, of another, or of none.
-/

namespace ConnectDisks.Net

open ConnectDisks.Game Lib

/-- A view of connections that no lobby changes. -/
structure LobbyKeeps {γ : Type*} (view : Connection → γ) : Prop where
  setId : ∀ c id, view (c.setId id) = view c
  setGameLobby : ∀ c l, view (c.setGameLobby l) = view c
  addHandlers : ∀ c l, view (c.addHandlers l) = view c
  onGameStart : ∀ c n game, view (c.onGameStart n game) = view c
  onGameEnd : ∀ c winner, view (c.onGameEnd winner) = view c
  onTurn : ∀ c playerId, view (c.onTurn playerId) = view c
  onUpdate : ∀ c playerId col result, view (c.onUpdate playerId col result) = view c

namespace LobbyKeeps

variable {γ : Type*} {view : Connection → γ} (h : LobbyKeeps view)
include h

/-! ## One lobby -/

theorem addPlayer (r : Room) (c d : ConnId) :
    view ((r.addPlayer c).conns d) = view (r.conns d) := by
  rw [Room.addPlayer]
  split
  · rfl
  · by_cases hd : d = c
    · subst hd
      simp only [Room.modify, Function.update_self]
      rw [h.addHandlers, h.setGameLobby, h.setId]
      split <;> rfl
    · simp only [Room.modify, Function.update_of_ne hd]
      split <;> rfl

theorem refilled (r : Room) (refill : Option ConnId) (d : ConnId) :
    view ((r.onLobbyAvailable refill).conns d) = view (r.conns d) := by
  cases refill with
  | none => rfl
  | some c => exact h.addPlayer r c d

theorem gameStarted (r : Room) (game : ValidGame) (d : ConnId) :
    view ((r.gameStarted game).conns d) = view (r.conns d) :=
  broadcast_keeps view (fun c => h.onGameStart c _ game) _ _ d

theorem gameEnded (r : Room) (winner : UInt8) (d : ConnId) :
    view ((r.gameEnded winner).conns d) = view (r.conns d) :=
  broadcast_keeps view (fun c => h.onGameEnd c winner) _ _ d

theorem takeTurn (r : Room) (playerId : UInt8) (d : ConnId) :
    view ((r.takeTurn playerId).conns d) = view (r.conns d) :=
  broadcast_keeps view (fun c => h.onTurn c playerId) _ _ d

theorem tookTurn (r : Room) (playerId column : UInt8) (result : TurnResult) (d : ConnId) :
    view ((r.tookTurn playerId column result).conns d) = view (r.conns d) :=
  broadcast_keeps view (fun c => h.onUpdate c playerId column result) _ _ d

theorem startGame (r : Room) (d : ConnId) :
    view (r.startGame.conns d) = view (r.conns d) := by
  rw [Room.startGame]
  split
  · simp only
    split
    · rfl
    · rw [h.takeTurn, h.gameStarted]
  · rfl

theorem onGameOver (r : Room) (d : ConnId) :
    view (r.onGameOver.conns d) = view (r.conns d) := by
  rw [Room.onGameOver]
  split
  · rfl
  · simp only
    split
    · exact h.gameEnded r _ d
    · exact h.gameEnded r _ d

theorem onDisconnect (r : Room) (c d : ConnId) :
    view ((r.onDisconnect c).1.conns d) = view (r.conns d) := by
  rw [Room.onDisconnect]
  split
  · rfl
  · simp only
    split
    · exact h.onGameOver _ d
    · rfl

theorem onReady (r : Room) (c : ConnId) (first : UInt8) (d : ConnId) :
    view ((r.onReady c first).conns d) = view (r.conns d) := by
  rw [Room.onReady]
  split
  · rfl
  · simp only
    split
    · exact h.startGame _ d
    · rfl

theorem onTakeTurn (r : Room) (c : ConnId) (column : UInt8) (d : ConnId) :
    view ((r.onTakeTurn c column).conns d) = view (r.conns d) := by
  rw [Room.onTakeTurn]
  split
  · exact h.tookTurn _ _ _ _ d
  · split
    · rfl
    · simp only
      split
      · rw [h.onGameOver, h.tookTurn]
      · split
        · rw [h.takeTurn, h.tookTurn]
        · rw [h.tookTurn]

theorem handle (r : Room) (c : ConnId) (first : UInt8) (signal : Signal) (d : ConnId) :
    view ((r.handle c first signal).1.conns d) = view (r.conns d) := by
  cases signal with
  | disconnected => exact h.onDisconnect r c d
  | readied => exact h.onReady r c first d
  | tookTurn column => exact h.onTakeTurn r c column d

/-! ## The server -/

theorem serverAddPlayer (s : Server) (l : LobbyId) (c d : ConnId) :
    view ((s.addPlayer l c).conns d) = view (s.conns d) := by
  rw [Server.addPlayer]
  split
  · rfl
  · next lobby _ => exact h.addPlayer (s.room lobby) c d

theorem onLobbyAvailable (s : Server) (l : LobbyId) (d : ConnId) :
    view ((s.onLobbyAvailable l).conns d) = view (s.conns d) := by
  rw [Server.onLobbyAvailable]
  split
  · rfl
  · exact h.serverAddPlayer s l _ d

theorem serverHandle (s : Server) (l : LobbyId) (c : ConnId) (first : UInt8)
    (signal : Signal) (d : ConnId) :
    view ((s.handle l c first signal).conns d) = view (s.conns d) := by
  rw [Server.handle]
  split
  · rfl
  · next lobby _ =>
      simp only
      split
      · rw [h.onLobbyAvailable]
        exact h.handle (s.room lobby) c first signal d
      · exact h.handle (s.room lobby) c first signal d

theorem dispatch (s : Server) (c : ConnId) (first : UInt8) (signal : Option Signal)
    (d : ConnId) : view ((s.dispatch c first signal).conns d) = view (s.conns d) := by
  cases signal with
  | none => rfl
  | some signal =>
      rw [Server.dispatch]
      generalize (s.conns c).handlers = ls
      induction ls generalizing s with
      | nil => rfl
      | cons l ls ih =>
          rw [List.foldl_cons, ih]
          exact h.serverHandle s l c first signal d

/-- A completion changes its own connection, and the handlers change nothing more. -/
theorem complete (s : Server) (c : ConnId) (outcome : Connection × Option Signal)
    (first : UInt8) (d : ConnId) :
    view ((s.complete c outcome first).conns d) =
      if d = c then view outcome.1 else view (s.conns d) := by
  rw [Server.complete, h.dispatch]
  split
  · next hd => rw [hd, Server.modify_conns_self]
  · next hd => rw [Server.modify_conns_of_ne s hd]

end LobbyKeeps

/-- `sendMessage` is all a lobby does to a connection besides its id, its lobby and
its readiness, so a view that does not look at these has to be kept by sending
what lobbies send. -/
theorem LobbyKeeps.of_sendMessage {γ : Type*} {view : Connection → γ}
    (hid : ∀ c id, view { c with id := id } = view c)
    (hlobby : ∀ c l, view { c with lobby := l } = view c)
    (hhandlers : ∀ c ls, view { c with handlers := ls } = view c)
    (hready : ∀ c b, view { c with clientIsReady := b } = view c)
    (hsend : ∀ c m, ¬ m.Housekeeping → view (c.sendMessage m) = view c) :
    LobbyKeeps view := by
  refine ⟨fun c id => ?_, fun c l => hlobby c _, fun c l => hhandlers c _,
    fun c n game => hsend c _ ?_, fun c winner => ?_, fun c playerId => ?_,
    fun c playerId col result => ?_⟩
  · rw [Connection.setId]
    split
    · rw [hsend _ _ (by simp [Message.Housekeeping]), hid]
    · rfl
  · simp [Message.Housekeeping]
  · rw [Connection.onGameEnd, Connection.sendWinner,
      hsend _ _ (by simp [Message.Housekeeping]), hready]
  · rw [Connection.onTurn]
    split
    · exact hsend _ _ (by simp [Message.Housekeeping])
    · rfl
  · rw [Connection.onUpdate]
    split
    · split
      · exact hsend _ _ (by simp [Message.Housekeeping])
      · rfl
    · exact hsend _ _ (by simp [Message.Housekeeping])

theorem lobbyKeeps_isAlive : LobbyKeeps Connection.isAlive := by
  refine .of_sendMessage (fun _ _ => rfl) (fun _ _ => rfl) (fun _ _ => rfl) (fun _ _ => rfl)
    fun c m _ => ?_
  rw [Connection.sendMessage]
  split <;> rfl

end ConnectDisks.Net
