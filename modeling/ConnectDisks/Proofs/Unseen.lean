import ConnectDisks.Proofs.Queue

/-!
# Changes the lobbies do not see

A lobby asks a connection for its id, for its readiness and whether it is alive. So a
connection may be changed in any other field before a method of a lobby or after it,
with the same outcome (`Invisible`). The readiness is asked of the occupants only, and
taken back at the end of a game only from those that joined. So for a connection that
is not in the lobby it may be changed as well (`Hidden`), and `addPlayer` never looks.

Each method gets one lemma, which says that the change commutes with it.
-/

namespace ConnectDisks.Net

open ConnectDisks.Game Lib

namespace Connection

/-- A change of fields no lobby looks at, save perhaps the readiness. -/
structure Hidden (f : Connection → Connection) : Prop where
  id : ∀ c, (f c).id = c.id
  isAlive : ∀ c, (f c).isAlive = c.isAlive
  handlers : ∀ c, (f c).handlers = c.handlers
  withId : ∀ c id, f { c with id := id } = { f c with id := id }
  withLobby : ∀ c lobby, f { c with lobby := lobby } = { f c with lobby := lobby }
  withHandlers : ∀ c handlers, f { c with handlers := handlers } = { f c with handlers := handlers }
  sendMessage : ∀ c m, f (c.sendMessage m) = (f c).sendMessage m

/-- A change of fields no lobby looks at. -/
structure Invisible (f : Connection → Connection) : Prop extends Hidden f where
  isReady : ∀ c, (f c).isReady = c.isReady
  withReady : ∀ c ready, f { c with clientIsReady := ready } =
    { f c with clientIsReady := ready }

namespace Hidden

variable {f : Connection → Connection} (h : Hidden f)
include h

theorem setId (c : Connection) (id : UInt8) : (f c).setId id = f (c.setId id) := by
  have hid : ((f c).id == 0) = (c.id == 0) := congrArg (· == 0) (h.id c)
  rw [Connection.setId, Connection.setId, hid]
  split
  · rw [h.sendMessage, ← h.withId]
  · rfl

theorem joined (c : Connection) (id : UInt8) (lobby : LobbyId) :
    (f c).joined id lobby = f (c.joined id lobby) := by
  have hlobby := h.withLobby (c.setId id) (some lobby)
  rw [Connection.joined, Connection.joined, h.setId]
  refine (congrArg (·.addHandlers lobby) hlobby.symm).trans ?_
  rw [addHandlers, h.handlers]
  exact (h.withHandlers _ _).symm

theorem onGameStart (n : UInt8) (game : ValidGame) (c : Connection) :
    (f c).onGameStart n game = f (c.onGameStart n game) :=
  (h.sendMessage c _).symm

theorem onTurn (playerId : UInt8) (c : Connection) :
    (f c).onTurn playerId = f (c.onTurn playerId) := by
  rw [Connection.onTurn, Connection.onTurn, h.id]
  split
  · exact (h.sendMessage c _).symm
  · rfl

theorem onUpdate (playerId col : UInt8) (result : TurnResult) (c : Connection) :
    (f c).onUpdate playerId col result = f (c.onUpdate playerId col result) := by
  rw [Connection.onUpdate, Connection.onUpdate, h.id]
  split
  · split
    · exact (h.sendMessage c _).symm
    · rfl
  · exact (h.sendMessage c _).symm

end Hidden

theorem Invisible.onGameEnd {f : Connection → Connection} (h : Invisible f) (winner : UInt8)
    (c : Connection) : (f c).onGameEnd winner = f (c.onGameEnd winner) := by
  exact (congrArg (·.sendWinner winner) (h.withReady c false).symm).trans
    (h.sendMessage _ _).symm

end Connection

open Connection

/-- The connection an event completes an operation of. -/
def ServerEvent.conn? : ServerEvent → Option ConnId
  | .read c _ _ => some c
  | .pingTimer c _ => some c
  | _ => none

namespace Room

/-- The lobby does not see the change of connection `q`. -/
structure Overlooks (r : Room) (q : ConnId) (f : Connection → Connection) : Prop where
  hidden : Hidden f
  inside : q ∈ r.lobby.handlers ∨ some q ∈ r.lobby.players → Invisible f

theorem modify_modify (r : Room) {q c : ConnId} {f g : Connection → Connection}
    (h : c = q → ∀ conn, g (f conn) = f (g conn)) :
    (r.modify q f).modify c g = (r.modify c g).modify q f :=
  congrArg (Room.mk r.lobby) (update_swap h r.conns)

theorem emit_modify (r : Room) {q : ConnId} {f handler : Connection → Connection}
    (emission : Emission) (h : q ∈ r.lobby.handlers → ∀ c, handler (f c) = f (handler c)) :
    (r.modify q f).emit emission handler = (r.emit emission handler).modify q f :=
  congrArg (Room.mk _) (broadcast_update h r.conns)

section Hidden

variable {f : Connection → Connection} (h : Hidden f)
include h

theorem modify_getId (r : Room) (q c : ConnId) :
    ((r.modify q f).conns c).getId = (r.conns c).getId := by
  by_cases hc : c = q
  · rw [hc, modify_conns_self]
    exact h.id _
  · rw [modify_conns_of_ne r hc]

theorem findPlayer_modify (r : Room) (q : ConnId) (id : UInt8) :
    (r.modify q f).findPlayer id = r.findPlayer id :=
  @findPlayer_congr r (r.modify q f) rfl (modify_getId h r q) id

theorem takeTurn_modify (r : Room) (q : ConnId) (playerId : UInt8) :
    (r.modify q f).takeTurn playerId = (r.takeTurn playerId).modify q f :=
  r.emit_modify _ fun _ => h.onTurn playerId

theorem tookTurn_modify (r : Room) (q : ConnId) (playerId column : UInt8)
    (result : TurnResult) :
    (r.modify q f).tookTurn playerId column result =
      (r.tookTurn playerId column result).modify q f :=
  r.emit_modify _ fun _ => h.onUpdate playerId column result

theorem addPlayer_modify (r : Room) (q c : ConnId) :
    (r.modify q f).addPlayer c = (r.addPlayer c).modify q f := by
  rw [addPlayer, addPlayer, modify_lobby]
  split
  · rfl
  · have hjoined := fun (r : Room) (id : UInt8) (lobby : LobbyId) =>
      congrArg Room.conns (r.modify_modify (q := q) (c := c)
        (g := fun conn => conn.joined id lobby) fun _ conn => h.joined conn id lobby)
    simp only
    split
    · exact congrArg (Room.mk _) (hjoined r _ _)
    · exact congrArg (Room.mk _) (hjoined r _ _)

end Hidden

/-- What the occupant of a slot says of its readiness. -/
def wasReady (r : Room) (i : Nat) : Bool :=
  match r.lobby.players[i]? with
  | some (some d) => (r.conns d).isReady
  | _ => false

def emptied (r : Room) (i : Nat) : Room :=
  { r with lobby := { r.lobby with
      numReady := if r.wasReady i && r.lobby.numReady > 0 then r.lobby.numReady - 1
        else r.lobby.numReady
      players := r.lobby.players.set i none
      numPlayers := if r.lobby.numPlayers > 0 then r.lobby.numPlayers - 1
        else r.lobby.numPlayers } }

/-! The methods that work in several steps, with the steps named. -/

theorem onReady_counted (r : Room) (c : ConnId) (first : UInt8) :
    r.onReady c first =
      match r.findPlayer (r.conns c).getId with
      | none => r
      | some _ =>
          if r.counted.lobby.allPlayersAreReady && r.counted.lobby.isFull then
            (r.counted.withGame (some (.standard r.lobby.maxPlayers first))).startGame
          else r.counted := rfl

def turned (r : Room) (c : ConnId) (column : UInt8) (game : ValidGame) : Room :=
  (r.withGame (some (game.takeTurn (r.conns c).getId column).1)).tookTurn (r.conns c).getId
    column (game.takeTurn (r.conns c).getId column).2

theorem onTakeTurn_turned (r : Room) (c : ConnId) (column : UInt8) :
    r.onTakeTurn c column =
      if !r.lobby.isPlayingGame then r.tookTurn (r.conns c).getId column .error
      else
        match r.lobby.game with
        | none => r.fault
        | some game =>
            if (game.takeTurn (r.conns c).getId column).1.hasWinner ||
                (game.takeTurn (r.conns c).getId column).1.boardFull then
              (r.turned c column game).onGameOver
            else if (game.takeTurn (r.conns c).getId column).2 == .success then
              (r.turned c column game).takeTurn
                (game.takeTurn (r.conns c).getId column).1.getCurrentPlayer
            else r.turned c column game := rfl

theorem onDisconnect_emptied (r : Room) (c : ConnId) :
    r.onDisconnect c =
      match r.findPlayer (r.conns c).getId with
      | none => (r, false)
      | some i =>
          let r := if (r.emptied i).lobby.isPlayingGame then (r.emptied i).onGameOver
            else r.emptied i
          (r, r.lobby.canAddPlayers) := rfl

namespace Overlooks

variable {r : Room} {q : ConnId} {f : Connection → Connection} (h : r.Overlooks q f)
include h

theorem withLobby {l : GameLobby} (hh : l.handlers = r.lobby.handlers)
    (hp : ∀ d, some d ∈ l.players → some d ∈ r.lobby.players) :
    ({ r with lobby := l } : Room).Overlooks q f :=
  ⟨h.hidden, fun hin => h.inside (hin.imp (fun hq => hh ▸ hq) (hp q))⟩

theorem emit (emission : Emission) (handler : Connection → Connection) :
    (r.emit emission handler).Overlooks q f :=
  ⟨h.hidden, h.inside⟩

theorem occupant_isReady {d : ConnId} (hd : some d ∈ r.lobby.players) :
    ((r.modify q f).conns d).isReady = (r.conns d).isReady := by
  by_cases hdq : d = q
  · subst hdq
    rw [modify_conns_self]
    exact (h.inside (.inr hd)).isReady _
  · rw [modify_conns_of_ne r hdq]

theorem slots_modify : (r.modify q f).slots = r.slots := by
  refine List.map_congr_left fun slot hslot => ?_
  cases slot with
  | none => rfl
  | some d => exact congrArg some (h.occupant_isReady hslot)

theorem gameStarted_modify (game : ValidGame) :
    (r.modify q f).gameStarted game = (r.gameStarted game).modify q f := by
  rw [gameStarted, gameStarted, h.slots_modify]
  exact r.emit_modify _ fun _ => h.hidden.onGameStart _ game

theorem gameEnded_modify (winner : UInt8) :
    (r.modify q f).gameEnded winner = (r.gameEnded winner).modify q f :=
  r.emit_modify _ fun hq => (h.inside (.inl hq)).onGameEnd winner

theorem startGame_modify : (r.modify q f).startGame = r.startGame.modify q f := by
  rw [startGame, startGame, modify_lobby]
  split
  · have hplay := h.withLobby (l := { r.lobby with isPlayingGame := true }) rfl fun _ hd => hd
    simp only
    split
    · rfl
    · next game _ =>
        exact (congrArg (fun r' : Room => r'.takeTurn game.getCurrentPlayer)
          (hplay.gameStarted_modify game)).trans (takeTurn_modify h.hidden _ q _)
  · rfl

theorem onGameOver_modify : (r.modify q f).onGameOver = r.onGameOver.modify q f := by
  rw [onGameOver, onGameOver, modify_lobby]
  cases r.lobby.game with
  | none => rfl
  | some game =>
      simp only
      split
      · exact congrArg (fun r' : Room => Room.mk { r'.lobby with
          game := none, isPlayingGame := false, numReady := 0 } r'.conns) (h.gameEnded_modify _)
      · exact congrArg (fun r' : Room => Room.mk { r'.lobby with
          game := none, isPlayingGame := false, numReady := 0 } r'.conns) (h.gameEnded_modify _)

theorem wasReady_modify (i : Nat) : (r.modify q f).wasReady i = r.wasReady i := by
  rw [wasReady, wasReady, modify_lobby]
  cases hslot : r.lobby.players[i]? with
  | none => rfl
  | some slot =>
      cases slot with
      | none => rfl
      | some d => exact h.occupant_isReady (List.mem_of_getElem? hslot)

theorem emptied_modify (i : Nat) : (r.modify q f).emptied i = (r.emptied i).modify q f := by
  rw [emptied, emptied, h.wasReady_modify]
  rfl

theorem emptied (i : Nat) : (r.emptied i).Overlooks q f :=
  h.withLobby rfl fun _ hd => (List.mem_or_eq_of_mem_set hd).resolve_right (by simp)

theorem onDisconnect_modify (c : ConnId) :
    (r.modify q f).onDisconnect c =
      ((r.onDisconnect c).1.modify q f, (r.onDisconnect c).2) := by
  rw [onDisconnect_emptied, onDisconnect_emptied, modify_getId h.hidden,
    findPlayer_modify h.hidden]
  cases r.findPlayer (r.conns c).getId with
  | none => rfl
  | some i =>
      simp only [h.emptied_modify, modify_lobby]
      split
      · rw [(h.emptied i).onGameOver_modify]
        rfl
      · rfl

theorem onReady_modify (c : ConnId) (first : UInt8) :
    (r.modify q f).onReady c first = (r.onReady c first).modify q f := by
  rw [onReady_counted, onReady_counted, modify_getId h.hidden, findPlayer_modify h.hidden]
  cases r.findPlayer (r.conns c).getId with
  | none => rfl
  | some i =>
      have hready : (r.counted.withGame (some (.standard r.lobby.maxPlayers first))).Overlooks q f :=
        h.withLobby rfl fun _ hd => hd
      have hcounted : (r.modify q f).counted = r.counted.modify q f := rfl
      simp only [hcounted, modify_lobby]
      split
      · exact hready.startGame_modify
      · rfl

theorem turned_modify (c : ConnId) (column : UInt8) (game : ValidGame) :
    (r.modify q f).turned c column game = (r.turned c column game).modify q f := by
  rw [turned, modify_getId h.hidden]
  exact tookTurn_modify h.hidden (r.withGame _) q _ _ _

theorem turned (c : ConnId) (column : UInt8) (game : ValidGame) :
    (r.turned c column game).Overlooks q f := by
  have hgame : (r.withGame (some (game.takeTurn (r.conns c).getId column).1)).Overlooks q f :=
    h.withLobby rfl fun _ hd => hd
  exact hgame.emit _ _

theorem onTakeTurn_modify (c : ConnId) (column : UInt8) :
    (r.modify q f).onTakeTurn c column = (r.onTakeTurn c column).modify q f := by
  rw [onTakeTurn_turned, onTakeTurn_turned, modify_getId h.hidden, modify_lobby]
  split
  · exact tookTurn_modify h.hidden r q _ _ _
  · cases r.lobby.game with
    | none => rfl
    | some game =>
        simp only [h.turned_modify]
        split
        · exact (h.turned c column game).onGameOver_modify
        · split
          · exact takeTurn_modify h.hidden _ q _
          · rfl

theorem handle_modify (c : ConnId) (first : UInt8) (signal : Signal) :
    (r.modify q f).handle c first signal =
      ((r.handle c first signal).1.modify q f, (r.handle c first signal).2) := by
  cases signal with
  | disconnected => exact h.onDisconnect_modify c
  | readied => exact congrArg (·, false) (h.onReady_modify c first)
  | tookTurn column => exact congrArg (·, false) (h.onTakeTurn_modify c column)

end Overlooks

end Room

namespace Server

theorem room_modify (s : Server) (q : ConnId) (f : Connection → Connection)
    (lobby : GameLobby) : (s.modify q f).room lobby = (s.room lobby).modify q f := rfl

theorem putRoom_modify (s : Server) (q : ConnId) (f : Connection → Connection) (l : LobbyId)
    (r : Room) : (s.modify q f).putRoom l (r.modify q f) = (s.putRoom l r).modify q f := rfl

theorem modify_modify (s : Server) {q c : ConnId} {f g : Connection → Connection}
    (h : c = q → ∀ conn, g (f conn) = f (g conn)) :
    (s.modify q f).modify c g = (s.modify c g).modify q f :=
  congrArg (fun conns => { s with conns := conns }) (update_swap h s.conns)

section Hidden

variable {f : Connection → Connection} (h : Hidden f)
include h

theorem addPlayer_modify (s : Server) (q : ConnId) (l : LobbyId) (c : ConnId) :
    (s.modify q f).addPlayer l c = (s.addPlayer l c).modify q f := by
  rw [addPlayer, addPlayer, modify_lobbies]
  cases s.lobbies[l]? with
  | none => rfl
  | some lobby =>
      simp only [room_modify, Room.addPlayer_modify h]
      rfl

theorem onLobbyAvailable_modify (s : Server) (q : ConnId) (l : LobbyId) :
    (s.modify q f).onLobbyAvailable l = (s.onLobbyAvailable l).modify q f := by
  rw [onLobbyAvailable, onLobbyAvailable, show (s.modify q f).playerQueue = s.playerQueue from rfl]
  cases s.playerQueue with
  | nil => rfl
  | cons player rest =>
      simp only [addPlayer_modify h]
      rfl

theorem addToQueue_modify (s : Server) (q c : ConnId) :
    (s.modify q f).addToQueue c = (s.addToQueue c).modify q f :=
  modify_modify (g := (·.notifyQueuePosition (UInt64.ofNat (s.playerQueue ++ [c]).length)))
    { s with playerQueue := s.playerQueue ++ [c] } fun _ conn => (h.sendMessage conn _).symm

/-- Another connection is accepted, or one that may change before or after. -/
theorem onConnectionAccepted_modify (s : Server) {q c : ConnId}
    (hc : c = q → ∀ conn, (f conn).onAccept = f conn.onAccept) (failed : Bool) :
    (s.modify q f).onConnectionAccepted c failed =
      (s.onConnectionAccepted c failed).modify q f := by
  cases failed with
  | true => rfl
  | false =>
      have hwelcomed : (s.modify q f).welcomed c = (s.welcomed c).modify q f :=
        congrArg (fun t : Server => { t with accepted := s.accepted ++ [c] })
          (s.modify_modify (g := (·.onAccept)) hc)
      have hnew : ((s.welcomed c).modify q f).makeNewLobby.1 =
          (s.welcomed c).makeNewLobby.1.modify q f := rfl
      have hfind : ((s.welcomed c).modify q f).findAvailableLobby =
          (s.welcomed c).findAvailableLobby := rfl
      rw [onConnectionAccepted_eq, onConnectionAccepted_eq]
      simp only [hwelcomed, hnew, hfind, modify_lobbies, addPlayer_modify h,
        addToQueue_modify h]
      split
      · cases (s.welcomed c).findAvailableLobby with
        | some l => rfl
        | none =>
            simp only
            split <;> rfl
      · split <;> rfl

theorem notifyFrom_modify (conns : ConnId → Connection) (q : ConnId) (pos : Nat)
    (queue : List ConnId) :
    notifyFrom (Function.update conns q (f (conns q))) pos queue =
      Function.update (notifyFrom conns pos queue) q (f (notifyFrom conns pos queue q)) := by
  induction queue generalizing conns pos with
  | nil => rfl
  | cons player rest ih =>
      rw [notifyFrom, notifyFrom, ← ih]
      congr 1
      exact update_swap (f := (·.notifyQueuePosition (UInt64.ofNat pos)))
        (fun _ c => (h.sendMessage c _).symm) conns

theorem liveQueue_modify (s : Server) (q : ConnId) : (s.modify q f).liveQueue = s.liveQueue := by
  refine List.filter_congr fun c _ => ?_
  by_cases hc : c = q
  · rw [hc, modify_conns_self, h.isAlive]
  · rw [modify_conns_of_ne s hc]

theorem updateQueuePositions_modify (s : Server) (q : ConnId) :
    (s.modify q f).updateQueuePositions = s.updateQueuePositions.modify q f := by
  have hqueue := liveQueue_modify h s q
  have hnotifies : (s.modify q f).Notifies ↔ s.Notifies := by
    rw [Notifies, Notifies, hqueue]
    rfl
  have heq : ∀ t : Server, t.updateQueuePositions = { t with
      playerQueue := t.liveQueue
      conns := if t.Notifies then notifyFrom t.conns 1 t.liveQueue else t.conns
      lastQueueSize := t.liveQueue.length
      timers := t.timers + 1 } := fun _ => rfl
  rw [heq, heq, hqueue]
  by_cases hn : s.Notifies
  · simp only [hnotifies, if_pos hn]
    exact congrArg (fun conns => ({ s with
      playerQueue := s.liveQueue
      conns := conns
      lastQueueSize := s.liveQueue.length
      timers := s.timers + 1 } : Server)) (notifyFrom_modify h s.conns q 1 s.liveQueue)
  · simp only [hnotifies, if_neg hn]
    rfl

end Hidden

theorem handle_modify {s : Server} {q : ConnId} {f : Connection → Connection} {l : LobbyId}
    (h : Hidden f) (hl : ∀ lobby, s.lobbies[l]? = some lobby → (s.room lobby).Overlooks q f)
    (c : ConnId) (first : UInt8) (signal : Signal) :
    (s.modify q f).handle l c first signal = (s.handle l c first signal).modify q f := by
  rw [handle, handle, modify_lobbies]
  cases hlobby : s.lobbies[l]? with
  | none => rfl
  | some lobby =>
      simp only [room_modify, (hl lobby hlobby).handle_modify, putRoom_modify,
        onLobbyAvailable_modify h]
      split <;> rfl

theorem modify_handlers {f : Connection → Connection} (h : Hidden f) (s : Server)
    (q c : ConnId) : ((s.modify q f).conns c).handlers = (s.conns c).handlers := by
  by_cases hc : c = q
  · rw [hc, modify_conns_self, h.handlers]
  · rw [modify_conns_of_ne s hc]

theorem dispatch_modify_invisible {f : Connection → Connection} (h : Invisible f) (s : Server)
    (q c : ConnId) (first : UInt8) (signal : Option Signal) :
    (s.modify q f).dispatch c first signal = (s.dispatch c first signal).modify q f := by
  cases signal with
  | none => rfl
  | some signal =>
      rw [dispatch, dispatch, modify_handlers h.toHidden]
      generalize (s.conns c).handlers = ls
      induction ls generalizing s with
      | nil => rfl
      | cons l ls ih =>
          rw [List.foldl_cons, List.foldl_cons,
            handle_modify h.toHidden fun _ _ => ⟨h.toHidden, fun _ => h⟩, ih]

theorem Rooms.not_occupant {s : Server} (hr : s.Rooms) {q : ConnId}
    (hq : (s.conns q).handlers = []) {lobby : GameLobby} (hin : lobby ∈ s.lobbies) :
    some q ∉ lobby.players := by
  intro hslot
  obtain ⟨l, hl⟩ := List.mem_iff_getElem?.mp hin
  obtain ⟨i, hi⟩ := List.mem_iff_getElem?.mp hslot
  have hattached := hr.handlers_eq hl ((hr.inv hl).seats.seated i q hi).1
  rw [hq] at hattached
  cases hattached

theorem Rooms.overlooks {s : Server} (hr : s.Rooms) {q : ConnId}
    {f : Connection → Connection} (h : Hidden f) (hq : (s.conns q).handlers = [])
    {l : LobbyId} {lobby : GameLobby} (hl : s.lobbies[l]? = some lobby) :
    (s.room lobby).Overlooks q f := by
  refine ⟨h, fun hin => ?_⟩
  rcases hin with hin | hin
  · have hin : q ∈ lobby.handlers := hin
    rw [hr.mem_iff hl, hq] at hin
    cases hin
  · exact absurd hin (hr.not_occupant hq (List.mem_of_getElem? hl))

/-- A connection is in one lobby at most, so the handlers run once. -/
theorem dispatch_modify {s : Server} (hr : s.Rooms) {q : ConnId}
    {f : Connection → Connection} (h : Hidden f) (hq : (s.conns q).handlers = [])
    (c : ConnId) (first : UInt8) (signal : Option Signal) :
    (s.modify q f).dispatch c first signal = (s.dispatch c first signal).modify q f := by
  cases signal with
  | none => rfl
  | some signal =>
      rw [dispatch, dispatch, modify_handlers h]
      rcases hr.attached c with hnil | ⟨l, lobby, hl, hc⟩
      · rw [hnil]
        rfl
      · rw [hr.handlers_eq hl hc]
        exact handle_modify h (fun _ hl' => hr.overlooks h hq hl') c first signal

/-! ## The events of the others -/

theorem complete_modify {s : Server} (hr : s.Rooms) {q : ConnId}
    {f : Connection → Connection} (h : Hidden f)
    (hq : (s.conns q).handlers = [] ∨ Invisible f) {c : ConnId} (hc : c ≠ q)
    {out : Connection × Option Signal} (hseat : (s.conns c).KeepsSeat out.1) (first : UInt8) :
    (s.modify q f).complete c out first = (s.complete c out first).modify q f := by
  rw [complete, complete, modify_modify s fun heq => absurd heq hc]
  rcases hq with hq | hinv
  · refine dispatch_modify (hr.modify hseat) h ?_ c first out.2
    rw [modify_conns_of_ne s (Ne.symm hc)]
    exact hq
  · exact dispatch_modify_invisible hinv _ q c first out.2

/-- A connection changes before the events of the others or after them, with the same
outcome: in any way no lobby looks at, and while it has no lobby also in its
readiness. -/
theorem step_modify {s : Server} (hinv : s.Inv) {q : ConnId} {f : Connection → Connection}
    (h : Hidden f)
    (hacc : q ∈ s.accepted ∨ ∀ conn : Connection, (f conn).onAccept = f conn.onAccept)
    (hq : (s.conns q).handlers = [] ∨ Invisible f) {e : ServerEvent} (he : e.conn? ≠ some q) :
    (s.modify q f).step e = (s.step e).map (·.modify q f) := by
  cases e with
  | accept failed =>
      rw [step, step, show (s.modify q f).accepting = s.accepting from rfl]
      cases hnext : s.accepting with
      | nil => rfl
      | cons c rest =>
          have hc : c = q → ∀ conn : Connection, (f conn).onAccept = f conn.onAccept := by
            rintro rfl
            exact hacc.resolve_left (hinv.book.next_new hnext)
          exact congrArg some
            (onConnectionAccepted_modify h { s with accepting := rest } hc failed)
  | read c result first =>
      have hc : c ≠ q := fun heq => he (congrArg some heq)
      have hseat := ((Connection.onReadSocket_outcome _ result).of_idles
        (Connection.reads_idles (s.conns c) ((s.conns c).reads - 1))).keepsSeat
      rw [step, step, modify_conns_of_ne s hc]
      split
      · exact congrArg some (complete_modify hinv.rooms h hq hc hseat first)
      · rfl
  | pingTimer c error =>
      have hc : c ≠ q := fun heq => he (congrArg some heq)
      have hseat := ((Connection.pingOnTimer_outcome _ error).of_idles
        (Connection.waits_idles (s.conns c) ((s.conns c).waits - 1))).keepsSeat
      rw [step, step, modify_conns_of_ne s hc]
      split
      · exact congrArg some (complete_modify hinv.rooms h hq hc hseat 0)
      · rfl
  | queueTimer =>
      rw [step, step, show (s.modify q f).timers = s.timers from rfl]
      split
      · exact congrArg some (updateQueuePositions_modify h { s with timers := s.timers - 1 } q)
      · rfl

end Server

end ConnectDisks.Net
