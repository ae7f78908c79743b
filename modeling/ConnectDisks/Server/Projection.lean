import ConnectDisks.Server.Server

/-!
# One lobby out of four

What the events of the server are to one of its lobbies: `project l` gives, for an
event and the state it is taken in, the events of a room that amount to it. Most of
them are at most one. An arrival is told apart by where the server puts it: who comes
to this lobby is accepted and joins, who is queued is accepted and told its place, who
goes to another lobby is nobody here. Operations of connections that are attached to
another lobby do not show.

The events of a room are those of `Room.started`, whose lobby has address 0, so what a
connection knows of its lobby's address is `renamed`. A lobby the server has not made
yet counts as just started.
-/

namespace ConnectDisks.Net

open ConnectDisks.Game Lib

/-- The connection as it would be if the only lobby there is had address 0. -/
def Connection.renamed (c : Connection) : Connection :=
  { c with
    lobby := c.lobby.map fun _ => 0
    handlers := c.handlers.map fun _ => 0 }

namespace Server

/-- A lobby of the server, or the one it would make. -/
def lobbyAt (s : Server) (l : LobbyId) : GameLobby :=
  s.lobbies[l]?.getD (GameLobby.new l FourAcross.minNumPlayers).start

/-- The connection is attached to no lobby but this one. -/
def concerns (s : Server) (l : LobbyId) (c : ConnId) : Bool :=
  (s.conns c).handlers.all (· == l)

/-- The lobby an arrival is added to, if it is not queued. -/
def destination (s : Server) : Option LobbyId :=
  match s.findAvailableLobby with
  | some l => some l
  | none => if s.lobbies.length < maxLobbies then some s.lobbies.length else none

/-- What `notifyFrom` sends, as events. -/
def notices (pos : Nat) : List ConnId → List RoomEvent
  | [] => []
  | c :: rest => .notify c (UInt64.ofNat pos) :: notices (pos + 1) rest

def project (l : LobbyId) (s : Server) : ServerEvent → List RoomEvent
  | .accept failed =>
      match s.accepting with
      | [] => []
      | c :: _ =>
          if failed then []
          else
            match s.destination with
            | some l' => if l' = l then [.accept c, .join c] else []
            | none => [.accept c, .notify c (UInt64.ofNat (s.playerQueue.length + 1))]
  | .read c result first =>
      if s.concerns l c then [.read c result first s.playerQueue.head?] else []
  | .pingTimer c error =>
      if s.concerns l c then [.tick c error s.playerQueue.head?] else []
  | .queueTimer =>
      let queue := s.playerQueue.filter fun c => (s.conns c).isAlive
      let delta := if queue.length > s.lastQueueSize then queue.length - s.lastQueueSize
        else s.lastQueueSize - queue.length
      if queue.length > 0 ∧ (queue.length < 10 ∨ delta ≥ 10) then notices 1 queue else []

end Server

end ConnectDisks.Net
