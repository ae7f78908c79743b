import ConnectDisks.Server.Room

/-!
# The server

Connections are accepted one `async_accept` at a time and placed: in the first
lobby that is not full, in a new lobby while there are fewer than `maxLobbies`,
or at the end of the queue. A lobby that reports a free slot gets the player at
the front of the queue.

`accepting` holds the connection objects of the outstanding `async_accept`
operations, `created` counts the objects made so far, and `timers` the
outstanding waits on the queue timer. Two fields are bookkeeping that no method
reads: `accepted` are the connections that were accepted without an error, in
that order, and `placements` every call of `addPlayer` the server makes, and
whether the lobby took the player.
-/

namespace ConnectDisks.Net

open ConnectDisks.Game Lib

/-- A call of `addPlayer`, and whether `canAddPlayers` let it through. -/
structure Placement where
  lobby : LobbyId
  player : ConnId
  taken : Bool
deriving DecidableEq, Repr

structure Server where
  lastQueueSize : Nat
  playerQueue : List ConnId
  lobbies : List GameLobby
  conns : ConnId → Connection
  accepting : List ConnId
  created : Nat
  timers : Nat
  accepted : List ConnId
  placements : List Placement

inductive ServerEvent
  | accept (failed : Bool)
  | read (c : ConnId) (result : ReadResult) (first : UInt8)
  | pingTimer (c : ConnId) (error : Bool)
  | queueTimer
deriving DecidableEq, Repr

namespace Server

def maxLobbies : Nat := 4

/-- The room of a lobby: the lobby and the server's connections. -/
def room (s : Server) (lobby : GameLobby) : Room :=
  ⟨lobby, s.conns⟩

/-- Puts a lobby and the connections back after a method ran on its room. -/
def putRoom (s : Server) (l : LobbyId) (r : Room) : Server :=
  { s with lobbies := s.lobbies.set l r.lobby, conns := r.conns }

def modify (s : Server) (c : ConnId) (f : Connection → Connection) : Server :=
  { s with conns := Function.update s.conns c (f (s.conns c)) }

/-- Makes a connection object and starts an accept on its socket. -/
def waitForConnections (s : Server) : Server :=
  { s with accepting := s.accepting ++ [s.created], created := s.created + 1 }

def new : Server :=
  let s := waitForConnections {
    lastQueueSize := 0
    playerQueue := []
    lobbies := []
    conns := fun _ => Connection.create
    accepting := []
    created := 0
    timers := 0
    accepted := []
    placements := [] }
  { s with timers := s.timers + 1 }

/-- `lobby->addPlayer(connection)`. -/
def addPlayer (s : Server) (l : LobbyId) (c : ConnId) : Server :=
  match s.lobbies[l]? with
  | none => s
  | some lobby =>
      { s.putRoom l ((s.room lobby).addPlayer c) with
        placements := s.placements ++ [⟨l, c, lobby.canAddPlayers⟩] }

/-- The first lobby that is not full. -/
def findAvailableLobby (s : Server) : Option LobbyId :=
  s.lobbies.findIdx? fun lobby => !lobby.isFull

/-- Makes a lobby with the default number of players and starts it. -/
def makeNewLobby (s : Server) : Server × LobbyId :=
  let l := s.lobbies.length
  ({ s with lobbies := s.lobbies ++ [(GameLobby.new l FourAcross.minNumPlayers).start] }, l)

def onLobbyAvailable (s : Server) (l : LobbyId) : Server :=
  match s.playerQueue with
  | [] => s
  | player :: rest => { s.addPlayer l player with playerQueue := rest }

def addToQueue (s : Server) (c : ConnId) : Server :=
  let s := { s with playerQueue := s.playerQueue ++ [c] }
  s.modify c (·.notifyQueuePosition (UInt64.ofNat s.playerQueue.length))

def onConnectionAccepted (s : Server) (c : ConnId) (failed : Bool) : Server :=
  if failed then s
  else
    let s := { s.modify c (·.onAccept) with accepted := s.accepted ++ [c] }
    let numLobbies := s.lobbies.length
    let s :=
      if numLobbies ≠ 0 then
        match s.findAvailableLobby with
        | some l => s.addPlayer l c
        | none =>
            if numLobbies < maxLobbies then
              let (s, l) := s.makeNewLobby
              s.addPlayer l c
            else
              s.addToQueue c
      else if numLobbies < maxLobbies then
        let (s, l) := s.makeNewLobby
        s.addPlayer l c
      else
        s.addToQueue c
    s.waitForConnections

/-- Sends every queued player its place, counted from `pos`. -/
def notifyFrom (conns : ConnId → Connection) (pos : Nat) : List ConnId → ConnId → Connection
  | [] => conns
  | player :: rest =>
      notifyFrom
        (Function.update conns player
          ((conns player).notifyQueuePosition (UInt64.ofNat pos)))
        (pos + 1) rest

/-- The completion handler of the queue timer. It ignores the error. -/
def updateQueuePositions (s : Server) : Server :=
  let queue := s.playerQueue.filter fun c => (s.conns c).isAlive
  let queueSize := queue.length
  let delta := if queueSize > s.lastQueueSize then queueSize - s.lastQueueSize
    else s.lastQueueSize - queueSize
  let conns := if queueSize > 0 ∧ (queueSize < 10 ∨ delta ≥ 10) then
      notifyFrom s.conns 1 queue
    else s.conns
  { s with
    playerQueue := queue
    conns := conns
    lastQueueSize := queueSize
    timers := s.timers + 1 }

/-- A signal of connection `c` reaches a handler of lobby `l`; where that is
`onDisconnect`, the lobby may go on to report a free slot. -/
def handle (s : Server) (l : LobbyId) (c : ConnId) (first : UInt8) (signal : Signal) :
    Server :=
  match s.lobbies[l]? with
  | none => s
  | some lobby =>
      let (r, available) := (s.room lobby).handle c first signal
      let s := s.putRoom l r
      if available then s.onLobbyAvailable l else s

/-- Runs every handler connected to the signal. -/
def dispatch (s : Server) (c : ConnId) (first : UInt8) : Option Signal → Server
  | none => s
  | some signal =>
      (s.conns c).handlers.foldl (fun s l => s.handle l c first signal) s

def complete (s : Server) (c : ConnId) (outcome : Connection × Option Signal)
    (first : UInt8) : Server :=
  (s.modify c fun _ => outcome.1).dispatch c first outcome.2

def step (s : Server) : ServerEvent → Option Server
  | .accept failed =>
      match s.accepting with
      | [] => none
      | c :: rest => some (onConnectionAccepted { s with accepting := rest } c failed)
  | .read c result first =>
      let conn := s.conns c
      if 0 < conn.reads then
        some (s.complete c
          (Connection.onReadSocket { conn with reads := conn.reads - 1 } result) first)
      else
        none
  | .pingTimer c error =>
      let conn := s.conns c
      if 0 < conn.waits then
        some (s.complete c
          (Connection.pingOnTimer { conn with waits := conn.waits - 1 } error) 0)
      else
        none
  | .queueTimer =>
      if 0 < s.timers then
        some (updateQueuePositions { s with timers := s.timers - 1 })
      else
        none

end Server

end ConnectDisks.Net
