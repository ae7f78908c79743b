import ConnectDisks.Lib.Broadcast
import ConnectDisks.Server.Connection

/-!
# A lobby and the connections around it

A lobby's methods read and change connections as well as the lobby, and its
signals call handlers on every connection that was ever added to it. So they
work on a `Room`, one lobby together with the table of all connections.

`handlers` are the connections whose `onTurn`, `onUpdate`, `onGameStart` and
`onGameEnd` are connected to the lobby's signals, in the order they joined.
`setGameLobby` connects all four at once and nothing ever disconnects them: a
connection that has left stays on the list, and what keeps it quiet is its own
`clientIsConnected`.

Three fields are bookkeeping that no method reads. `address` is `this`, the
pointer the connections hold. `trace` is what the lobby has emitted, each
`gameStarted` with the game it announces and what every slot said of its
readiness at that moment, and who joined when. `undefined` is set where the code
would dereference the null game pointer or write outside the slot vector.

`onDisconnect` ends by emitting `lobbyAvailable`, whose handler belongs to the
server. It is the last thing the method does, so here the method answers whether
it emitted, and the caller goes on from there.
-/

namespace ConnectDisks.Net

open ConnectDisks.Game Lib

/-- What a lobby has done that somebody else can notice. -/
inductive Emission
  | joined (c : ConnId)
  | gameStarted (game : ValidGame) (slots : List (Option Bool))
  | gameEnded (winner : UInt8)
  | takeTurn (playerId : UInt8)
  | tookTurn (playerId column : UInt8) (result : TurnResult)
deriving DecidableEq, Repr

structure GameLobby where
  lobbyIsOpen : Bool
  isPlayingGame : Bool
  game : Option ValidGame
  maxPlayers : UInt8
  numReady : UInt8
  numPlayers : UInt8
  players : List (Option ConnId)
  handlers : List ConnId
  address : LobbyId
  trace : List Emission
  undefined : Bool
deriving DecidableEq, Repr

namespace GameLobby

def new (address : LobbyId) (maxPlayers : UInt8) : GameLobby where
  lobbyIsOpen := false
  isPlayingGame := false
  game := none
  maxPlayers := maxPlayers
  numReady := 0
  numPlayers := 0
  players := List.replicate maxPlayers.toNat none
  handlers := []
  address := address
  trace := []
  undefined := false

def startLobby (l : GameLobby) : GameLobby :=
  if l.lobbyIsOpen then l else { l with lobbyIsOpen := true }

def start (l : GameLobby) : GameLobby := l.startLobby

def isFull (l : GameLobby) : Bool := l.numPlayers == l.maxPlayers

def getNumPlayers (l : GameLobby) : UInt8 := l.numPlayers

def allPlayersAreReady (l : GameLobby) : Bool := l.numReady == l.numPlayers

def canAddPlayers (l : GameLobby) : Bool :=
  l.lobbyIsOpen && !l.isPlayingGame && !l.isFull

/-- The distance to the first null slot, or to the end. -/
def getFirstAvailableId (l : GameLobby) : UInt8 :=
  UInt8.ofNat (l.players.findIdx (· == none))

end GameLobby

structure Room where
  lobby : GameLobby
  conns : ConnId → Connection

namespace Room

def modify (r : Room) (c : ConnId) (f : Connection → Connection) : Room :=
  { r with conns := Function.update r.conns c (f (r.conns c)) }

/-- Emits a signal: every subscribed connection handles it, in order. -/
def emit (r : Room) (emission : Emission) (handler : Connection → Connection) : Room where
  lobby := { r.lobby with trace := r.lobby.trace ++ [emission] }
  conns := broadcast handler r.lobby.handlers r.conns

/-- The code has no defined behaviour from here on. -/
def fault (r : Room) : Room :=
  { r with lobby := { r.lobby with undefined := true } }

/-- For each slot, what its occupant's `isReady` says. -/
def slots (r : Room) : List (Option Bool) :=
  r.lobby.players.map (Option.map fun c => (r.conns c).isReady)

def gameStarted (r : Room) (game : ValidGame) : Room :=
  r.emit (.gameStarted game r.slots) (·.onGameStart r.lobby.getNumPlayers game)

def gameEnded (r : Room) (winner : UInt8) : Room :=
  r.emit (.gameEnded winner) (·.onGameEnd winner)

def takeTurn (r : Room) (playerId : UInt8) : Room :=
  r.emit (.takeTurn playerId) (·.onTurn playerId)

def tookTurn (r : Room) (playerId column : UInt8) (result : TurnResult) : Room :=
  r.emit (.tookTurn playerId column result) (·.onUpdate playerId column result)

/-- `std::find_if` over the slots for an occupant with this id. -/
def findPlayer (r : Room) (id : UInt8) : Option Nat :=
  r.lobby.players.findIdx? fun slot =>
    match slot with
    | some d => (r.conns d).getId == id
    | none => false

def addPlayer (r : Room) (c : ConnId) : Room :=
  if !r.lobby.canAddPlayers then r
  else
    let id := r.lobby.getFirstAvailableId
    let r := if id.toNat < r.lobby.players.length then r else r.fault
    let r := { r with lobby := { r.lobby with
      players := r.lobby.players.set id.toNat (some c) } }
    let r := r.modify c fun conn =>
      ((conn.setId (id + 1)).setGameLobby r.lobby.address).addHandlers r.lobby.address
    { r with lobby := { r.lobby with
        handlers := r.lobby.handlers ++ [c]
        numPlayers := r.lobby.numPlayers + 1
        trace := r.lobby.trace ++ [.joined c] } }

def startGame (r : Room) : Room :=
  if r.lobby.lobbyIsOpen && !r.lobby.isPlayingGame then
    let r := { r with lobby := { r.lobby with isPlayingGame := true } }
    match r.lobby.game with
    | none => r.fault
    | some game => (r.gameStarted game).takeTurn game.getCurrentPlayer
  else
    r

def onGameOver (r : Room) : Room :=
  match r.lobby.game with
  | none => r.fault
  | some game =>
      let r := if game.hasWinner then r.gameEnded game.getWinner
        else r.gameEnded FourAcross.noWinner
      { r with lobby := { r.lobby with
        game := none
        isPlayingGame := false
        numReady := 0 } }

/-- The second component says whether `lobbyAvailable` was emitted. -/
def onDisconnect (r : Room) (c : ConnId) : Room × Bool :=
  match r.findPlayer (r.conns c).getId with
  | none => (r, false)
  | some i =>
      let playerWasReady :=
        match r.lobby.players[i]? with
        | some (some d) => (r.conns d).isReady
        | _ => false
      let numReady := if playerWasReady && r.lobby.numReady > 0 then r.lobby.numReady - 1
        else r.lobby.numReady
      let numPlayers := if r.lobby.numPlayers > 0 then r.lobby.numPlayers - 1
        else r.lobby.numPlayers
      let r := { r with lobby := { r.lobby with
        numReady := numReady
        players := r.lobby.players.set i none
        numPlayers := numPlayers } }
      let r := if r.lobby.isPlayingGame then r.onGameOver else r
      (r, r.lobby.canAddPlayers)

/-- `first` is what the random device draws; the constructor of the game reads a
draw outside `1 … maxPlayers` as 1, so any byte may stand here. -/
def onReady (r : Room) (c : ConnId) (first : UInt8) : Room :=
  match r.findPlayer (r.conns c).getId with
  | none => r
  | some _ =>
      let r := { r with lobby := { r.lobby with numReady := r.lobby.numReady + 1 } }
      if r.lobby.allPlayersAreReady && r.lobby.isFull then
        let r := { r with lobby := { r.lobby with
          game := some (.standard r.lobby.maxPlayers first) } }
        r.startGame
      else
        r

/-- The `catch` branch answers exceptions of `FourAcross::takeTurn`, which on a
`ValidGame` throws none. -/
def onTakeTurn (r : Room) (c : ConnId) (column : UInt8) : Room :=
  if !r.lobby.isPlayingGame then
    r.tookTurn (r.conns c).getId column .error
  else
    match r.lobby.game with
    | none => r.fault
    | some game =>
        let (game, result) := game.takeTurn (r.conns c).getId column
        let r := { r with lobby := { r.lobby with game := some game } }
        let r := r.tookTurn (r.conns c).getId column result
        if game.hasWinner || game.boardFull then r.onGameOver
        else if result == .success then r.takeTurn game.getCurrentPlayer
        else r

/-- A signal of connection `c` reaches the lobby's handler for it. -/
def handle (r : Room) (c : ConnId) (first : UInt8) : Signal → Room × Bool
  | .disconnected => r.onDisconnect c
  | .readied => (r.onReady c first, false)
  | .tookTurn column => (r.onTakeTurn c column, false)

end Room

end ConnectDisks.Net
