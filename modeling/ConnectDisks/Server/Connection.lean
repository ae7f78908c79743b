import ConnectDisks.Game.Valid
import ConnectDisks.Net.Messaging

/-!
# A connection

The server's end of one client. Its methods change only the connection itself,
so they are functions from a connection to a connection; the three signals it
can emit are handed back, and whoever holds the state runs the handlers.

The fields `reads` and `waits` count the operations left with Asio, an
`async_read` on the socket and an `async_wait` on the ping timer: a completion
takes one away, and starting another puts it back. `sent` is every message given
to `async_write`, oldest first. `handlers` are the lobbies whose `onDisconnect`,
`onReady` and `onTakeTurn` `addPlayer` connected to the three signals; it always
connects all three.

In `onReadSocket` the source emits before it starts the next read. Starting a
read looks only at `clientIsConnected`, which none of the handlers of `readied`
and `tookTurn` changes, and touches nothing they look at, so here the next read
is started first and the signal handed out with the result.
-/

namespace ConnectDisks.Net

open ConnectDisks.Game

abbrev ConnId := Nat

abbrev LobbyId := Nat

structure Connection where
  lobby : Option LobbyId
  id : UInt8
  clientIsConnected : Bool
  clientIsReady : Bool
  receivedPong : Bool
  missedPongs : UInt8
  handlers : List LobbyId
  reads : Nat
  waits : Nat
  sent : List Message
deriving DecidableEq, Repr

inductive Signal
  | disconnected
  | readied
  | tookTurn (column : UInt8)
deriving DecidableEq, Repr

/-- The errors `onReadSocket` tells apart. -/
inductive ReadError
  | eof
  | connectionAborted
  | connectionReset
  | unknown
deriving DecidableEq, Repr

/-- How an `async_read` completes. -/
inductive ReadResult
  | message (m : Message)
  | empty
  | failed (error : ReadError)
deriving DecidableEq, Repr

namespace Connection

def create : Connection where
  lobby := none
  id := 0
  clientIsConnected := true
  clientIsReady := false
  receivedPong := false
  missedPongs := 0
  handlers := []
  reads := 0
  waits := 0
  sent := []

def isAlive (c : Connection) : Bool := c.clientIsConnected

def isReady (c : Connection) : Bool := c.clientIsReady

def getId (c : Connection) : UInt8 := c.id

def waitForMessages (c : Connection) : Connection :=
  if !c.clientIsConnected then c
  else { c with reads := c.reads + 1 }

def sendMessage (c : Connection) (message : Message) : Connection :=
  if !c.clientIsConnected then c
  else { c with sent := c.sent ++ [message] }

def notifyQueuePosition (c : Connection) (position : UInt64) : Connection :=
  c.sendMessage (.inQueue position)

def handleDisconnect (c : Connection) : Connection × Option Signal :=
  if c.clientIsConnected then
    ({ c with clientIsConnected := false }, some .disconnected)
  else
    (c, none)

def handleClientReady (c : Connection) : Connection × Option Signal :=
  ({ c with clientIsReady := true }, some .readied)

def handleTurnResult (c : Connection) (result : TurnResult) (column : UInt8) :
    Connection :=
  c.sendMessage (.turnResult result column)

def setId (c : Connection) (id : UInt8) : Connection :=
  if c.id == 0 then
    sendMessage { c with id := id } (.connected id)
  else
    c

/-- The pointer part of `setGameLobby`; the slots it adds to the lobby's signals
are the lobby's. -/
def setGameLobby (c : Connection) (lobby : LobbyId) : Connection :=
  { c with lobby := some lobby }

/-- What `addPlayer` connects to the three signals. -/
def addHandlers (c : Connection) (lobby : LobbyId) : Connection :=
  { c with handlers := c.handlers ++ [lobby] }

/-- Tells the client the number of players its lobby reports, and the dimensions
and first player of its lobby's game. -/
def onGameStart (c : Connection) (numPlayers : UInt8) (game : ValidGame) : Connection :=
  c.sendMessage
    (.gameStart numPlayers game.getNumColumns game.getNumRows game.getCurrentPlayer)

def sendWinner (c : Connection) (winner : UInt8) : Connection :=
  c.sendMessage (.gameEnd winner)

def onGameEnd (c : Connection) (player : UInt8) : Connection :=
  sendWinner { c with clientIsReady := false } player

def onTurn (c : Connection) (playerId : UInt8) : Connection :=
  if playerId == c.id then c.sendMessage (.takeTurn playerId requestTurn)
  else c

def onUpdate (c : Connection) (playerId col : UInt8) (result : TurnResult) : Connection :=
  if playerId != c.id then
    if result == .success then c.sendMessage (.update playerId col)
    else c
  else
    c.handleTurnResult result col

/-- The completion handler of a read. -/
def onReadSocket (c : Connection) : ReadResult → Connection × Option Signal
  | .empty => (c, none)
  | .message m =>
      match m.type with
      | .ready =>
          let id := m.get 0
          if id == c.id then
            let (c, signal) := c.handleClientReady
            (c.waitForMessages, signal)
          else
            (c.waitForMessages, none)
      | .takeTurn =>
          let id := m.get 0
          let column := m.get 1
          if id == c.id && column != 255 then
            (c.waitForMessages, some (.tookTurn column))
          else
            (c.waitForMessages, none)
      | .pong => (waitForMessages { c with receivedPong := true }, none)
      | _ => (c.waitForMessages, none)
  | .failed .eof => c.handleDisconnect
  | .failed .connectionAborted => c.handleDisconnect
  | .failed .connectionReset => c.handleDisconnect
  | .failed .unknown => (c, none)

def sendPing (c : Connection) : Connection :=
  sendMessage { c with receivedPong := false } .ping

/-- `expires_from_now` and `async_wait` on the ping timer. -/
def startTimer (c : Connection) : Connection :=
  { c with waits := c.waits + 1 }

/-- The completion handler of the ping timer. -/
def pingOnTimer (c : Connection) (error : Bool) : Connection × Option Signal :=
  if error then
    (c, none)
  else if c.clientIsConnected then
    if c.receivedPong then
      (startTimer (sendPing { c with missedPongs := 0 }), none)
    else
      let c := { c with missedPongs := c.missedPongs + 1 }
      if c.missedPongs > 3 then c.handleDisconnect
      else (c.sendPing.startTimer, none)
  else
    (c, none)

def startPings (c : Connection) : Connection :=
  c.sendPing.startTimer

def onAccept (c : Connection) : Connection :=
  c.waitForMessages.startPings

end Connection

end ConnectDisks.Net
