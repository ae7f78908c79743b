import ConnectDisks.Net.Wire

/-!
# What is sent and who handles it

The two encoders are the member functions of a connection and of a client that send; a
`Notice` or a `Request` is a call of one of them. The two decoders are the switches of
`Client::handleRead` and `Connection::onReadSocket`. Here they are taken apart: `dispatch`
finds the member function a message goes to and reads its arguments from the bytes, and
`perform` calls it.

A message is looked at in the light of the id its reader has, and `connected` changes that
id. So what a client dispatches of a stream is threaded through the id, and nothing else
of the client's state matters for it.
-/

namespace ConnectDisks.Net

open ConnectDisks.Game Lib

/-- A game that was just constructed for a full lobby: two players at least, and one of
them first. -/
structure NewGame where
  numPlayers : UInt8
  first : UInt8
  numColumns : UInt8
  numRows : UInt8
  game : ValidGame
  enough : 2 ≤ numPlayers
  first_pos : 1 ≤ first
  first_le : first ≤ numPlayers
  isNew : ValidGame.new numPlayers first numColumns numRows = .ok game

/-- The one a full lobby starts, on the default board. -/
def NewGame.standard (numPlayers first : UInt8) (enough : 2 ≤ numPlayers)
    (first_pos : 1 ≤ first) (first_le : first ≤ numPlayers) : NewGame where
  numPlayers := numPlayers
  first := first
  numColumns := Board.minColumns
  numRows := Board.minRows
  game := .standard numPlayers first
  enough := enough
  first_pos := first_pos
  first_le := first_le
  isNew := ValidGame.new_standard numPlayers first

/-! ## From the server -/

/-- A call of one of the member functions of a connection that send. -/
inductive Notice
  | setId (id : UInt8)
  | notifyQueuePosition (position : UInt64)
  | sendPing
  | onGameStart (g : NewGame)
  | onGameEnd (player : UInt8)
  | onTurn (playerId : UInt8)
  | onUpdate (playerId col : UInt8) (result : TurnResult)

/-- A member function `handleRead` calls, with the arguments it gives it. `setPlayerId`
stands for all of that branch: `onConnect` is called next, with the same id. -/
inductive ClientTask
  | setPlayerId (id : UInt8)
  | onQueueUpdate (position : UInt64)
  | sendPong
  | startGame (numPlayers first cols rows : UInt8)
  | stopGame (winner : UInt8)
  | handleTurnRequest
  | checkTurnResult (result column : UInt8)
  | takeOpponentTurn (player col : UInt8)
deriving DecidableEq, Repr

namespace Connection

variable (server : Host)

/-- Makes the call, on the machine the server runs on. The lobby reports as many players
as its game was constructed for. -/
def tell (c : Connection) : Notice → Connection
  | .setId id => c.setId id
  | .notifyQueuePosition position => c.sendMessage (server.inQueue position)
  | .sendPing => c.sendPing
  | .onGameStart g => c.onGameStart g.numPlayers g.game
  | .onGameEnd player => c.onGameEnd player
  | .onTurn playerId => c.onTurn playerId
  | .onUpdate playerId col result => c.onUpdate playerId col result

/-- What the call gives to `async_write`. -/
def writes (c : Connection) (n : Notice) : List Message :=
  (c.tell server n).sent.drop c.sent.length

def tellAll (c : Connection) (ns : List Notice) : Connection := ns.foldl (tell server) c

/-- These calls, each with the connection as it is when the call is made. -/
def calls (c : Connection) : List Notice → List (Connection × Notice)
  | [] => []
  | n :: ns => (c, n) :: (c.tell server n).calls ns

end Connection

/-- What the client is to do about a call that was made on a connection with this id. -/
def Notice.task? (id : UInt8) : Notice → Option ClientTask
  | .setId new => if id = 0 then some (.setPlayerId new) else none
  | .notifyQueuePosition position => some (.onQueueUpdate position)
  | .sendPing => some .sendPong
  | .onGameStart g => some (.startGame g.numPlayers g.first g.numColumns g.numRows)
  | .onGameEnd player => some (.stopGame player)
  | .onTurn playerId => if playerId = id then some .handleTurnRequest else none
  | .onUpdate playerId col result =>
      if playerId = id then some (.checkTurnResult (turnResultByte result) col)
      else if result = .success then some (.takeOpponentTurn playerId col)
      else none

namespace Client

/-- The switch of `handleRead`, for a client with this id. -/
def dispatch (client : Host) (id : UInt8) (m : Message) : Option ClientTask :=
  match m.type with
  | .connected => some (.setPlayerId (m.get 0))
  | .inQueue => some (.onQueueUpdate (client.queuePosition m))
  | .ping => some .sendPong
  | .gameStart => some (.startGame (m.get 0) (m.get 3) (m.get 1) (m.get 2))
  | .gameEnd => some (.stopGame (m.get 0))
  | .takeTurn =>
      if m.get 0 = id ∧ m.get 1 = requestTurn then some .handleTurnRequest else none
  | .turnResult => some (.checkTurnResult (m.get 0) (m.get 1))
  | .update => some (.takeOpponentTurn (m.get 0) (m.get 1))
  | _ => none

/-- The id of the client after it handled the message. -/
def idAfter (id : UInt8) (m : Message) : UInt8 :=
  match m.type with
  | .connected => m.get 0
  | _ => id

def dispatches (client : Host) : UInt8 → List Message → List ClientTask
  | _, [] => []
  | id, m :: ms => (dispatch client id m).toList ++ dispatches client (idAfter id m) ms

def perform (cl : Client) : ClientTask → Except ClientFault (Client × List Call)
  | .setPlayerId id => .ok ({ cl.setPlayerId id with isConnected := true }, [.onConnect id])
  | .onQueueUpdate position => .ok (cl, [.onQueueUpdate position])
  | .sendPong => cl.sendPong
  | .startGame numPlayers first cols rows => cl.startGame numPlayers first cols rows
  | .stopGame winner => cl.stopGame winner
  | .handleTurnRequest => .ok (cl, [.handleTurnRequest])
  | .checkTurnResult result column => cl.checkTurnResult result column
  | .takeOpponentTurn player col => cl.takeOpponentTurn player col

def each {α : Type} (f : Client → α → Except ClientFault (Client × List Call)) :
    Client → List α → Except ClientFault (Client × List Call)
  | cl, [] => .ok (cl, [])
  | cl, x :: xs => do
      let (cl, first) ← f cl x
      let (cl, rest) ← each f cl xs
      return (cl, first ++ rest)

def handleReads : Client → List Message → Except ClientFault (Client × List Call) :=
  each handleRead

def performs : Client → List ClientTask → Except ClientFault (Client × List Call) :=
  each perform

end Client

/-! ## From the client -/

/-- A call of one of the member functions of a client that send. -/
inductive Request
  | toggleReady
  | sendTurn (column : UInt8)
  | sendPong
deriving DecidableEq, Repr

/-- What `onReadSocket` does about a message. -/
inductive ServerTask
  | handleClientReady
  | tookTurn (column : UInt8)
  | receivedPong
deriving DecidableEq, Repr

/-- The message the call gives to `async_write`. -/
def Client.say (cl : Client) : Request → Message
  | .toggleReady => cl.toggleReady
  | .sendTurn column => cl.sendTurn column
  | .sendPong => .pong

/-- What the server is to do about it. A turn in the column 255 is no turn: in a `takeTurn`
message that byte asks for one. -/
def Request.task? : Request → Option ServerTask
  | .toggleReady => some .handleClientReady
  | .sendTurn column => if column = requestTurn then none else some (.tookTurn column)
  | .sendPong => some .receivedPong

namespace Connection

/-- The switch of `onReadSocket`, for a connection with this id. -/
def dispatch (id : UInt8) (m : Message) : Option ServerTask :=
  match m.type with
  | .ready => if m.get 0 == id then some .handleClientReady else none
  | .takeTurn =>
      if m.get 0 == id && m.get 1 != 255 then some (.tookTurn (m.get 1)) else none
  | .pong => some .receivedPong
  | _ => none

def perform (c : Connection) : Option ServerTask → Connection × Option Signal
  | some .handleClientReady => c.handleClientReady
  | some (.tookTurn column) => (c, some (.tookTurn column))
  | some .receivedPong => ({ c with receivedPong := true }, none)
  | none => (c, none)

def each {α : Type} (f : Connection → α → Connection × Option Signal) :
    Connection → List α → Connection × List Signal
  | c, [] => (c, [])
  | c, x :: xs =>
      let (c, first) := f c x
      let (c, rest) := each f c xs
      (c, first.toList ++ rest)

def handleReads : Connection → List Message → Connection × List Signal :=
  each fun c m => c.onReadSocket (.message m)

/-- After each message the next read is started, whether it was of use or not. -/
def performs : Connection → List (Option ServerTask) → Connection × List Signal :=
  each fun c task =>
    let (c, signal) := c.perform task
    (c.waitForMessages, signal)

end Connection

end ConnectDisks.Net
