import ConnectDisks.Game.Valid
import ConnectDisks.Net.Messaging

/-!
# The client

What a client does with a message it has read: the changes to its own state, and
the calls it makes, in order. `Call` lists the member functions a derived class
overrides and the messages sent back. A handler faults where the source would
follow the null game pointer, and where the constructor of the game throws.

The byte of a turn result is whatever arrived; casting it to the enumeration does
not check it.
-/

namespace ConnectDisks.Net

open ConnectDisks.Game

structure Client where
  playerId : UInt8
  isConnected : Bool
  game : Option ValidGame
deriving DecidableEq, Repr

inductive Call
  | onConnect (playerId : UInt8)
  | onQueueUpdate (position : UInt64)
  | onGameStart (numPlayers first cols rows : UInt8)
  | onGameEnd (winner : UInt8)
  | onGameUpdate (player col : UInt8)
  | onTurnResult (result column : UInt8)
  | handleTurnRequest
  | sendMessage (message : Message)
deriving DecidableEq, Repr

inductive ClientFault
  | nullGame
  | thrown (fault : Fault)
deriving DecidableEq, Repr

namespace Client

def new : Client where
  playerId := 0
  isConnected := false
  game := none

def setPlayerId (cl : Client) (id : UInt8) : Client := { cl with playerId := id }

def startGame (cl : Client) (numPlayers first cols rows : UInt8) :
    Except ClientFault (Client × List Call) :=
  match ValidGame.new numPlayers first cols rows with
  | .ok game =>
      .ok ({ cl with game := some game }, [.onGameStart numPlayers first cols rows])
  | .error fault => .error (.thrown fault)

def stopGame (cl : Client) (winner : UInt8) : Except ClientFault (Client × List Call) :=
  .ok (cl, [.onGameEnd winner])

def checkTurnResult (cl : Client) (result column : UInt8) :
    Except ClientFault (Client × List Call) :=
  if result = turnResultByte .success then
    match cl.game with
    | none => .error .nullGame
    | some game =>
        .ok ({ cl with game := some (game.takeTurn cl.playerId column).1 },
          [.onTurnResult result column])
  else if result = turnResultByte .error then
    .ok (cl, [])
  else
    .ok (cl, [.onTurnResult result column, .handleTurnRequest])

def takeOpponentTurn (cl : Client) (player col : UInt8) :
    Except ClientFault (Client × List Call) :=
  match cl.game with
  | none => .error .nullGame
  | some game =>
      .ok ({ cl with game := some (game.takeTurn player col).1 }, [.onGameUpdate player col])

/-- The eight bytes of a queue position, read as a big-endian number. -/
def queuePosition (m : Message) : UInt64 :=
  UInt64.ofNat ((List.finRange 8).foldl
    (fun n (i : Fin 8) => n * 256 + (m.get (i.castAdd 8)).toNat) 0)

@[simp] theorem queuePosition_inQueue (position : UInt64) :
    queuePosition (.inQueue position) = position := by
  have hlt := position.toNat_lt
  rw [← UInt64.toNat_inj, queuePosition]
  simp only [Message.inQueue_get, List.finRange_succ, List.finRange_zero, List.map_cons,
    List.map_nil, List.foldl_cons, List.foldl_nil, Message.bigEndianByte,
    Nat.shiftRight_eq_div_pow, UInt8.toNat_ofNat', UInt64.toNat_ofNat']
  simp
  omega

def sendPong (cl : Client) : Except ClientFault (Client × List Call) :=
  .ok (cl, [.sendMessage .pong])

/-- The message `toggleReady` sends. -/
def toggleReady (cl : Client) : Message := .ready cl.playerId

/-- The message `sendTurn` sends. -/
def sendTurn (cl : Client) (column : UInt8) : Message := .takeTurn cl.playerId column

/-- The handler of a message that was read without error. -/
def handleRead (cl : Client) (m : Message) : Except ClientFault (Client × List Call) :=
  match m.type with
  | .connected =>
      .ok ({ cl.setPlayerId (m.get 0) with isConnected := true }, [.onConnect (m.get 0)])
  | .inQueue => .ok (cl, [.onQueueUpdate (queuePosition m)])
  | .ping => cl.sendPong
  | .gameStart =>
      let numPlayers := m.get 0
      let numCols := m.get 1
      let numRows := m.get 2
      let first := m.get 3
      cl.startGame numPlayers first numCols numRows
  | .gameEnd => cl.stopGame (m.get 0)
  | .takeTurn =>
      let id := m.get 0
      let column := m.get 1
      if id = cl.playerId ∧ column = requestTurn then .ok (cl, [.handleTurnRequest])
      else .ok (cl, [])
  | .turnResult => cl.checkTurnResult (m.get 0) (m.get 1)
  | .update => cl.takeOpponentTurn (m.get 0) (m.get 1)
  | _ => .ok (cl, [])

end Client

end ConnectDisks.Net
