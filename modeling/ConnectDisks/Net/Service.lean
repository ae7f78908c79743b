import ConnectDisks.Net.Dialogue
import ConnectDisks.Net.Network

/-!
# The server and its clients

All there is at once: the server with its lobbies, its queue and its connections, and a
client at the other end of every connection. As in `Network`, what a connection was sent
arrives whole and in order, at any time, and what the clients send is left open.

`Call.Meant` says what a client's own code may rely on when it is called back: the member
functions a derived class overrides, and the messages sent on its behalf.
-/

namespace ConnectDisks.Net

open ConnectDisks.Game Lib

abbrev Service := Lib.Net Server ConnId Client

namespace Service

def sent (s : Server) (c : ConnId) : List Message := (s.conns c).sent

def started : Service := .start Server.new Client.new

def step : Service → NetEvent ServerEvent ConnId → Option Service :=
  Net.step Server.step sent Client.receive

end Service

namespace Stage

/-- What a client knows of the stage it has read itself up to. -/
def Known (maxPlayers : UInt8) : Stage → Client → Prop
  | .waiting, cl => cl.playerId = 0 ∧ cl.isConnected = false ∧ cl.game = none
  | .seated id, cl => cl.playerId = id ∧ cl.isConnected = true ∧ IsPlayer maxPlayers id
  | .playing id, cl =>
      cl.playerId = id ∧ cl.isConnected = true ∧ IsPlayer maxPlayers id ∧
        ∃ game, cl.game = some game ∧ game.state.numPlayers = maxPlayers ∧
          game.getNumColumns = Board.minColumns ∧ game.getNumRows = Board.minRows

end Stage

/-- The calls a client makes are meant for it, in the state it makes them in. -/
def Call.Meant (maxPlayers : UInt8) (cl : Client) : Call → Prop
  | .onConnect id => cl.isConnected = false ∧ IsPlayer maxPlayers id
  | .onQueueUpdate _ => cl.isConnected = false
  | .onGameStart numPlayers first cols rows =>
      cl.isConnected = true ∧ numPlayers = maxPlayers ∧ IsPlayer maxPlayers first ∧
        cols = Board.minColumns ∧ rows = Board.minRows
  | .onGameEnd winner => cl.game ≠ none ∧ winner.toNat ≤ maxPlayers.toNat
  | .onGameUpdate player col =>
      cl.game ≠ none ∧ player ≠ cl.playerId ∧ IsPlayer maxPlayers player ∧ IsColumn col
  | .onTurnResult result column =>
      cl.game ≠ none ∧ IsAnswer result ∧
        (result = turnResultByte .success → IsColumn column)
  | .handleTurnRequest => cl.game ≠ none
  | .sendMessage m => m = .pong

end ConnectDisks.Net
