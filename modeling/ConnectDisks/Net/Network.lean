import ConnectDisks.Client.Client
import ConnectDisks.Lib.Channel
import ConnectDisks.Server.Room

/-!
# A lobby and its clients

The lobby, its connections, and a client at the other end of each. What a
connection gave to `async_write` arrives at its client whole and in that order, one
message at a time, at any time. What the clients send is left open: the events of
the room say what is read.
-/

namespace ConnectDisks.Net

open Lib

/-- The client after it handled a message, unless the handler faults. -/
def Client.receive (cl : Client) (m : Message) : Option Client :=
  match cl.handleRead m with
  | .ok (cl, _) => some cl
  | .error _ => none

abbrev Network := Lib.Net Room ConnId Client

namespace Network

def sent (r : Room) (c : ConnId) : List Message := (r.conns c).sent

def started (maxPlayers : UInt8) : Network := .start (Room.started maxPlayers) Client.new

def step : Network → NetEvent RoomEvent ConnId → Option Network :=
  Net.step Room.step sent Client.receive

end Network

end ConnectDisks.Net
