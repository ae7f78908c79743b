import ConnectDisks.Lib.Run
import ConnectDisks.Server.GameLobby

/-!
# Runs of a started lobby

What can happen to one lobby, one event at a time. A connection is accepted, is
told its place in the queue, is added to the lobby; a read on its socket
completes, with a message or an error; its ping timer expires. Each event is the
completion of an operation the connection has outstanding, so a connection that
was dropped for missing its pongs can still complete the read it had started.

The events the server decides are left open here. Any connection that has no
lobby yet may be added at any time, whatever it did before, and when the lobby
reports a free slot the handler may add one at once: `refill` names it. A random
draw is part of the event that uses it.
-/

namespace ConnectDisks.Net

open ConnectDisks.Game Lib

inductive RoomEvent
  | accept (c : ConnId)
  | notify (c : ConnId) (position : UInt64)
  | join (c : ConnId)
  | read (c : ConnId) (result : ReadResult) (first : UInt8) (refill : Option ConnId)
  | tick (c : ConnId) (error : Bool) (refill : Option ConnId)
deriving DecidableEq, Repr

namespace Room

/-- A lobby that was just started, and connections none of which was accepted. -/
def started (maxPlayers : UInt8) : Room where
  lobby := (GameLobby.new 0 maxPlayers).start
  conns := fun _ => Connection.create

/-- Calls the lobby's handler as often as it is connected to the signal. -/
def dispatch (r : Room) (c : ConnId) (first : UInt8) : Option Signal → Room × Bool
  | none => (r, false)
  | some signal =>
      (r.conns c).handlers.foldl (fun (r, available) l =>
        if l == r.lobby.address then
          let (r, available') := r.handle c first signal
          (r, available || available')
        else
          (r, available)) (r, false)

/-- The handler of `lobbyAvailable`: adds the connection it has waiting, if any. -/
def onLobbyAvailable (r : Room) (refill : Option ConnId) : Room :=
  match refill with
  | none => r
  | some d => r.addPlayer d

/-- A connection that was not added to a lobby yet. -/
def Joinable (r : Room) (c : ConnId) : Prop :=
  (r.conns c).id = 0 ∧ (r.conns c).handlers = []

instance (r : Room) (c : ConnId) : Decidable (r.Joinable c) := by
  unfold Joinable
  infer_instance

/-- Runs a completion handler of connection `c` and the handlers of the signal it
emits. -/
def complete (r : Room) (c : ConnId) (outcome : Connection × Option Signal)
    (first : UInt8) (refill : Option ConnId) : Room :=
  let r := r.modify c fun _ => outcome.1
  let (r, available) := r.dispatch c first outcome.2
  if available then r.onLobbyAvailable refill else r

def step (r : Room) : RoomEvent → Option Room
  | .accept c =>
      if r.conns c = Connection.create then some (r.modify c (·.onAccept)) else none
  | .notify c position =>
      if r.Joinable c then some (r.modify c (·.notifyQueuePosition position)) else none
  | .join c =>
      if r.Joinable c then some (r.addPlayer c) else none
  | .read c result first refill =>
      let conn := r.conns c
      if 0 < conn.reads ∧ ∀ d ∈ refill, r.Joinable d then
        some (r.complete c
          (Connection.onReadSocket { conn with reads := conn.reads - 1 } result)
          first refill)
      else
        none
  | .tick c error refill =>
      let conn := r.conns c
      if 0 < conn.waits ∧ ∀ d ∈ refill, r.Joinable d then
        some (r.complete c
          (Connection.pingOnTimer { conn with waits := conn.waits - 1 } error)
          0 refill)
      else
        none

end Room

end ConnectDisks.Net
