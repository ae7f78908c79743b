import ConnectDisks.Client.Client
import ConnectDisks.Server.Projection

/-!
# What the server may say next

The messages a client gets make sense only in a certain order: it is told its places in
the queue until it is connected, it is connected once, games start and end in turn, and
requests, results and updates belong to a game. `Stage.next` is that order as a machine,
with the fields a client reads: the id it is given, the players and the board that are
announced, the players and columns of a game. A ping may come at any time.

The one message about turns between games is the answer `error`, to a turn that reached
a lobby that was not playing.
-/

namespace ConnectDisks.Net

open ConnectDisks.Game

/-- Where a client stands with its server. -/
inductive Stage
  | waiting
  | seated (id : UInt8)
  | playing (id : UInt8)
deriving DecidableEq, Repr

/-- A player of a lobby with so many slots. -/
def IsPlayer (maxPlayers id : UInt8) : Prop := 1 ≤ id.toNat ∧ id.toNat ≤ maxPlayers.toNat

instance (maxPlayers id : UInt8) : Decidable (IsPlayer maxPlayers id) := by
  unfold IsPlayer
  infer_instance

/-- A column of the boards a lobby plays on. -/
def IsColumn (column : UInt8) : Prop := column.toNat < Board.minColumns.toNat

instance (column : UInt8) : Decidable (IsColumn column) := by
  unfold IsColumn
  infer_instance

/-- The result of a turn in a game that is on. -/
def IsAnswer (result : UInt8) : Prop :=
  turnResultByte .error < result ∧ result < turnResultByte .gameFinished

instance (result : UInt8) : Decidable (IsAnswer result) := by
  unfold IsAnswer
  infer_instance

namespace Stage

def next (maxPlayers : UInt8) : Stage → Message → Option Stage
  | .waiting, m =>
      match m.type with
      | .ping => some .waiting
      | .inQueue => some .waiting
      | .connected => if IsPlayer maxPlayers (m.get 0) then some (.seated (m.get 0)) else none
      | _ => none
  | .seated id, m =>
      match m.type with
      | .ping => some (.seated id)
      | .gameStart =>
          if m.get 0 = maxPlayers ∧ m.get 1 = Board.minColumns ∧ m.get 2 = Board.minRows ∧
              IsPlayer maxPlayers (m.get 3) then some (.playing id)
          else none
      | .turnResult =>
          if m.get 0 = turnResultByte .error then some (.seated id) else none
      | _ => none
  | .playing id, m =>
      match m.type with
      | .ping => some (.playing id)
      | .takeTurn =>
          if m.get 0 = id ∧ m.get 1 = requestTurn then some (.playing id) else none
      | .turnResult =>
          if IsAnswer (m.get 0) ∧
              (m.get 0 = turnResultByte .success → IsColumn (m.get 1)) then some (.playing id)
          else none
      | .update =>
          if IsPlayer maxPlayers (m.get 0) ∧ m.get 0 ≠ id ∧ IsColumn (m.get 1) then
            some (.playing id)
          else none
      | .gameEnd =>
          if (m.get 0).toNat ≤ maxPlayers.toNat then some (.seated id) else none
      | _ => none

/-- The player with this id, by whether a game is on. -/
def at_ (on : Bool) (id : UInt8) : Stage := if on then .playing id else .seated id

end Stage

namespace Room

/-- The stage the client of a live connection is at once it has read everything. -/
def stage (r : Room) (c : ConnId) : Stage :=
  if c ∈ r.lobby.handlers then .at_ r.lobby.isPlayingGame (r.conns c).id else .waiting

end Room

namespace Server

/-- The same, on the server: the lobby is the one the connection is attached to. -/
def stage (s : Server) (c : ConnId) : Stage :=
  match (s.conns c).handlers with
  | [] => .waiting
  | l :: _ => .at_ (s.lobbyAt l).isPlayingGame (s.conns c).id

end Server

end ConnectDisks.Net
