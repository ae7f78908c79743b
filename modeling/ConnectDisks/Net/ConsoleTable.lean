import ConnectDisks.Client.ConsoleClient
import ConnectDisks.Net.Table

/-!
# A lobby and its consoles

The lobby again with the players behind its connections, but now with all there is to a
player: a console client with its two threads, and a user who types what he likes, when he
likes. `Table` is what remains of this when one looks only at the messages.

What a client sends on a connection that was dropped is lost.
-/

namespace ConnectDisks.Net

open Lib

structure ConsoleTable where
  room : Room
  consoles : ConnId → ConsoleClient
  delivered : ConnId → Nat

/-- The reads that complete with a message are `receive`, at the server, and `deliver`, at
a client. -/
inductive ConsoleTableEvent
  | room (e : RoomEvent)
  | receive (c : ConnId) (first : UInt8)
  | deliver (c : ConnId)
  | console (c : ConnId) (e : ConsoleEvent)
deriving DecidableEq, Repr

namespace ConsoleTable

def started (maxPlayers : UInt8) : ConsoleTable where
  room := Room.started maxPlayers
  consoles := fun _ => ConsoleClient.connected
  delivered := fun _ => 0

def modify (t : ConsoleTable) (c : ConnId) (f : ConsoleClient → ConsoleClient) :
    ConsoleTable :=
  { t with consoles := Function.update t.consoles c (f (t.consoles c)) }

def hearsMessage : ConsoleEvent → Bool
  | .read (.message _) => true
  | _ => false

def step (t : ConsoleTable) : ConsoleTableEvent → Option ConsoleTable
  | .room e =>
      if Table.readsMessage e then none
      else (t.room.step e).map fun r => { t with room := r }
  | .receive c first =>
      match (t.consoles c).outbox with
      | [] => none
      | m :: rest =>
          (t.room.step (.read c (.message m) first none)).map fun r =>
            { t with room := r }.modify c fun k => { k with outbox := rest }
  | .deliver c =>
      (Network.sent t.room c)[t.delivered c]?.bind fun m =>
        ((t.consoles c).next (.read (.message m))).map fun k =>
          { t with delivered := Function.update t.delivered c (t.delivered c + 1) }.modify c
            fun _ => k
  | .console c e =>
      if hearsMessage e then none
      else
        ((t.consoles c).next e).map fun k =>
          t.modify c fun old =>
            if (t.room.conns c).isAlive then k else { k with outbox := old.outbox }

end ConsoleTable

end ConnectDisks.Net
