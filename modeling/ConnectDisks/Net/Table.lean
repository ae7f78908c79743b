import ConnectDisks.Net.Network

/-!
# A lobby and its players

Here what the clients send is not left open any more. Behind each client there is a
user who answers every request for a turn with one column, gives up a prompt when
the game ends, and says ready once after it is connected and once after each game;
all that at any later time. `outbox` is what a client sent and the server has not
read yet, and `prompts` and `readies` count what the user still has to answer.

A client whose connection was dropped sends nothing more. What it had sent before
stays in its outbox, and the read its connection had outstanding may still
complete with it.
-/

namespace ConnectDisks.Net

open ConnectDisks.Game Lib

structure Player where
  client : Client
  prompts : Nat
  readies : Nat
  outbox : List Message
deriving DecidableEq, Repr

namespace Player

def new : Player where
  client := Client.new
  prompts := 0
  readies := 0
  outbox := []

/-- What comes of a call the client makes. -/
def react (p : Player) : Call → Player
  | .handleTurnRequest => { p with prompts := p.prompts + 1 }
  | .onGameEnd _ => { p with prompts := 0, readies := p.readies + 1 }
  | .onConnect _ => { p with readies := p.readies + 1 }
  | .sendMessage m => { p with outbox := p.outbox ++ [m] }
  | _ => p

def receive (p : Player) (m : Message) : Option Player :=
  match p.client.handleRead m with
  | .ok (client, calls) => some (calls.foldl react { p with client := client })
  | .error _ => none

end Player

structure Table where
  room : Room
  players : ConnId → Player
  delivered : ConnId → Nat

/-- What happens in the room without a message, and what happens to messages. -/
inductive TableEvent
  | room (e : RoomEvent)
  | receive (c : ConnId) (first : UInt8)
  | deliver (c : ConnId)
  | sendTurn (c : ConnId) (column : UInt8)
  | toggleReady (c : ConnId)
deriving DecidableEq, Repr

namespace Table

def started (maxPlayers : UInt8) : Table where
  room := Room.started maxPlayers
  players := fun _ => Player.new
  delivered := fun _ => 0

def modify (t : Table) (c : ConnId) (f : Player → Player) : Table :=
  { t with players := Function.update t.players c (f (t.players c)) }

def readsMessage : RoomEvent → Bool
  | .read _ (.message _) _ _ => true
  | _ => false

def step (t : Table) : TableEvent → Option Table
  | .room e =>
      if readsMessage e then none
      else (t.room.step e).map fun r => { t with room := r }
  | .receive c first =>
      match (t.players c).outbox with
      | [] => none
      | m :: rest =>
          (t.room.step (.read c (.message m) first none)).map fun r =>
            { t with room := r }.modify c fun p => { p with outbox := rest }
  | .deliver c =>
      (Network.sent t.room c)[t.delivered c]?.bind fun m =>
        ((t.players c).receive m).map fun p =>
          { t with delivered := Function.update t.delivered c (t.delivered c + 1) }.modify c
            fun old => if (t.room.conns c).isAlive then p else { p with outbox := old.outbox }
  | .sendTurn c column =>
      let p := t.players c
      if (t.room.conns c).isAlive ∧ 0 < p.prompts ∧ column ≠ 255 then
        some (t.modify c fun p => { p with
          prompts := p.prompts - 1
          outbox := p.outbox ++ [p.client.sendTurn column] })
      else
        none
  | .toggleReady c =>
      let p := t.players c
      if (t.room.conns c).isAlive ∧ 0 < p.readies then
        some (t.modify c fun p => { p with
          readies := p.readies - 1
          outbox := p.outbox ++ [p.client.toggleReady] })
      else
        none

def inFlight (t : Table) (c : ConnId) : List Message :=
  (Network.sent t.room c).drop (t.delivered c)

end Table

end ConnectDisks.Net
