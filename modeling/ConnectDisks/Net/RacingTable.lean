import ConnectDisks.Net.ConsoleTable

/-!
# Finding the socket and using it

`waitForMessages` and `sendMessage` look whether the socket pointer is null, and use the
socket if it is not. At a `ConsoleTable` the main thread does both in one step. But nothing
guards the pointer, and the input thread resets it when the user quits, which may be just
then. So at a `RacingTable` there are two steps: the main thread finds the pointer set
(`find`), and uses the socket at a later step, if the pointer is still set.

A use during which the pointer is reset counts as one after it. There is no more to take
apart. The input thread looks and uses as well, but nobody else resets the pointer. And a
socket that is closed and not yet reset can be used: a read of it fails, as a read may
anyway, and a message is as lost as if the pointer were null.
-/

namespace ConnectDisks.Net

open Lib

/-- The next thing the main thread does is look at the socket pointer, to read again or to
send a message. -/
def ConsoleClient.atSocket (c : ConsoleClient) : Bool :=
  match c.main with
  | .handling [] => true
  | .handling (.sendMessage _ :: _) => true
  | _ => false

structure RacingTable where
  table : ConsoleTable
  /-- the main thread has found the pointer set, and not used the socket yet -/
  found : ConnId → Bool

inductive RacingEvent
  | find (c : ConnId)
  | table (e : ConsoleTableEvent)
deriving DecidableEq, Repr

namespace RacingTable

def started (maxPlayers : UInt8) : RacingTable where
  table := ConsoleTable.started maxPlayers
  found := fun _ => false

def step (t : RacingTable) : RacingEvent → Option RacingTable
  | .find c =>
      let console := t.table.consoles c
      if console.atSocket ∧ console.socket ∧ ¬t.found c then
        some { t with found := Function.update t.found c true }
      else none
  | .table (.console c .call) =>
      let console := t.table.consoles c
      -- a pointer that is set has to be found first, and one that was found and reset crashes
      if console.atSocket ∧ t.found c ≠ console.socket then none
      else
        (t.table.step (.console c .call)).map fun table =>
          { table := table, found := Function.update t.found c false }
  | .table e => (t.table.step e).map fun table => { t with table := table }

end RacingTable

end ConnectDisks.Net
