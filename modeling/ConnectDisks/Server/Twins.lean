import ConnectDisks.Server.Server

/-!
# Two runs of the server

Two servers to which the same things happen, except that one of them also gets some
messages from a connection `q` that waits in its queue. A common event is one that both
take: it has to be possible in both.
-/

namespace ConnectDisks.Net

structure Twins where
  quiet : Server
  loud : Server

inductive TwinEvent
  | both (e : ServerEvent)
  | extra (m : Message) (first : UInt8)
deriving DecidableEq, Repr

namespace Twins

def new : Twins := ⟨Server.new, Server.new⟩

/-- What `q` says besides is no pong, and it says it while it waits in the queue and
has no id. -/
def step (q : ConnId) (p : Twins) : TwinEvent → Option Twins
  | .both e =>
      match p.quiet.step e, p.loud.step e with
      | some quiet, some loud => some ⟨quiet, loud⟩
      | _, _ => none
  | .extra m first =>
      if q ∈ p.loud.playerQueue ∧ (p.loud.conns q).id = 0 ∧ m.type ≠ .pong then
        (p.loud.step (.read q (.message m) first)).map fun loud => ⟨p.quiet, loud⟩
      else
        none

end Twins

end ConnectDisks.Net
