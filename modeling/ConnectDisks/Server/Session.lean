import ConnectDisks.Server.Connection

/-!
# A connection on its own

Everything that happens to an accepted connection from outside: its read completes
with a message, with nothing or with an error, and its ping timer expires. The order
is left open, and so is the number: a handler is run whether or not an operation is
outstanding for it, so that what is proved holds of any mix.

`signals` is what the connection has emitted, oldest first.
-/

namespace ConnectDisks.Net

inductive ConnectionEvent
  | read (result : ReadResult)
  | tick
deriving DecidableEq, Repr

structure Session where
  conn : Connection
  signals : List Signal
deriving DecidableEq, Repr

namespace Session

/-- A connection that was just accepted. -/
def accepted : Session where
  conn := Connection.create.onAccept
  signals := []

/-- The outcome of a completion handler. -/
def emit (s : Session) (outcome : Connection × Option Signal) : Session where
  conn := outcome.1
  signals := s.signals ++ outcome.2.toList

def handle (s : Session) : ConnectionEvent → Session
  | .read result =>
      s.emit (Connection.onReadSocket { s.conn with reads := s.conn.reads - 1 } result)
  | .tick =>
      s.emit (Connection.pingOnTimer { s.conn with waits := s.conn.waits - 1 } false)

def after (es : List ConnectionEvent) : Session := es.foldl handle accepted

end Session

end ConnectDisks.Net
