import ConnectDisks.Client.Client
import ConnectDisks.Game.Text

/-!
# The client on a console

A client with a user in front of it. It runs on two threads. The main thread reads from
the socket and handles what it reads; the other one, which the input worker starts
whenever the user is asked for something, reads words from the console until the callback
it was started with accepts one. To ask for something else the main thread stops the input
worker first, and that waits until the other thread has ended. The thread may then be
waiting for a word itself.

A step here is what one thread does up to the point where the other one can tell: a test
of `running`, a word read, a callback, a call of the handler. The main thread is at one of
the places `MainThread` lists, the input thread at one that `Position` does. A callback
sends one message or none, so it is one step; when the user quits, it is two, since the
socket is closed before the context is stopped, and the main thread may see that. Where the
main thread looks at the socket pointer and then uses the socket, it takes one step as well;
`RacingTable` makes two of it.

`Crash` lists the ends no one recovers from: `std::terminate` in the assignment to a thread
that was not joined and in its destructor, joining no thread, and using a null pointer.
-/

namespace ConnectDisks.Net

open ConnectDisks.Game

/-! ## Reading a number -/

/-- `isspace`. -/
def isSpace (c : Char) : Bool := c == ' ' || (9 ≤ c.toNat && c.toNat ≤ 13)

/-- The characters of a sign, and whether it is a minus. -/
def signOf : List Char → List Char × Bool
  | '-' :: _ => (['-'], true)
  | '+' :: _ => (['+'], false)
  | _ => ([], false)

/-- `std::stoi`, to base ten: the number, and how many characters it took. It throws where
there is no number, and where there is none of that size. -/
def stoi (str : List Char) : Option (Int × Nat) :=
  let spaces := str.takeWhile isSpace
  let rest := str.drop spaces.length
  let sign := signOf rest
  let digits := (rest.drop sign.1.length).takeWhile Char.isDigit
  let magnitude : Int := Nat.ofDigitChars 10 digits 0
  let value := if sign.2 then -magnitude else magnitude
  if digits ≠ [] ∧ -2 ^ 31 ≤ value ∧ value < 2 ^ 31 then
    some (value, spaces.length + sign.1.length + digits.length)
  else
    none

/-- The column the callback of a turn sends, if it accepts the input. -/
def turnColumn (maxColumns : UInt8) (input : List Char) : Option UInt8 :=
  match stoi input with
  | some (column, pos) =>
      if pos = input.length ∧ 0 < column ∧ column ≤ maxColumns.toNat then
        some (UInt8.ofInt (column - 1))
      else none
  | none => none

/-! ## The input worker -/

/-- What the user is asked for: the three callbacks. -/
inductive InputCallback
  | ready
  | rematch
  | turn (maxColumns : UInt8)
deriving DecidableEq, Repr

/-- Where `readUntilDone` is. -/
inductive Position
  | testing
  | reading
  | checking (input : List Char)
  | calling (input : List Char)
  | stopping
  | returned
deriving DecidableEq, Repr

structure InputThread where
  callback : InputCallback
  position : Position
deriving DecidableEq, Repr

/-- The thread is there from its start until it is joined, also when it has ended. -/
structure InputWorker where
  thread : Option InputThread
  running : Bool
deriving DecidableEq, Repr

inductive Crash
  | terminated
  | notJoinable
  | nullSocket
  | nullGame
  | unprintable (fault : Fault)
deriving DecidableEq, Repr

namespace InputWorker

def new : InputWorker where
  thread := none
  running := false

def start (w : InputWorker) (callback : InputCallback) : Except Crash InputWorker :=
  if w.running then .ok w
  else
    match w.thread with
    | some _ => .error .terminated
    | none => .ok { thread := some ⟨callback, .testing⟩, running := true }

def moveTo (w : InputWorker) (callback : InputCallback) (position : Position) : InputWorker :=
  { w with thread := some ⟨callback, position⟩ }

end InputWorker

/-! ## The client -/

/-- What the main thread does once `stop` returns. -/
inductive AfterStop
  | start (callback : InputCallback) (calls : List Call)
  | disconnected
  | destroyed
deriving DecidableEq, Repr

/-- Where the main thread is: in `io_context::run` with nothing to do, in `handleRead` with
some calls still to make, in `stop` waiting for the input thread, or past the end of the
client's life. -/
inductive MainThread
  | polling
  | handling (calls : List Call)
  | joining (next : AfterStop)
  | gone
deriving DecidableEq, Repr

structure ConsoleClient where
  client : Client
  /-- whether the pointer is not null -/
  socket : Bool
  /-- the context was stopped -/
  stopped : Bool
  /-- an `async_read` is outstanding -/
  reading : Bool
  inputWorker : InputWorker
  main : MainThread
  outbox : List Message
  screen : List Char
deriving DecidableEq, Repr

/-- How an `async_read` of the client completes. -/
inductive Completion
  | message (m : Message)
  | empty
  | failed
deriving DecidableEq, Repr

/-- The steps of the main thread, and below them those of the input thread. -/
inductive ConsoleEvent
  | read (completion : Completion)
  | call
  | joined
  | leave
  | test
  | type (input : List Char)
  | check
  | callback
  | stopContext
deriving DecidableEq, Repr

namespace ConsoleClient

/-- After `connect`, which starts the first read. -/
def connected : ConsoleClient where
  client := Client.new
  socket := true
  stopped := false
  reading := true
  inputWorker := InputWorker.new
  main := .polling
  outbox := []
  screen := []

def print (c : ConsoleClient) (text : String) : ConsoleClient :=
  { c with screen := c.screen ++ text.toList }

def printInt (c : ConsoleClient) (n : Nat) : ConsoleClient :=
  { c with screen := c.screen ++ intText n }

/-- `*this->getGame()`, and the line break after it. -/
def printGame (c : ConsoleClient) : Except Crash ConsoleClient :=
  match c.client.game with
  | none => .error .nullGame
  | some game =>
      match game.state.toText with
      | .error fault => .error (.unprintable fault)
      | .ok text => .ok ({ c with screen := c.screen ++ text }.print "\n")

def sendMessage (c : ConsoleClient) (message : Message) : ConsoleClient :=
  if c.socket then { c with outbox := c.outbox ++ [message] } else c

def toggleReady (c : ConsoleClient) : ConsoleClient := c.sendMessage c.client.toggleReady

def sendTurn (c : ConsoleClient) (column : UInt8) : ConsoleClient :=
  c.sendMessage (c.client.sendTurn column)

def disconnect (c : ConsoleClient) : Except Crash ConsoleClient :=
  if c.socket then .ok { c with socket := false } else .error .nullSocket

def stopContext (c : ConsoleClient) : ConsoleClient := { c with stopped := true }

def waitForMessages (c : ConsoleClient) : ConsoleClient := { c with reading := c.socket }

/-! ### The main thread -/

def resume (c : ConsoleClient) : AfterStop → Except Crash ConsoleClient
  | .start callback calls =>
      match c.inputWorker.start callback with
      | .ok w => .ok { c with inputWorker := w, main := .handling calls }
      | .error crash => .error crash
  | .disconnected => .ok { c with main := .polling }
  | .destroyed =>
      -- the destructor of the thread, then that of the client
      match c.inputWorker.thread with
      | some _ => .error .terminated
      | none => .ok { c.stopContext with main := .gone }

/-- `inputWorker.stop()`, and what comes after it. -/
def stopInput (c : ConsoleClient) (next : AfterStop) : Except Crash ConsoleClient :=
  if c.inputWorker.running then
    match c.inputWorker.thread with
    | none => .error .notJoinable
    | some _ =>
        .ok { c with inputWorker := { c.inputWorker with running := false }
                     main := .joining next }
  else c.resume next

def start (c : ConsoleClient) (callback : InputCallback) (calls : List Call) :
    Except Crash ConsoleClient :=
  c.resume (.start callback calls)

def restart (c : ConsoleClient) (callback : InputCallback) (calls : List Call) :
    Except Crash ConsoleClient :=
  c.stopInput (.start callback calls)

def onConnect (c : ConsoleClient) (playerId : UInt8) (calls : List Call) :
    Except Crash ConsoleClient :=
  let c := (c.print "You have connected to the game server. Your id is ").printInt playerId.toNat
  let c := c.print "\nInput \"ready\" if you want to play, or \"quit\" to disconnect:\n"
  c.start .ready calls

def onDisconnect (c : ConsoleClient) : Except Crash ConsoleClient :=
  let c := { c with client := { c.client with isConnected := false } }
  let c := c.print "You have disconnected from the game server. Enter anything to exit...\n"
  c.stopInput .disconnected

def onQueueUpdate (c : ConsoleClient) (queuePosition : UInt64) : ConsoleClient :=
  ((c.print "Server is full, you are in position ").printInt queuePosition.toNat).print "\n"

def onGameStart (c : ConsoleClient) (numPlayers firstPlayer cols rows : UInt8) :
    ConsoleClient :=
  let c := (c.print "Your game has started with ").printInt numPlayers.toNat
  let c := (c.print " players.\nPlayer ").printInt firstPlayer.toNat
  let c := (c.print " is first.\nThe board size is ").printInt cols.toNat
  ((c.print "x").printInt rows.toNat).print "\n"

def onGameEnd (c : ConsoleClient) (winner : UInt8) (calls : List Call) :
    Except Crash ConsoleClient :=
  let c :=
    if winner = FourAcross.noWinner then
      c.print "The game has ended because your opponent disconnected.\n"
    else
      ((c.print "The game is over, player").printInt winner.toNat).print " has won\n"
  let c := c.print "Input \"rematch\" if you want to rematch, or \"quit\" to quit:\n"
  c.restart .rematch calls

def onGameUpdate (c : ConsoleClient) (player col : UInt8) : Except Crash ConsoleClient :=
  match c.printGame with
  | .ok c =>
      let c := (c.print "Player ").printInt player.toNat
      .ok (((c.print " dropped a piece in column ").printInt (col.toNat + 1)).print "\n")
  | .error crash => .error crash

/-- The column is not looked at. -/
def onTurnResult (c : ConsoleClient) (result : UInt8) : Except Crash ConsoleClient :=
  if result = turnResultByte .success then (c.print "Your move was accepted\n").printGame
  else if result = turnResultByte .badColumn then
    .ok (c.print "Error: your move was not a valid column\n")
  else if result = turnResultByte .columnFull then
    .ok (c.print "Error: your move was in a full column\n")
  else if result = turnResultByte .gameFinished then
    .ok (c.print "Error: your move wasn't counted as the game is over\n")
  else if result = turnResultByte .wrongPlayer then
    .ok (c.print "Error: it's not your turn\n")
  else .ok (c.print "Your turn was not accepted\n")

/-- The game cannot be null any more once it was printed. -/
def handleTurnRequest (c : ConsoleClient) (calls : List Call) : Except Crash ConsoleClient :=
  match c.printGame, c.client.game with
  | .ok c, some game =>
      let maxColumns := game.getNumColumns
      let c := c.print "It's your turn!\nEnter the column to place your piece (min=1,max="
      ((c.printInt maxColumns.toNat).print "): ").restart (.turn maxColumns) calls
  | .ok _, none => .error .nullGame
  | .error crash, _ => .error crash

/-- What a call that never stops the input thread comes to. -/
def handled (calls : List Call) : Except Crash ConsoleClient → Except Crash ConsoleClient
  | .ok c => .ok { c with main := .handling calls }
  | .error crash => .error crash

/-- The next call, and the calls that are left after it. -/
def perform (c : ConsoleClient) (calls : List Call) : Call → Except Crash ConsoleClient
  | .onConnect playerId => c.onConnect playerId calls
  | .onQueueUpdate position => handled calls (.ok (c.onQueueUpdate position))
  | .onGameStart numPlayers first cols rows =>
      handled calls (.ok (c.onGameStart numPlayers first cols rows))
  | .onGameEnd winner => c.onGameEnd winner calls
  | .onGameUpdate player col => handled calls (c.onGameUpdate player col)
  | .onTurnResult result _ => handled calls (c.onTurnResult result)
  | .handleTurnRequest => c.handleTurnRequest calls
  | .sendMessage message => handled calls (.ok (c.sendMessage message))

/-- The handler of a read. What it throws leaves `run` and `connect`, and where it is
caught the client is destroyed. -/
def handleRead (c : ConsoleClient) : Completion → Except Crash ConsoleClient
  | .message m =>
      match c.client.handleRead m with
      | .ok (client, calls) => .ok { c with client := client, main := .handling calls }
      | .error .nullGame => .error .nullGame
      | .error (.thrown _) => c.stopInput .destroyed
  | .empty => .ok c
  | .failed => c.onDisconnect

/-! ### The input thread -/

/-- The callbacks that wait for one word. -/
def confirm (c : ConsoleClient) (input : List Char) (word request farewell : String) :
    Except Crash (ConsoleClient × Position) :=
  if input = word.toList then .ok ((c.print request).toggleReady, .returned)
  else if input = "quit".toList then
    match (c.print farewell).disconnect with
    | .ok c => .ok (c, .stopping)
    | .error crash => .error crash
  else .ok (c.print "Unrecognized input\n", .testing)

/-- One run of a callback, and where the input thread is after it. -/
def callback (c : ConsoleClient) (input : List Char) :
    InputCallback → Except Crash (ConsoleClient × Position)
  | .ready => c.confirm input "ready" "Sending ready to server\n" "Exiting\n"
  | .rematch => c.confirm input "rematch" "Sending rematch request to server\n" "Exiting...\n"
  | .turn maxColumns =>
      match turnColumn maxColumns input with
      | some column => .ok (c.sendTurn column, .returned)
      | none => .ok (c.print "Invalid input, try again: ", .testing)

def moveTo (c : ConsoleClient) (callback : InputCallback) (position : Position) :
    ConsoleClient :=
  { c with inputWorker := c.inputWorker.moveTo callback position }

/-! ### The steps -/

def mainStep (c : ConsoleClient) : ConsoleEvent → Option (Except Crash ConsoleClient)
  | .read completion =>
      if c.main = .polling ∧ c.reading ∧ ¬c.stopped then
        some ({ c with reading := false }.handleRead completion)
      else none
  | .call =>
      match c.main with
      | .handling [] => some (.ok { c.waitForMessages with main := .polling })
      | .handling (call :: calls) => some (c.perform calls call)
      | _ => none
  | .joined =>
      match c.main, c.inputWorker.thread with
      | .joining next, some ⟨_, .returned⟩ =>
          some ({ c with inputWorker := { c.inputWorker with thread := none } }.resume next)
      | _, _ => none
  | .leave =>
      -- `run` returns when it was stopped or has nothing left to wait for
      if c.main = .polling ∧ (c.stopped ∨ ¬c.reading) then some (c.stopInput .destroyed)
      else none
  | _ => none

/-- A step of the input thread at this position. -/
def inputStep (c : ConsoleClient) (cb : InputCallback) :
    Position → ConsoleEvent → Option (Except Crash ConsoleClient)
  | .testing, .test =>
      some (.ok (c.moveTo cb (if c.inputWorker.running then .reading else .returned)))
  | .reading, .type input => some (.ok (c.moveTo cb (.checking input)))
  | .checking input, .check =>
      some (.ok (c.moveTo cb (if c.inputWorker.running then .calling input else .testing)))
  | .calling input, .callback =>
      match c.callback input cb with
      | .ok (c, position) => some (.ok (c.moveTo cb position))
      | .error crash => some (.error crash)
  | .stopping, .stopContext => some (.ok (c.stopContext.moveTo cb .testing))
  | _, _ => none

def step (c : ConsoleClient) (e : ConsoleEvent) : Option (Except Crash ConsoleClient) :=
  match c.mainStep e, c.inputWorker.thread with
  | some result, _ => some result
  | none, some ⟨cb, position⟩ => c.inputStep cb position e
  | none, none => none

/-- The steps that do not end in a crash. -/
def next (c : ConsoleClient) (e : ConsoleEvent) : Option ConsoleClient :=
  match c.step e with
  | some (.ok c') => some c'
  | _ => none

end ConsoleClient

end ConnectDisks.Net
