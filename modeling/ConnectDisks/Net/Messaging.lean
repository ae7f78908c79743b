import ConnectDisks.Game.FourAcross

/-!
# Messages

Server and client exchange one fixed-size record: a type byte and sixteen bytes
of data, all zero until a sender sets some. `MessageType.other` stands for a
type byte with no enumerator, which a peer may send and both sides ignore.

The messages the two sides build are given here as functions of their fields,
byte for byte, and beside each the lemmas that read the fields back.
-/

namespace ConnectDisks.Net

open ConnectDisks.Game

inductive MessageType
  | error
  | connected
  | ping
  | pong
  | inQueue
  | gameStart
  | gameEnd
  | ready
  | takeTurn
  | turnResult
  | update
  | other (value : UInt8)
deriving DecidableEq, Repr

structure Message where
  type : MessageType
  data : Vector UInt8 16
deriving DecidableEq, Repr

/-- The underlying value of a turn result, as `toUnderlyingType` gives it. -/
def turnResultByte : TurnResult → UInt8
  | .error => 0
  | .success => 1
  | .wrongPlayer => 2
  | .badColumn => 3
  | .columnFull => 4
  | .gameFinished => 5

@[simp] theorem turnResultByte_inj {a b : TurnResult} :
    turnResultByte a = turnResultByte b ↔ a = b := by
  cases a <;> cases b <;> decide

/-- The column byte of a `takeTurn` message that requests a turn,
`static_cast<uint8_t>(-1)`. -/
def requestTurn : UInt8 := 255

/-- The sixteen positions are written as numerals. -/
instance instNeZeroDataSize : @NeZero Nat Zero.ofOfNat0 16 := Nat.instNeZeroSucc

namespace Message

/-- `new Message{}` with its type set. -/
def blank (type : MessageType) : Message where
  type := type
  data := Vector.replicate 16 0

/-- `message->data[i]`. -/
def get (m : Message) (i : Fin 16) : UInt8 := m.data.get i

/-- `message->data[i] = v`. -/
def set (m : Message) (i : Fin 16) (v : UInt8) : Message :=
  { m with data := m.data.set i v }

/-- Byte `i` of a 64-bit number in big-endian order. -/
def bigEndianByte (n : UInt64) (i : ℕ) : UInt8 :=
  UInt8.ofNat (n.toNat >>> (8 * (7 - i)))

def connected (id : UInt8) : Message :=
  (blank .connected).set 0 id

def ping : Message := blank .ping

def pong : Message := blank .pong

/-- The position fills the first eight bytes, most significant first. -/
def inQueue (position : UInt64) : Message :=
  (List.finRange 8).foldl
    (fun m (i : Fin 8) => m.set (i.castAdd 8) (bigEndianByte position i))
    (blank .inQueue)

def gameStart (numPlayers numColumns numRows first : UInt8) : Message :=
  ((((blank .gameStart).set 0 numPlayers).set 1 numColumns).set 2 numRows).set 3 first

def gameEnd (winner : UInt8) : Message :=
  (blank .gameEnd).set 0 winner

def ready (id : UInt8) : Message :=
  (blank .ready).set 0 id

def takeTurn (id column : UInt8) : Message :=
  ((blank .takeTurn).set 0 id).set 1 column

def turnResult (result : TurnResult) (column : UInt8) : Message :=
  ((blank .turnResult).set 0 (turnResultByte result)).set 1 column

def update (id column : UInt8) : Message :=
  ((blank .update).set 0 id).set 1 column

@[simp] theorem set_type (m : Message) (i : Fin 16) (v : UInt8) :
    (m.set i v).type = m.type := rfl

@[simp] theorem get_set (m : Message) (i j : Fin 16) (v : UInt8) :
    (m.set i v).get j = if i = j then v else m.get j := by
  simp only [Fin.ext_iff]
  exact Vector.getElem_set i.isLt j.isLt

@[simp] theorem connected_type (id : UInt8) : (connected id).type = .connected := rfl

@[simp] theorem connected_id (id : UInt8) : (connected id).get 0 = id := rfl

@[simp] theorem ping_type : ping.type = .ping := rfl

@[simp] theorem pong_type : pong.type = .pong := rfl

@[simp] theorem inQueue_type (position : UInt64) : (inQueue position).type = .inQueue := rfl

@[simp] theorem inQueue_get (position : UInt64) (i : Fin 8) :
    (inQueue position).get (i.castAdd 8) = bigEndianByte position i := by
  match i with
  | 0 | 1 | 2 | 3 | 4 | 5 | 6 | 7 => rfl

@[simp] theorem gameStart_type (n c r f : UInt8) : (gameStart n c r f).type = .gameStart :=
  rfl

@[simp] theorem gameEnd_type (w : UInt8) : (gameEnd w).type = .gameEnd := rfl

@[simp] theorem gameEnd_winner (w : UInt8) : (gameEnd w).get 0 = w := rfl

@[simp] theorem ready_type (id : UInt8) : (ready id).type = .ready := rfl

@[simp] theorem ready_id (id : UInt8) : (ready id).get 0 = id := rfl

@[simp] theorem takeTurn_type (id c : UInt8) : (takeTurn id c).type = .takeTurn := rfl

@[simp] theorem takeTurn_id (id c : UInt8) : (takeTurn id c).get 0 = id := rfl

@[simp] theorem takeTurn_column (id c : UInt8) : (takeTurn id c).get 1 = c := rfl

@[simp] theorem turnResult_type (r : TurnResult) (c : UInt8) :
    (turnResult r c).type = .turnResult := rfl

@[simp] theorem update_type (id c : UInt8) : (update id c).type = .update := rfl

end Message

end ConnectDisks.Net
