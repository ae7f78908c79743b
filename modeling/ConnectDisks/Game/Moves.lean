import ConnectDisks.Game.Text
import ConnectDisks.Lib.Moves

/-!
# Boards and games as objects

Everything the two classes offer to their users: the constructors, the member
functions, and the moves, which are the only way a board or a game gets from one
variable to another. A call answers what the function returns or throws.

A move takes the vectors along and leaves zeros in all the other fields of its source.
What a vector holds after it was moved from by assignment is not specified, so `left`
says it, given the target and the source; the move constructor of a vector leaves it
empty. Where target and source are one object the zeros are written last.
-/

namespace ConnectDisks.Game

open Lib

/-- What a function returns or throws. -/
inductive Answer
  | bool (value : Bool)
  | byte (value : UInt8)
  | number (value : UInt32)
  | bytes (values : List UInt8)
  | text (value : List Char)
  | result (value : TurnResult)
  | thrown (fault : Fault)
deriving DecidableEq, Repr

def Answer.of {τ : Type} (wrap : τ → Answer) : Except Fault τ → Answer
  | .ok value => wrap value
  | .error fault => .thrown fault

/-- The two vectors of a board. -/
abbrev Vectors := List (List UInt8) × List UInt8

namespace Board

inductive Call
  | dropPieceInColumn (column playerNum : UInt8)
  | isFull
  | isColumnFull (column : UInt8)
  | getDiskOwnerAt (column row : UInt8)
  | getColumn (column : UInt8)
  | getColumnHeight (column : UInt8)
  | getRow (row : UInt8)
  | getNumColumns
  | getNumRows
  | toText
deriving DecidableEq, Repr

def call (b : Board) : Call → Answer × Board
  | .dropPieceInColumn column playerNum =>
      match b.dropPieceInColumn column playerNum with
      | .ok (dropped, b) => (.bool dropped, b)
      | .error fault => (.thrown fault, b)
  | .isFull => (.of .bool b.isFull, b)
  | .isColumnFull column => (.of .bool (b.isColumnFull column), b)
  | .getDiskOwnerAt column row => (.of .byte (b.getDiskOwnerAt column row), b)
  | .getColumn column => (.of .bytes (b.getColumn column), b)
  | .getColumnHeight column => (.of .byte (b.getColumnHeight column), b)
  | .getRow row => (.of .bytes (b.getRow row), b)
  | .getNumColumns => (.byte b.numColumns, b)
  | .getNumRows => (.byte b.numRows, b)
  | .toText => (.of .text b.toText, b)

/-- The move constructor. -/
def moveNew (board : Board) : Board × Board :=
  (board, { numColumns := 0, numRows := 0, columns := [], rowIndices := [] })

/-- Move assignment. -/
def moveInto (left : Board → Board → Vectors) (b board : Board) : Board × Board :=
  (board, { numColumns := 0, numRows := 0
            columns := (left b board).1, rowIndices := (left b board).2 })

/-- Move assignment of a board to itself. -/
def moveSelf (left : Board → Board → Vectors) (b : Board) : Board where
  numColumns := 0
  numRows := 0
  columns := (left b b).1
  rowIndices := (left b b).2

def movable (left : Board → Board → Vectors) : Movable Board (UInt8 × UInt8) Call Answer where
  make args := (Board.new args.1 args.2).mapError .thrown
  call := call
  moveNew := moveNew
  moveInto := moveInto left
  moveSelf := moveSelf left

end Board

namespace FourAcross

inductive Call
  | takeTurn (player column : UInt8)
  | hasWinner
  | boardFull
  | getWinner
  | getCurrentPlayer
  | getNumPlayers
  | getNumTurns
  | getNumColumns
  | getNumRows
  | toText
deriving DecidableEq, Repr

def call (g : FourAcross) : Call → Answer × FourAcross
  | .takeTurn player column =>
      match g.takeTurn player column with
      | .ok (g, result) => (.result result, g)
      | .error fault => (.thrown fault, g)
  | .hasWinner => (.bool g.hasWinner, g)
  | .boardFull => (.of .bool g.boardFull, g)
  | .getWinner => (.byte g.getWinner, g)
  | .getCurrentPlayer => (.byte g.getCurrentPlayer, g)
  | .getNumPlayers => (.byte g.numPlayers, g)
  | .getNumTurns => (.number g.getNumTurns, g)
  | .getNumColumns => (.byte g.getNumColumns, g)
  | .getNumRows => (.byte g.getNumRows, g)
  | .toText => (.of .text g.toText, g)

/-- What the moves write into their source, around what is left of its board. -/
def husk (board : Board) : FourAcross where
  numTurns := 0
  numPlayers := 0
  currentPlayer := 0
  lastMove := (0, 0)
  winner := noWinner
  board := board

/-- The move constructor. -/
def moveNew (connect : FourAcross) : FourAcross × FourAcross :=
  ({ connect with board := connect.board.moveNew.1 }, husk connect.board.moveNew.2)

/-- Move assignment. -/
def moveInto (left : Board → Board → Vectors) (g connect : FourAcross) :
    FourAcross × FourAcross :=
  ({ connect with board := (Board.moveInto left g.board connect.board).1 },
    husk (Board.moveInto left g.board connect.board).2)

/-- Move assignment of a game to itself. -/
def moveSelf (left : Board → Board → Vectors) (g : FourAcross) : FourAcross :=
  husk (Board.moveSelf left g.board)

def movable (left : Board → Board → Vectors) :
    Movable FourAcross (UInt8 × UInt8 × UInt8 × UInt8) Call Answer where
  make args := (FourAcross.new args.1 args.2.1 args.2.2.1 args.2.2.2).mapError .thrown
  call := call
  moveNew := moveNew
  moveInto := moveInto left
  moveSelf := moveSelf left

end FourAcross

end ConnectDisks.Game
