import ConnectDisks.Game.Moves

/-!
# What a board is for

A board is a row of stacks. A disk goes on top of a stack that is not as high as the
board, and a cell above a stack is empty. `Stacks` says this without cells and without
counters, and `values` says what every function of a board answers in these terms, and
what a board answers that was moved from: it has no columns and no rows.
-/

namespace ConnectDisks.Game

open Lib

/-- The stacks from left to right, each from the bottom, with the dimensions the
constructor accepts. -/
@[ext] structure Stacks where
  numColumns : UInt8
  numRows : UInt8
  piles : List (List UInt8)
  minColumns : 5 ≤ numColumns.toNat
  minRows : 4 ≤ numRows.toNat
  wider : numRows.toNat < numColumns.toNat
  length : piles.length = numColumns.toNat
  height_le : ∀ stack ∈ piles, stack.length ≤ numRows.toNat

namespace Stacks

def new (numColumns numRows : UInt8) : Except Answer Stacks :=
  if h : 5 ≤ numColumns.toNat ∧ 4 ≤ numRows.toNat ∧ numRows.toNat < numColumns.toNat then
    .ok {
      numColumns := numColumns
      numRows := numRows
      piles := List.replicate numColumns.toNat []
      minColumns := h.1
      minRows := h.2.1
      wider := h.2.2
      length := List.length_replicate ..
      height_le := fun stack hs => by
        rw [List.eq_of_mem_replicate hs]
        exact Nat.zero_le _ }
  else .error (.thrown (.invalidArgument "Board::Board: invalid board dimensions"))

def stack (s : Stacks) (column : UInt8) : List UInt8 := s.piles.getD column.toNat []

/-- A disk on top of one stack. -/
def push (s : Stacks) (column playerNum : UInt8)
    (h : (s.stack column).length < s.numRows.toNat) : Stacks :=
  { s with
    piles := s.piles.set column.toNat (s.stack column ++ [playerNum])
    length := (List.length_set ..).trans s.length
    height_le := fun stack hs => by
      rcases List.mem_or_eq_of_mem_set hs with hmem | rfl
      · exact s.height_le stack hmem
      · rw [List.length_append]
        exact h }

/-- The cell of a stack at a row, empty above the top. -/
def cell (stack : List UInt8) (row : Nat) : UInt8 := stack.getD row Board.emptySlot

/-- The cells of a row. -/
def row (s : Stacks) (r : Nat) : List UInt8 := s.piles.map (cell · r)

/-- What a function throws at an index outside the board. -/
def outside (what : String) : Answer := .thrown (.outOfRange what)

/-- A line of numbers between bars, as it is printed. -/
def line (cells : List UInt8) : List Char :=
  ' ' :: " | ".toList.intercalate (cells.map fun cell => intText cell.toNat) ++ ['\n']

/-- The rows from the top down, with dashes between them. -/
def picture (s : Stacks) : List Char :=
  (List.replicate (4 * s.numColumns.toNat - 1) '-' ++ ['\n']).intercalate
    ((List.range s.numRows.toNat).reverse.map fun r => line (s.row r))

def call (s : Stacks) : Board.Call → Answer × Stacks
  | .dropPieceInColumn column playerNum =>
      if column < s.numColumns then
        if h : (s.stack column).length < s.numRows.toNat then
          (.bool true, s.push column playerNum h)
        else (.bool false, s)
      else (outside "Board::dropPieceInColumn: index out of range", s)
  | .isFull => (.bool (s.piles.all fun stack => stack.length == s.numRows.toNat), s)
  | .isColumnFull column =>
      (if column < s.numColumns then .bool ((s.stack column).length == s.numRows.toNat)
        else outside "Board::isColumnFull: index out of range", s)
  | .getDiskOwnerAt column row =>
      (if column < s.numColumns ∧ row < s.numRows then .byte (cell (s.stack column) row.toNat)
        else outside "Board::getPieceOwnerAt: index out of range", s)
  | .getColumn column =>
      (if column < s.numColumns then
          .bytes ((List.range s.numRows.toNat).map (cell (s.stack column)))
        else outside "Board::getColumn: index out of range", s)
  | .getColumnHeight column =>
      (if column < s.numColumns then .byte (UInt8.ofNat (s.stack column).length)
        else outside "Board::getColumn: index out of range", s)
  | .getRow row =>
      (if row < s.numRows then .bytes (s.row row.toNat)
        else outside "Board::getRow: index out of range", s)
  | .getNumColumns => (.byte s.numColumns, s)
  | .getNumRows => (.byte s.numRows, s)
  | .toText => (.text s.picture, s)

/-- What is left of a board that was moved from: no column and no row to look at. -/
def husk : Board.Call → Answer
  | .dropPieceInColumn _ _ => outside "Board::dropPieceInColumn: index out of range"
  | .isFull => .bool true
  | .isColumnFull _ => outside "Board::isColumnFull: index out of range"
  | .getDiskOwnerAt _ _ => outside "Board::getPieceOwnerAt: index out of range"
  | .getColumn _ => outside "Board::getColumn: index out of range"
  | .getColumnHeight _ => outside "Board::getColumn: index out of range"
  | .getRow _ => outside "Board::getRow: index out of range"
  | .getNumColumns => .byte 0
  | .getNumRows => .byte 0
  | .toText => outside "Board::getRow: index out of range"

def values : Values Stacks (UInt8 × UInt8) Board.Call Answer where
  make args := new args.1 args.2
  call := call
  husk := husk

end Stacks

end ConnectDisks.Game
