import Mathlib.Data.List.Basic

/-!
# The board

`Board` holds a grid of bytes, one list per column with row 0 at the bottom, and
the number of disks in each column. Every index and every dimension is a byte,
so that the arithmetic wraps where the source's does.

The source reads its vectors in two ways: through accessors that check the
index and throw, and through `operator[]`, which does not check. `Fault` keeps
the two apart. A thrown exception can be caught, and `FourAcross::takeTurn`
does catch one kind; an unchecked access outside a vector has no defined
outcome, and no caller can recover from it.
-/

namespace ConnectDisks.Game

/-- How a call can end without a value. `invalidArgument` and `outOfRange` are
the two exceptions the source throws, `undefined` is an unchecked access outside
a vector, and `outOfFuel` is a loop cut short by its budget. -/
inductive Fault
  | invalidArgument (what : String)
  | outOfRange (what : String)
  | undefined
  | outOfFuel
deriving DecidableEq, Repr

/-- `vector::operator[]`, which does not check its index. -/
def vectorAt (xs : List UInt8) (i : UInt8) : Except Fault UInt8 :=
  match xs[i.toNat]? with
  | some x => .ok x
  | none => .error .undefined

structure Board where
  numColumns : UInt8
  numRows : UInt8
  columns : List (List UInt8)
  rowIndices : List UInt8
deriving DecidableEq, Repr

namespace Board

def emptySlot : UInt8 := 0

def minColumns : UInt8 := 5

def minRows : UInt8 := 4

/-- The constructor. The subtraction is on promoted integers, so it does not
wrap. -/
def new (numColumns numRows : UInt8) : Except Fault Board :=
  if numColumns < minColumns ∨ numRows < minRows ∨
      (numColumns.toNat : Int) - numRows.toNat < 1 then
    .error (.invalidArgument "Board::Board: invalid board dimensions")
  else
    .ok {
      numColumns := numColumns
      numRows := numRows
      columns := List.replicate numColumns.toNat
        (List.replicate numRows.toNat emptySlot)
      rowIndices := List.replicate numColumns.toNat 0 }

def isColumnInRange (b : Board) (column : UInt8) : Bool :=
  decide (column < b.numColumns)

def isRowInRange (b : Board) (row : UInt8) : Bool :=
  decide (row < b.numRows)

def isColumnFullInternal (b : Board) (column : UInt8) : Except Fault Bool := do
  let height ← vectorAt b.rowIndices column
  return height == b.numRows

/-- The loop of `isFull` from column `i` on. -/
def isFullFrom (b : Board) : Nat → UInt8 → Except Fault Bool
  | 0, _ => .error .outOfFuel
  | fuel + 1, i =>
      if i < b.numColumns then do
        if ← b.isColumnFullInternal i then
          b.isFullFrom fuel (i + 1)
        else
          return false
      else
        return true

def isFull (b : Board) : Except Fault Bool :=
  b.isFullFrom 256 0

def isColumnFull (b : Board) (column : UInt8) : Except Fault Bool := do
  if !b.isColumnInRange column then
    throw (.outOfRange "Board::isColumnFull: index out of range")
  b.isColumnFullInternal column

/-- Drops a disk, answering `false` on a full column. `columns[column]` and the
cell in it are unchecked accesses. -/
def dropPieceInColumn (b : Board) (column playerNum : UInt8) :
    Except Fault (Bool × Board) := do
  if !b.isColumnInRange column then
    throw (.outOfRange "Board::dropPieceInColumn: index out of range")
  if ← b.isColumnFullInternal column then
    return (false, b)
  let height ← vectorAt b.rowIndices column
  match b.columns[column.toNat]? with
  | none => throw .undefined
  | some cells =>
      let _ ← vectorAt cells height
      return (true, { b with
        columns := b.columns.set column.toNat (cells.set height.toNat playerNum)
        rowIndices := b.rowIndices.set column.toNat (height + 1) })

def getDiskOwnerAt (b : Board) (column row : UInt8) : Except Fault UInt8 := do
  if !b.isColumnInRange column || !b.isRowInRange row then
    throw (.outOfRange "Board::getPieceOwnerAt: index out of range")
  match b.columns[column.toNat]? with
  | none => throw .undefined
  | some cells => vectorAt cells row

def getColumn (b : Board) (column : UInt8) : Except Fault (List UInt8) := do
  if !b.isColumnInRange column then
    throw (.outOfRange "Board::getColumn: index out of range")
  match b.columns[column.toNat]? with
  | none => throw .undefined
  | some cells => return cells

def getColumnHeight (b : Board) (column : UInt8) : Except Fault UInt8 := do
  if !b.isColumnInRange column then
    throw (.outOfRange "Board::getColumn: index out of range")
  vectorAt b.rowIndices column

def getRow (b : Board) (row : UInt8) : Except Fault (List UInt8) := do
  if !b.isRowInRange row then
    throw (.outOfRange "Board::getRow: index out of range")
  b.columns.mapM fun column => vectorAt column row

end Board

end ConnectDisks.Game
