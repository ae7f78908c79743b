import ConnectDisks.Game.FourAcross

/-!
# Games as text

The two conversions to `std::string`, which is what a player sees of a game. A text is
the list of its characters.

The top row comes first, and a line of dashes before every other one. A row is read
through `getRow`, which checks its index, and then cell by cell through an unchecked
index; the index of the top row is `numRows - 1`, back in a byte.
-/

namespace ConnectDisks.Game

/-- What `<<` writes for an `int`. -/
def intText : Int → List Char
  | .ofNat n => Nat.toDigits 10 n
  | .negSucc n => '-' :: Nat.toDigits 10 (n + 1)

namespace Board

/-- `static_cast<int>(rowView[col])`, written out. -/
def cellText (rowView : List UInt8) (col : Nat) : Except Fault (List Char) := do
  let cell ← vectorAt rowView (UInt8.ofNat col)
  return intText cell.toNat

/-- A cell that is not the first of its row. -/
def nextCellText (rowView : List UInt8) (col : Nat) : Except Fault (List Char) := do
  let cell ← cellText rowView col
  return " | ".toList ++ cell

/-- One row as a line. -/
def rowText (b : Board) (row : UInt8) : Except Fault (List Char) := do
  let rowView ← b.getRow row
  let first ← cellText rowView 0
  let rest ← (List.range' 1 (b.numColumns.toNat - 1)).mapM (nextCellText rowView)
  return ' ' :: first ++ rest.flatten ++ ['\n']

def separator (b : Board) : List Char :=
  List.replicate (3 * b.numColumns.toNat + (b.numColumns.toNat - 1)) '-' ++ ['\n']

/-- A row that is not the top row. -/
def nextRowText (b : Board) (row : Nat) : Except Fault (List Char) := do
  let line ← b.rowText (UInt8.ofNat row)
  return b.separator ++ line

/-- `operator std::string`. -/
def toText (b : Board) : Except Fault (List Char) := do
  let top ← b.rowText (b.numRows - 1)
  let rest ← (List.range (b.numRows.toNat - 1)).reverse.mapM b.nextRowText
  return top ++ rest.flatten

end Board

namespace FourAcross

/-- What is printed after the board. The number of turns is cast from `uint32_t` to
`int`. -/
def statusText (g : FourAcross) : List Char :=
  "\nCurrent player: ".toList ++ intText g.currentPlayer.toNat ++
    " Next player: ".toList ++ intText g.getNextPlayer.toNat ++
    "\nNum turns: ".toList ++ intText g.numTurns.toInt32.toInt ++ ['\n'] ++
    if g.hasWinner then "Winner: ".toList ++ intText g.winner.toNat ++ ['\n'] else []

/-- `operator std::string`. -/
def toText (g : FourAcross) : Except Fault (List Char) := do
  let board ← g.board.toText
  return board ++ g.statusText

end FourAcross

end ConnectDisks.Game
