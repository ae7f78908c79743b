import ConnectDisks.Game.Board

/-!
# A game of Four Across

The rules as the source writes them: `takeTurn` with its order of refusals, and
`checkForWinner` with its eight scans out of the last move.

The eight loops differ only in where their two indices go, in whether they read
the board through an unchecked index or through `getDiskOwnerAt`, and in the
count they start from, so they are one `scan` at eight pairs of headings. An
index that goes up is compared with the dimension, one that goes down with
`static_cast<uint8_t>(-1)`, which is 255, and all steps wrap. A loop that
reaches a count of four returns from the function; one that stops hands its
count to the loop that runs the other way, and only to that one.
-/

namespace ConnectDisks.Game

inductive TurnResult
  | error
  | success
  | wrongPlayer
  | badColumn
  | columnFull
  | gameFinished
deriving DecidableEq, Repr

structure FourAcross where
  numTurns : UInt32
  numPlayers : UInt8
  currentPlayer : UInt8
  lastMove : UInt8 × UInt8
  winner : UInt8
  board : Board
deriving DecidableEq, Repr

/-- Where one of the two indices of a scan goes from one round to the next. -/
inductive Heading
  | stay
  | up
  | down
deriving DecidableEq, Repr

/-- `++i` and `--i` on a byte. -/
def Heading.advance : Heading → UInt8 → UInt8
  | .stay, i => i
  | .up, i => i + 1
  | .down, i => i - 1

/-- The loop condition on one index: `i < bound` going up, and
`i != static_cast<uint8_t>(-1)` going down. -/
def Heading.inside : Heading → UInt8 → UInt8 → Bool
  | .stay, _, _ => true
  | .up, bound, i => decide (i < bound)
  | .down, _, i => i != 255

/-- How a scan ends: by the return at a count of four, or by leaving the loop
with the count it had. -/
inductive Scan
  | four
  | stopped (count : Nat)
deriving DecidableEq, Repr

namespace FourAcross

def noWinner : UInt8 := Board.emptySlot

def defaultFirstPlayer : UInt8 := 1

def minNumPlayers : UInt8 := 2

/-- The constructor. The test on `firstPlayer` reads the argument `numPlayers`,
not the member that was just raised to the minimum. -/
def new (numPlayers firstPlayer numColumns numRows : UInt8) :
    Except Fault FourAcross := do
  let board ← Board.new numColumns numRows
  return {
    numTurns := 0
    numPlayers := if numPlayers ≥ minNumPlayers then numPlayers else minNumPlayers
    currentPlayer :=
      if firstPlayer > defaultFirstPlayer ∧ firstPlayer ≤ numPlayers then firstPlayer
      else defaultFirstPlayer
    lastMove := (0, 0)
    winner := noWinner
    board := board }

def hasWinner (g : FourAcross) : Bool :=
  g.winner != noWinner

def boardFull (g : FourAcross) : Except Fault Bool :=
  g.board.isFull

def getWinner (g : FourAcross) : UInt8 :=
  g.winner

def getCurrentPlayer (g : FourAcross) : UInt8 :=
  g.currentPlayer

def getNumTurns (g : FourAcross) : UInt32 :=
  g.numTurns

def getNumColumns (g : FourAcross) : UInt8 :=
  g.board.numColumns

def getNumRows (g : FourAcross) : UInt8 :=
  g.board.numRows

/-- One scanning loop of `checkForWinner`, entered at `col` and `row` with
`count` disks already in the chain. `read` is how this loop looks at a cell. -/
def scan (b : Board) (read : UInt8 → UInt8 → Except Fault UInt8)
    (colHeading rowHeading : Heading) (lastPlayer : UInt8) :
    Nat → UInt8 → UInt8 → Nat → Except Fault Scan
  | 0, _, _, _ => .error .outOfFuel
  | fuel + 1, col, row, count =>
      if rowHeading.inside b.numRows row && colHeading.inside b.numColumns col then do
        let current ← read col row
        if current != lastPlayer then
          return .stopped count
        else if count + 1 == 4 then
          return .four
        else
          scan b read colHeading rowHeading lastPlayer fuel
            (colHeading.advance col) (rowHeading.advance row) (count + 1)
      else
        return .stopped count

/-- Two loops that share a count: away from the last move one way, then the
other way. Answers whether either returned. -/
def scanBoth (g : FourAcross) (read : UInt8 → UInt8 → Except Fault UInt8)
    (lastPlayer : UInt8) (col₁ row₁ col₂ row₂ : Heading) : Except Fault Bool := do
  let (lastColumn, lastRow) := g.lastMove
  match ← scan g.board read col₁ row₁ lastPlayer 256
      (col₁.advance lastColumn) (row₁.advance lastRow) 1 with
  | .four => return true
  | .stopped count =>
      match ← scan g.board read col₂ row₂ lastPlayer 256
          (col₂.advance lastColumn) (row₂.advance lastRow) count with
      | .four => return true
      | .stopped _ => return false

def checkForWinner (g : FourAcross) : Except Fault UInt8 := do
  let (lastColumn, lastRow) := g.lastMove
  let lastPlayer ← g.board.getDiskOwnerAt lastColumn lastRow
  -- up the column, then down the column
  let column ← g.board.getColumn lastColumn
  if ← g.scanBoth (fun _ row => vectorAt column row) lastPlayer
      .stay .up .stay .down then
    return lastPlayer
  -- left to right, then right to left
  let row ← g.board.getRow lastRow
  if ← g.scanBoth (fun col _ => vectorAt row col) lastPlayer
      .up .stay .down .stay then
    return lastPlayer
  -- up-right diagonal, then down-left
  if ← g.scanBoth g.board.getDiskOwnerAt lastPlayer .up .up .down .down then
    return lastPlayer
  -- up-left diagonal, then down-right
  if ← g.scanBoth g.board.getDiskOwnerAt lastPlayer .down .up .up .down then
    return lastPlayer
  return noWinner

/-- The increment may overflow to 0. -/
def getNextPlayer (g : FourAcross) : UInt8 :=
  let nextPlayer := g.currentPlayer + 1
  if nextPlayer > g.numPlayers ∨ nextPlayer = 0 then defaultFirstPlayer
  else nextPlayer

/-- Takes a turn. The `try` block catches `std::out_of_range` wherever it comes
from and answers `badColumn`, keeping whatever the block had already changed;
any other fault gets through. -/
def takeTurn (g : FourAcross) (player column : UInt8) :
    Except Fault (FourAcross × TurnResult) :=
  if g.winner ≠ noWinner then
    .ok (g, .gameFinished)
  else if g.currentPlayer ≠ player then
    .ok (g, .wrongPlayer)
  else
    match g.board.dropPieceInColumn column player with
    | .error (.outOfRange _) => .ok (g, .badColumn)
    | .error fault => .error fault
    | .ok (false, _) => .ok (g, .columnFull)
    | .ok (true, board) =>
        let g := { g with board := board }
        let g := { g with currentPlayer := g.getNextPlayer }
        match g.board.getColumnHeight column with
        | .error (.outOfRange _) => .ok (g, .badColumn)
        | .error fault => .error fault
        | .ok height =>
            let g := { g with
              lastMove := (column, height - 1)
              numTurns := g.numTurns + 1 }
            match g.checkForWinner with
            | .error (.outOfRange _) => .ok (g, .badColumn)
            | .error fault => .error fault
            | .ok winner => .ok ({ g with winner := winner }, .success)

end FourAcross

end ConnectDisks.Game
