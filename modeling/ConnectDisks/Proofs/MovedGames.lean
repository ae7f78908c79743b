import ConnectDisks.Game.Valid
import ConnectDisks.Proofs.Stacks

/-!
# A game is what was played in it

A game may be played in one variable, moved to another and played on there. What it
answers depends on the calls that were made on the game, wherever it was at the time
(`games_are_values`); a variable it was moved out of refuses every turn, of any player
in any column, has no winner, and says its board is full.

The value is a `ValidGame`, so a call never throws: the only exception is the text of a
game that was moved from, which asks its board for the row below row 0.
-/

namespace ConnectDisks.Game

open Lib

namespace ValidGame

/-- What the functions of a game answer. -/
def call (g : ValidGame) : FourAcross.Call → Answer × ValidGame
  | .takeTurn player column =>
      (.result (g.takeTurn player column).2, (g.takeTurn player column).1)
  | .hasWinner => (.bool g.hasWinner, g)
  | .boardFull => (.bool g.boardFull, g)
  | .getWinner => (.byte g.getWinner, g)
  | .getCurrentPlayer => (.byte g.getCurrentPlayer, g)
  | .getNumPlayers => (.byte g.state.numPlayers, g)
  | .getNumTurns => (.number g.state.numTurns, g)
  | .getNumColumns => (.byte g.getNumColumns, g)
  | .getNumRows => (.byte g.getNumRows, g)
  | .toText => (.of .text g.state.toText, g)

/-- What they answer for a game that was moved from. -/
def husk : FourAcross.Call → Answer
  | .takeTurn player _ => .result (if player = 0 then .badColumn else .wrongPlayer)
  | .hasWinner => .bool false
  | .boardFull => .bool true
  | .getWinner => .byte FourAcross.noWinner
  | .getCurrentPlayer => .byte 0
  | .getNumPlayers => .byte 0
  | .getNumTurns => .number 0
  | .getNumColumns => .byte 0
  | .getNumRows => .byte 0
  | .toText => Stacks.outside "Board::getRow: index out of range"

def values : Values ValidGame (UInt8 × UInt8 × UInt8 × UInt8) FourAcross.Call Answer where
  make args := (ValidGame.new args.1 args.2.1 args.2.2.1 args.2.2.2).mapError .thrown
  call := call
  husk := husk

/-- A game that some calls lead to, or one that was moved from. -/
def Means (g : FourAcross) : Option ValidGame → Prop
  | some game => g = game.state
  | none => ∃ board : Board, g = FourAcross.husk board ∧ board.numColumns = 0 ∧ board.numRows = 0

theorem call_state (game : ValidGame) (op : FourAcross.Call) :
    (game.state.call op).1 = (game.call op).1 ∧
      (game.state.call op).2 = (game.call op).2.state := by
  cases op with
  | takeTurn player column =>
      simp only [FourAcross.call, call, game.takeTurn_eq player column, and_self]
  | boardFull =>
      simp only [FourAcross.call, call, game.boardFull_eq, Answer.of, and_self]
  | hasWinner | getWinner | getCurrentPlayer | getNumPlayers | getNumTurns | getNumColumns
  | getNumRows | toText => exact ⟨rfl, rfl⟩

theorem call_husk {board : Board} (hcols : board.numColumns = 0) (hrows : board.numRows = 0)
    (op : FourAcross.Call) :
    (FourAcross.husk board).call op = (husk op, FourAcross.husk board) := by
  have hcol : ∀ column, board.isColumnInRange column = false := fun column => by
    rw [Board.isColumnInRange, hcols]
    exact decide_eq_false UInt8.not_lt_zero
  cases op with
  | takeTurn player column =>
      rw [FourAcross.call, FourAcross.takeTurn, if_neg (by simp [FourAcross.husk])]
      by_cases hp : player = 0
      · rw [if_neg (by simp [FourAcross.husk, hp]),
          show (FourAcross.husk board).board = board from rfl,
          Board.dropPieceInColumn_outside (hcol column)]
        simp only [husk, if_pos hp]
      · rw [if_pos (by simpa [FourAcross.husk, eq_comm] using hp)]
        simp only [husk, if_neg hp]
  | boardFull =>
      rw [FourAcross.call, FourAcross.boardFull,
        show (FourAcross.husk board).board = board from rfl,
        Board.isFull, Board.isFullFrom, hcols]
      rfl
  | getNumColumns =>
      rw [FourAcross.call, FourAcross.getNumColumns]
      exact congrArg (fun n => (Answer.byte n, _)) hcols
  | getNumRows =>
      rw [FourAcross.call, FourAcross.getNumRows]
      exact congrArg (fun n => (Answer.byte n, _)) hrows
  | toText =>
      have hrow : board.isRowInRange (board.numRows - 1) = false := by
        rw [Board.isRowInRange, hrows]
        exact decide_eq_false UInt8.not_lt_zero
      rw [FourAcross.call, FourAcross.toText, show (FourAcross.husk board).board = board from rfl,
        Board.toText_outside hrow]
      rfl
  | hasWinner | getWinner | getCurrentPlayer | getNumPlayers | getNumTurns => rfl

theorem new_cases (n f numColumns numRows : UInt8) :
    (∃ game, ValidGame.new n f numColumns numRows = .ok game ∧
      FourAcross.new n f numColumns numRows = .ok game.state) ∨
    ∃ fault, FourAcross.new n f numColumns numRows = .error fault ∧
      ValidGame.new n f numColumns numRows = .error fault := by
  cases h : ValidGame.new n f numColumns numRows with
  | ok game => exact .inl ⟨game, rfl, new_state h⟩
  | error fault =>
      refine .inr ⟨fault, ?_, rfl⟩
      rw [ValidGame.new] at h
      split at h
      · cases h
      · next hg =>
          cases h
          exact hg

/-- Games implement the values, whatever the moves leave in the vectors. -/
theorem game_implements (left : Board → Board → Vectors) :
    Implements (FourAcross.movable left) values Means where
  make args := by
    rcases new_cases args.1 args.2.1 args.2.2.1 args.2.2.2 with
      ⟨game, hgame, hg⟩ | ⟨fault, hg, hgame⟩
    · exact .inl ⟨game.state, game, congrArg (Except.mapError Answer.thrown) hg,
        congrArg (Except.mapError Answer.thrown) hgame, rfl⟩
    · exact .inr ⟨.thrown fault, congrArg (Except.mapError Answer.thrown) hg,
        congrArg (Except.mapError Answer.thrown) hgame⟩
  call g o op h := by
    cases o with
    | some game =>
        obtain rfl : g = game.state := h
        exact game.call_state op
    | none =>
        obtain ⟨board, rfl, hcols, hrows⟩ := h
        have hhusk := call_husk hcols hrows op
        exact ⟨congrArg Prod.fst hhusk, board, congrArg Prod.snd hhusk, hcols, hrows⟩
  moveNew g o h := ⟨h, _, rfl, rfl, rfl⟩
  moveInto g' o' g o _ h := ⟨h, _, rfl, rfl, rfl⟩
  moveSelf g o _ := ⟨_, rfl, rfl, rfl⟩

/-- Programs on games get the answers of the games that were played in them: for any
number of variables, any constructions, calls and moves in any order, and whatever the
moves leave behind. -/
theorem games_are_values {ι : Type*} [DecidableEq ι] (left : Board → Board → Vectors)
    (program : List (Instr ι (UInt8 × UInt8 × UInt8 × UInt8) FourAcross.Call)) :
    ((FourAcross.movable left).exec (fun _ => none) program).map Prod.snd =
      (values.movable.exec (fun _ => none) program).map Prod.snd :=
  (game_implements left).exec_answers (fun _ => .none) program

end ValidGame

end ConnectDisks.Game
