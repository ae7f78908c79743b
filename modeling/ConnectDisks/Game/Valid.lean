import ConnectDisks.Proofs.Refinement

/-!
# Games as values

What the server and its clients hold is a game that started at the constructor
and moved by calls to `takeTurn`. `ValidGame` is that: a `FourAcross` together with
the fact that some calls lead to it, so that a damaged one cannot be built. On
it the operations are plain functions, because none of them can fault
(`takeTurn_eq`, `boardFull_eq`).
-/

namespace ConnectDisks.Game

open FourAcross

/-- A game that some calls lead to from the constructor. -/
@[ext] structure ValidGame where
  state : FourAcross
  reachable : state.Reachable
deriving DecidableEq, Repr

namespace ValidGame

/-- `new FourAcross{…}`, which throws what the constructor throws. -/
def new (numPlayers firstPlayer numColumns numRows : UInt8) : Except Fault ValidGame :=
  match h : FourAcross.new numPlayers firstPlayer numColumns numRows with
  | .ok g => .ok ⟨g, .new h⟩
  | .error fault => .error fault

theorem new_state {n f numColumns numRows : UInt8} {g : ValidGame}
    (h : ValidGame.new n f numColumns numRows = .ok g) :
    FourAcross.new n f numColumns numRows = .ok g.state := by
  rw [ValidGame.new] at h
  split at h
  · next hg =>
      cases h
      exact hg
  · cases h

def standardBoard : Board where
  numColumns := Board.minColumns
  numRows := Board.minRows
  columns := List.replicate Board.minColumns.toNat
    (List.replicate Board.minRows.toNat Board.emptySlot)
  rowIndices := List.replicate Board.minColumns.toNat 0

theorem standardBoard_eq :
    Board.new Board.minColumns Board.minRows = .ok standardBoard :=
  Board.new_ok (by decide) (by decide) (by decide)

/-- `new FourAcross{numPlayers, firstPlayer}`, on the default board, which the
constructor accepts. -/
def standard (numPlayers firstPlayer : UInt8) : ValidGame :=
  ⟨_, .new (new_ok numPlayers firstPlayer standardBoard_eq)⟩

theorem new_standard (n f : UInt8) :
    ValidGame.new n f Board.minColumns Board.minRows = .ok (standard n f) := by
  have h := new_ok n f standardBoard_eq
  rw [ValidGame.new]
  split
  · next g hg =>
      rw [h] at hg
      injection hg with hg
      subst hg
      rfl
  · next e he =>
      rw [h] at he
      cases he

def takeTurn (g : ValidGame) (player column : UInt8) : ValidGame × TurnResult :=
  match h : g.state.takeTurn player column with
  | .ok (g', result) => (⟨g', .turn g.reachable h⟩, result)
  | .error _ => (g, .error)

def boardFull (g : ValidGame) : Bool :=
  match g.state.boardFull with
  | .ok full => full
  | .error _ => false

def hasWinner (g : ValidGame) : Bool := g.state.hasWinner

def getWinner (g : ValidGame) : UInt8 := g.state.getWinner

def getCurrentPlayer (g : ValidGame) : UInt8 := g.state.getCurrentPlayer

def getNumColumns (g : ValidGame) : UInt8 := g.state.getNumColumns

def getNumRows (g : ValidGame) : UInt8 := g.state.getNumRows

/-! ## They are the operations of the game -/

theorem takeTurn_eq (g : ValidGame) (player column : UInt8) :
    g.state.takeTurn player column =
      .ok ((g.takeTurn player column).1.state, (g.takeTurn player column).2) := by
  obtain ⟨g', result, h⟩ := takeTurn_total g.reachable.wf player column
  rw [takeTurn]
  split
  · next h' => exact h'
  · next h' =>
      rw [h] at h'
      cases h'

theorem boardFull_eq (g : ValidGame) : g.state.boardFull = .ok g.boardFull := by
  obtain ⟨full, h, _⟩ := Board.isFull_ok g.reachable.wf.board.shaped
  rw [boardFull, FourAcross.boardFull, h]

/-- What a call can do to a game, in the terms the server asks about: nothing,
for one of four reasons, or the accepted turn of the current player. -/
theorem takeTurn_cases (g : ValidGame) (player column : UInt8) :
    ((g.takeTurn player column).1 = g ∧ (g.takeTurn player column).2 ≠ .success ∧
      (g.takeTurn player column).2 ≠ .error ∧
      ¬ g.state.Accepts player column ∧
      ((g.takeTurn player column).2 = .gameFinished ↔ g.hasWinner = true) ∧
      ((g.takeTurn player column).2 = .wrongPlayer ↔
        g.hasWinner = false ∧ g.getCurrentPlayer ≠ player)) ∨
    ((g.takeTurn player column).2 = .success ∧ g.state.Accepts player column ∧
      ∃ row winner, row.toNat = g.state.board.height column.toNat ∧
        (g.takeTurn player column).1.state = g.state.landed column row winner) := by
  have heq := g.takeTurn_eq player column
  rcases FourAcross.takeTurn_cases g.reachable.wf player column with
    ⟨hw, hr⟩ | ⟨hw, hp, hr⟩ | ⟨hw, hp, hc, hr⟩ | ⟨hw, hp, hc, hfull, hr⟩ |
      ⟨hacc, row, w, hrow, hr, _⟩ <;>
    rw [hr] at heq <;> injection heq with heq <;> injection heq with hg hres
  · refine .inl ⟨ValidGame.ext hg.symm, ?_⟩
    rw [← hres]
    refine ⟨by simp, by simp, fun h => hw h.open_, ?_, ?_⟩
    · simp [hasWinner, FourAcross.hasWinner, hw]
    · simp [hasWinner, FourAcross.hasWinner, hw]
  · refine .inl ⟨ValidGame.ext hg.symm, ?_⟩
    rw [← hres]
    refine ⟨by simp, by simp, fun h => hp h.current, ?_, ?_⟩
    · simp [hasWinner, FourAcross.hasWinner, hw]
    · simp [hasWinner, FourAcross.hasWinner, hw, getCurrentPlayer,
        FourAcross.getCurrentPlayer, hp]
  · refine .inl ⟨ValidGame.ext hg.symm, ?_⟩
    rw [← hres]
    refine ⟨by simp, by simp, fun h => hc h.inRange, ?_, ?_⟩
    · simp [hasWinner, FourAcross.hasWinner, hw]
    · simp [getCurrentPlayer, FourAcross.getCurrentPlayer, hp]
  · refine .inl ⟨ValidGame.ext hg.symm, ?_⟩
    rw [← hres]
    refine ⟨by simp, by simp, fun h => absurd hfull (Nat.ne_of_lt h.room), ?_, ?_⟩
    · simp [hasWinner, FourAcross.hasWinner, hw]
    · simp [getCurrentPlayer, FourAcross.getCurrentPlayer, hp]
  · exact .inr ⟨hres.symm, hacc, row, w, hrow, hg.symm⟩

theorem accepts_of_success {g g' : ValidGame} {player column : UInt8}
    (h : g.takeTurn player column = (g', .success)) : g.state.Accepts player column := by
  rcases g.takeTurn_cases player column with ⟨_, hnot, _⟩ | ⟨_, hacc, _⟩
  · rw [h] at hnot
    exact absurd rfl hnot
  · exact hacc

theorem takeTurn_numPlayers (g : ValidGame) (player column : UInt8) :
    (g.takeTurn player column).1.state.numPlayers = g.state.numPlayers := by
  rcases g.takeTurn_cases player column with ⟨h, _⟩ | ⟨_, _, row, w, _, h⟩
  · rw [h]
  · rw [h]
    rfl

theorem standard_hasWinner (n f : UInt8) : (standard n f).hasWinner = false := rfl

theorem standard_numPlayers {n : UInt8} (h : 2 ≤ n.toNat) (f : UInt8) :
    (standard n f).state.numPlayers = n := by
  have hle : (2 : UInt8).toNat ≤ n.toNat := h
  exact if_pos (UInt8.le_iff_toNat_le.mpr hle)

theorem standard_boardFull (n f : UInt8) : (standard n f).boardFull = false := by
  rfl

end ValidGame

end ConnectDisks.Game
