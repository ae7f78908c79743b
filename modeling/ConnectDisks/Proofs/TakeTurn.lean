import ConnectDisks.Proofs.Scan

/-!
# What a turn does

`takeTurn_cases` says once what a call can do to a game in order: four refusals,
each of which hands back the game it was given, and the one accepted turn,
`landed`. Everything proved about games later is proved from it, so no later
file looks inside `takeTurn` again. In particular no call faults: the exception
handler that would answer `badColumn` for a disk already dropped is never
reached with one.

`Reachable` is every game that some calls lead to from the constructor, and
`Wf` is what all of them share.
-/

namespace ConnectDisks.Game

open Lib

namespace FourAcross

/-- The four directions a line can take, as the pairs of loops run them. -/
def directions : List (ℤ × ℤ) := [(0, 1), (1, 0), (1, 1), (-1, 1)]

/-- A line of four of `p`'s disks through the point `x`. -/
def FourThrough (b : Board) (p : UInt8) (x : ℤ × ℤ) : Prop :=
  ∃ d ∈ directions, Through (b.owned p) 4 d x

/-- The search out of the last move answers its owner when a line of four runs
through it, and nobody otherwise. It reads no cell outside the board. -/
theorem checkForWinner_ok {g : FourAcross} (hb : g.board.Shaped) {p : UInt8}
    (hlast : g.board.diskAt g.lastMove.1.toNat g.lastMove.2.toNat = some p) :
    ∃ w, g.checkForWinner = .ok w ∧
      (FourThrough g.board p (g.lastMove.1.toNat, g.lastMove.2.toNat) ∧ w = p ∨
        ¬ FourThrough g.board p (g.lastMove.1.toNat, g.lastMove.2.toNat) ∧
          w = noWinner) := by
  obtain ⟨hc, hr⟩ := hb.of_diskAt hlast
  obtain ⟨column, hcolumn, _, hreadColumn⟩ := Board.getColumn_ok hb hc
  obtain ⟨row, hrow, _, hreadRow⟩ := Board.getRow_ok hb hr
  have hvert : Reads g.board (fun _ row => vectorAt column row)
      (fun col _ => col = g.lastMove.1) :=
    fun col row q hcol hq => hreadColumn row q (by rw [← hcol]; exact hq)
  have hhor : Reads g.board (fun col _ => vectorAt row col)
      (fun _ row => row = g.lastMove.2) :=
    fun col row q hrow hq => hreadRow col q (by rw [← hrow]; exact hq)
  have hdiag : Reads g.board g.board.getDiskOwnerAt (fun _ _ => True) :=
    fun col row q _ hq => Board.getDiskOwnerAt_of_diskAt hb hq
  obtain ⟨f₁, h₁, hf₁⟩ := scanBoth_ok hb hvert .stay .up .stay .down
    (fun _ _ h => h) (fun _ _ h => h) rfl rfl rfl hc hr p
  obtain ⟨f₂, h₂, hf₂⟩ := scanBoth_ok hb hhor .up .stay .down .stay
    (fun _ _ h => h) (fun _ _ h => h) rfl rfl rfl hc hr p
  obtain ⟨f₃, h₃, hf₃⟩ := scanBoth_ok hb hdiag .up .up .down .down
    (fun _ _ _ => trivial) (fun _ _ _ => trivial) rfl rfl trivial hc hr p
  obtain ⟨f₄, h₄, hf₄⟩ := scanBoth_ok hb hdiag .down .up .up .down
    (fun _ _ _ => trivial) (fun _ _ _ => trivial) rfl rfl trivial hc hr p
  have hany : FourThrough g.board p (g.lastMove.1.toNat, g.lastMove.2.toNat) ↔
      (f₁ || f₂ || f₃ || f₄) = true := by
    simp only [FourThrough, directions, List.mem_cons, List.not_mem_nil, or_false,
      exists_eq_or_imp, exists_eq_left, Bool.or_eq_true, hf₁, hf₂, hf₃, hf₄,
      Heading.shift, or_assoc]
  have hrun : g.checkForWinner =
      .ok (if (f₁ || f₂ || f₃ || f₄) = true then p else noWinner) := by
    unfold checkForWinner
    simp only [Board.getDiskOwnerAt_of_diskAt hb hlast, hcolumn, hrow, h₁, h₂, h₃, h₄,
      bind, Except.bind, pure, Except.pure]
    cases f₁ <;> cases f₂ <;> cases f₃ <;> cases f₄ <;> rfl
  refine ⟨_, hrun, ?_⟩
  by_cases h : (f₁ || f₂ || f₃ || f₄) = true
  · exact .inl ⟨hany.mpr h, if_pos h⟩
  · exact .inr ⟨fun h' => h (hany.mp h'), if_neg h⟩

/-! ## Games in order -/

structure Wf (g : FourAcross) : Prop where
  board : g.board.Wf
  players : 2 ≤ g.numPlayers.toNat
  current_pos : 1 ≤ g.currentPlayer.toNat
  current_le : g.currentPlayer.toNat ≤ g.numPlayers.toNat
  filled : ∀ c r p, g.board.diskAt c r = some p →
    (p = Board.emptySlot ↔ g.board.height c ≤ r)

/-- Some calls lead to this game from the constructor. -/
inductive Reachable : FourAcross → Prop
  | new {numPlayers firstPlayer numColumns numRows : UInt8} {g : FourAcross} :
      FourAcross.new numPlayers firstPlayer numColumns numRows = .ok g → Reachable g
  | turn {g g' : FourAcross} {player column : UInt8} {result : TurnResult} :
      Reachable g → g.takeTurn player column = .ok (g', result) → Reachable g'

theorem new_ok {numColumns numRows : UInt8} (n f : UInt8) {b : Board}
    (h : Board.new numColumns numRows = .ok b) :
    FourAcross.new n f numColumns numRows = .ok {
      numTurns := 0
      numPlayers := if n ≥ minNumPlayers then n else minNumPlayers
      currentPlayer := if f > defaultFirstPlayer ∧ f ≤ n then f else defaultFirstPlayer
      lastMove := (0, 0)
      winner := noWinner
      board := b } := by
  rw [FourAcross.new, h]
  rfl

theorem new_spec {n f numColumns numRows : UInt8} {g : FourAcross}
    (h : FourAcross.new n f numColumns numRows = .ok g) :
    Board.new numColumns numRows = .ok g.board ∧ g.numTurns = 0 ∧
      g.numPlayers = (if n ≥ minNumPlayers then n else minNumPlayers) ∧
      g.currentPlayer =
        (if f > defaultFirstPlayer ∧ f ≤ n then f else defaultFirstPlayer) ∧
      g.winner = noWinner := by
  cases hb : Board.new numColumns numRows with
  | error e => rw [FourAcross.new, hb] at h; cases h
  | ok b =>
      rw [new_ok n f hb] at h
      injection h with h
      subst h
      exact ⟨rfl, rfl, rfl, rfl, rfl⟩

/-- Two players at least, and one of them first: the constructor takes both numbers over. -/
theorem new_players {n f numColumns numRows : UInt8} {g : FourAcross} (hn : 2 ≤ n.toNat)
    (hf : 1 ≤ f.toNat) (hfn : f.toNat ≤ n.toNat)
    (h : FourAcross.new n f numColumns numRows = .ok g) :
    g.numPlayers = n ∧ g.currentPlayer = f := by
  obtain ⟨_, _, hplayers, hcurrent, _⟩ := new_spec h
  constructor
  · rw [hplayers, if_pos]
    exact UInt8.le_iff_toNat_le.mpr hn
  · rw [hcurrent, ← UInt8.toNat_inj]
    split
    · rfl
    · next h1 =>
        simp only [defaultFirstPlayer, gt_iff_lt, UInt8.lt_iff_toNat_lt,
          UInt8.le_iff_toNat_le, UInt8.reduceToNat] at h1 ⊢
        omega

theorem new_wf {n f numColumns numRows : UInt8} {g : FourAcross}
    (h : FourAcross.new n f numColumns numRows = .ok g) : g.Wf := by
  obtain ⟨hboard, _, hplayers, hcurrent, _⟩ := new_spec h
  obtain ⟨hb, _, _, hheight, hempty⟩ := Board.new_spec hboard
  have hn : 2 ≤ g.numPlayers.toNat ∧ n.toNat ≤ g.numPlayers.toNat := by
    rw [hplayers]
    split
    · next hge => exact ⟨UInt8.le_iff_toNat_le.mp hge, Nat.le_refl _⟩
    · next hlt =>
        simp only [minNumPlayers, ge_iff_le, UInt8.le_iff_toNat_le,
          UInt8.reduceToNat] at hlt ⊢
        omega
  have hc : 1 ≤ g.currentPlayer.toNat ∧ g.currentPlayer.toNat ≤ g.numPlayers.toNat := by
    rw [hcurrent]
    split
    · next hf =>
        simp only [defaultFirstPlayer, gt_iff_lt, UInt8.lt_iff_toNat_lt,
          UInt8.le_iff_toNat_le, UInt8.reduceToNat] at hf
        omega
    · simp only [defaultFirstPlayer, UInt8.reduceToNat]
      omega
  refine ⟨hb, hn.1, hc.1, hc.2, fun c r p hp => ?_⟩
  rw [hheight]
  exact ⟨fun _ => Nat.zero_le _, fun _ => hempty c r p hp⟩

/-- The next player is in range, also where the increment wraps at 255. -/
theorem getNextPlayer_toNat {g : FourAcross} (hg : g.Wf) :
    g.getNextPlayer.toNat =
      if g.currentPlayer.toNat = g.numPlayers.toNat then 1
      else g.currentPlayer.toNat + 1 := by
  have hlt := g.numPlayers.toNat_lt
  have hle := hg.current_le
  have hpos := hg.current_pos
  have hsucc : (g.currentPlayer + 1).toNat = (g.currentPlayer.toNat + 1) % 256 := by
    rw [UInt8.toNat_add]
    rfl
  have hzero : g.currentPlayer + 1 = 0 ↔ (g.currentPlayer.toNat + 1) % 256 = 0 := by
    rw [← hsucc, ← UInt8.toNat_inj]
    rfl
  simp only [getNextPlayer, gt_iff_lt, UInt8.lt_iff_toNat_lt, hzero, hsucc]
  split
  · next h =>
      rw [if_pos (by omega)]
      rfl
  · next h =>
      rw [if_neg (by omega), hsucc]
      omega

/-! ## The five ways out of a call -/

/-- The game after a disk landed in a column, at row `row`. -/
def landed (g : FourAcross) (column row winner : UInt8) : FourAcross where
  numTurns := g.numTurns + 1
  numPlayers := g.numPlayers
  currentPlayer := g.getNextPlayer
  lastMove := (column, row)
  winner := winner
  board := g.board.drop column.toNat g.currentPlayer

/-- The call is the current player's, in a column with room, in a game nobody
has won. -/
structure Accepts (g : FourAcross) (player column : UInt8) : Prop where
  open_ : g.winner = noWinner
  current : g.currentPlayer = player
  inRange : column.toNat < g.board.numColumns.toNat
  room : g.board.height column.toNat < g.board.numRows.toNat

theorem takeTurn_gameFinished {g : FourAcross} (player column : UInt8)
    (h : g.winner ≠ noWinner) : g.takeTurn player column = .ok (g, .gameFinished) := by
  rw [takeTurn, if_pos h]

theorem takeTurn_wrongPlayer {g : FourAcross} {player : UInt8} (column : UInt8)
    (h : g.winner = noWinner) (hp : g.currentPlayer ≠ player) :
    g.takeTurn player column = .ok (g, .wrongPlayer) := by
  rw [takeTurn, if_neg (not_not_intro h), if_pos hp]

theorem takeTurn_badColumn {g : FourAcross} {player column : UInt8}
    (h : g.winner = noWinner) (hp : g.currentPlayer = player)
    (hc : ¬ column.toNat < g.board.numColumns.toNat) :
    g.takeTurn player column = .ok (g, .badColumn) := by
  rw [takeTurn, if_neg (not_not_intro h), if_neg (not_not_intro hp),
    Board.dropPieceInColumn_badColumn player hc]

theorem takeTurn_columnFull {g : FourAcross} {player column : UInt8} (hg : g.Wf)
    (h : g.winner = noWinner) (hp : g.currentPlayer = player)
    (hc : column.toNat < g.board.numColumns.toNat)
    (hfull : g.board.height column.toNat = g.board.numRows.toNat) :
    g.takeTurn player column = .ok (g, .columnFull) := by
  rw [takeTurn, if_neg (not_not_intro h), if_neg (not_not_intro hp),
    Board.dropPieceInColumn_full hg.board player hc hfull]

/-- An accepted turn lands its disk and decides the winner by what runs through
the cell it landed in. -/
theorem takeTurn_success {g : FourAcross} {player column : UInt8} (hg : g.Wf)
    (h : g.Accepts player column) :
    ∃ row winner, row.toNat = g.board.height column.toNat ∧
      g.takeTurn player column = .ok (g.landed column row winner, .success) ∧
      (FourThrough (g.board.drop column.toNat player) player
          (column.toNat, g.board.height column.toNat) ∧ winner = player ∨
        ¬ FourThrough (g.board.drop column.toNat player) player
          (column.toNat, g.board.height column.toNat) ∧ winner = noWinner) := by
  obtain ⟨hopen, rfl, hc, hroom⟩ := h
  have hwf := hg.board.drop g.currentPlayer hc hroom
  obtain ⟨h', hget, hh'⟩ := Board.getColumnHeight_ok hwf.shaped hc
  have hrow : (h' - 1).toNat = g.board.height column.toNat := by
    rw [Board.height_drop hg.board _ hc hroom, if_pos rfl] at hh'
    have hne : h' ≠ 0 := by
      rintro rfl
      simp at hh'
    rw [Heading.toNat_pred hne]
    omega
  have hlast : (g.landed column (h' - 1) noWinner).board.diskAt column.toNat
      (h' - 1).toNat = some g.currentPlayer := by
    rw [hrow]
    show (g.board.drop column.toNat g.currentPlayer).diskAt _ _ = _
    rw [Board.diskAt_drop hg.board _ hc hroom, if_pos ⟨rfl, rfl⟩]
  obtain ⟨w, hw, hcase⟩ :=
    checkForWinner_ok (g := g.landed column (h' - 1) noWinner) hwf.shaped hlast
  refine ⟨h' - 1, w, hrow, ?_, ?_⟩
  · rw [takeTurn, if_neg (not_not_intro hopen), if_neg (not_not_intro rfl),
      Board.dropPieceInColumn_ok hg.board _ hc hroom]
    simp only [hget]
    have hw' : FourAcross.checkForWinner
        { g with
          board := g.board.drop column.toNat g.currentPlayer
          currentPlayer := FourAcross.getNextPlayer
            { g with board := g.board.drop column.toNat g.currentPlayer }
          lastMove := (column, h' - 1)
          numTurns := g.numTurns + 1 } = .ok w := by
      have hopen' : g.winner = noWinner := hopen
      rw [← hw, landed, ← hopen']
      rfl
    rw [hw']
    rfl
  · simpa only [landed, hrow] using hcase

/-- Everything a call can do. -/
theorem takeTurn_cases {g : FourAcross} (hg : g.Wf) (player column : UInt8) :
    (g.winner ≠ noWinner ∧ g.takeTurn player column = .ok (g, .gameFinished)) ∨
    (g.winner = noWinner ∧ g.currentPlayer ≠ player ∧
      g.takeTurn player column = .ok (g, .wrongPlayer)) ∨
    (g.winner = noWinner ∧ g.currentPlayer = player ∧
      ¬ column.toNat < g.board.numColumns.toNat ∧
      g.takeTurn player column = .ok (g, .badColumn)) ∨
    (g.winner = noWinner ∧ g.currentPlayer = player ∧
      column.toNat < g.board.numColumns.toNat ∧
      g.board.height column.toNat = g.board.numRows.toNat ∧
      g.takeTurn player column = .ok (g, .columnFull)) ∨
    (g.Accepts player column ∧ ∃ row winner,
      row.toNat = g.board.height column.toNat ∧
      g.takeTurn player column = .ok (g.landed column row winner, .success) ∧
      (FourThrough (g.board.drop column.toNat player) player
          (column.toNat, g.board.height column.toNat) ∧ winner = player ∨
        ¬ FourThrough (g.board.drop column.toNat player) player
          (column.toNat, g.board.height column.toNat) ∧ winner = noWinner)) := by
  by_cases hw : g.winner = noWinner
  · by_cases hp : g.currentPlayer = player
    · by_cases hc : column.toNat < g.board.numColumns.toNat
      · by_cases hfull : g.board.height column.toNat = g.board.numRows.toNat
        · exact .inr (.inr (.inr (.inl
            ⟨hw, hp, hc, hfull, takeTurn_columnFull hg hw hp hc hfull⟩)))
        · have hacc : g.Accepts player column :=
            ⟨hw, hp, hc, Nat.lt_of_le_of_ne (hg.board.height_le _) hfull⟩
          exact .inr (.inr (.inr (.inr ⟨hacc, takeTurn_success hg hacc⟩)))
      · exact .inr (.inr (.inl ⟨hw, hp, hc, takeTurn_badColumn hw hp hc⟩))
    · exact .inr (.inl ⟨hw, hp, takeTurn_wrongPlayer column hw hp⟩)
  · exact .inl ⟨hw, takeTurn_gameFinished player column hw⟩

/-! ## The invariant -/

theorem landed_wf {g : FourAcross} (hg : g.Wf) {player column : UInt8}
    (h : g.Accepts player column) (row winner : UInt8) :
    (g.landed column row winner).Wf := by
  have hnext := getNextPlayer_toNat hg
  have hpos := hg.current_pos
  have hle := hg.current_le
  have hplayers := hg.players
  refine ⟨hg.board.drop _ h.inRange h.room, hplayers, ?_, ?_, ?_⟩
  · show 1 ≤ g.getNextPlayer.toNat
    rw [hnext]
    split <;> omega
  · show g.getNextPlayer.toNat ≤ g.numPlayers.toNat
    rw [hnext]
    split <;> omega
  · intro c r p hp
    have hheight := Board.height_drop hg.board g.currentPlayer h.inRange h.room c
    simp only [landed, Board.diskAt_drop hg.board _ h.inRange h.room, hheight] at hp ⊢
    split at hp
    · next hcell =>
        obtain ⟨rfl, rfl⟩ := hcell
        injection hp with hp
        subst hp
        rw [if_pos rfl]
        constructor
        · intro hzero
          rw [hzero] at hpos
          exact absurd hpos (by decide)
        · intro hlt; omega
    · next hcell =>
        rw [hg.filled c r p hp]
        split
        · next hcc =>
            have hne : r ≠ g.board.height column.toNat := fun hr => hcell ⟨hcc, hr⟩
            subst hcc
            omega
        · simp

theorem takeTurn_wf {g g' : FourAcross} {player column : UInt8} {result : TurnResult}
    (hg : g.Wf) (h : g.takeTurn player column = .ok (g', result)) : g'.Wf := by
  rcases takeTurn_cases hg player column with
    ⟨_, hr⟩ | ⟨_, _, hr⟩ | ⟨_, _, _, hr⟩ | ⟨_, _, _, _, hr⟩ |
      ⟨hacc, row, w, _, hr, _⟩ <;>
    · rw [hr] at h
      injection h with h
      injection h with h _
      subst h
      first
        | exact hg
        | exact landed_wf hg hacc row w

theorem Reachable.wf {g : FourAcross} (h : Reachable g) : g.Wf := by
  induction h with
  | new h => exact new_wf h
  | turn _ h ih => exact takeTurn_wf ih h

/-- No call faults, whatever bytes it is made with. -/
theorem takeTurn_total {g : FourAcross} (hg : g.Wf) (player column : UInt8) :
    ∃ g' result, g.takeTurn player column = .ok (g', result) := by
  rcases takeTurn_cases hg player column with
    ⟨_, hr⟩ | ⟨_, _, hr⟩ | ⟨_, _, _, hr⟩ | ⟨_, _, _, _, hr⟩ | ⟨_, _, _, _, hr, _⟩ <;>
    exact ⟨_, _, hr⟩

end FourAcross

end ConnectDisks.Game
