import ConnectDisks.Game.Valid

/-!
# A game gets on

Every accepted turn fills one cell, so the turn counter is the number of disks on
the board, and the board is full exactly when it has come to the number of cells.
As long as there is neither a winner nor a full board, some column has room, and
the player whose turn it is may use it.
-/

namespace ConnectDisks.Game

open Lib

def Board.Filled (b : Board) : Prop :=
  ∀ c < b.numColumns.toNat, ∀ r < b.numRows.toNat, b.diskAt c r ≠ some Board.emptySlot

instance (b : Board) : Decidable b.Filled := by
  unfold Board.Filled
  infer_instance

namespace FourAcross

def numCells (g : FourAcross) : ℕ := g.getNumColumns.toNat * g.getNumRows.toNat

theorem filled_iff_height {g : FourAcross} (hg : g.Wf) :
    g.board.Filled ↔ ∀ c < g.board.numColumns.toNat, g.board.height c = g.board.numRows.toNat := by
  constructor
  · intro hfilled c hc
    by_contra hne
    have hroom := Nat.lt_of_le_of_ne (hg.board.height_le c) hne
    obtain ⟨p, hp⟩ := hg.board.shaped.diskAt_isSome hc hroom
    have hempty := (hg.filled c _ p hp).mpr (Nat.le_refl _)
    exact hfilled c hc _ hroom (hempty ▸ hp)
  · intro hheight c hc r hr hcell
    have hle := (hg.filled c r _ hcell).mp rfl
    rw [hheight c hc] at hle
    omega

/-- `isFull` looks at the columns, which says as much about the cells. -/
theorem boardFull_iff_filled {g : FourAcross} (hg : g.Wf) :
    g.boardFull = .ok true ↔ g.board.Filled := by
  obtain ⟨full, hfull, hiff⟩ := Board.isFull_ok hg.board.shaped
  rw [boardFull, hfull, filled_iff_height hg, ← hiff]
  exact ⟨Except.ok.inj, congrArg _⟩

theorem Reachable.refines {g : FourAcross} (h : Reachable g) :
    ∃ n f history, Refines n f history g := by
  induction h with
  | new h => exact ⟨_, _, _, new_refines_self h⟩
  | @turn g g' player column result _ h ih =>
      obtain ⟨n, f, history, href⟩ := ih
      obtain ⟨g₁, hturn, hsame, hmore⟩ := takeTurn_refines href player column
      rw [h] at hturn
      injection hturn with hturn
      injection hturn with hg hresult
      subst hg
      by_cases hs : g.answer history player column = .success
      · exact ⟨n, f, _, hmore hs⟩
      · exact ⟨n, f, history, hsame hs ▸ href⟩

/-- The counter never comes past the number of cells, and no column past its top. -/
theorem Reachable.numTurns_le {g : FourAcross} (h : Reachable g) :
    g.getNumTurns.toNat ≤ g.numCells := by
  obtain ⟨n, f, history, href⟩ := h.refines
  rw [getNumTurns, href.turns]
  exact href.length_le

theorem Reachable.numTurns_eq_iff {g : FourAcross} (h : Reachable g) :
    g.getNumTurns.toNat = g.numCells ↔ g.board.Filled := by
  obtain ⟨n, f, history, href⟩ := h.refines
  have hcount : ∀ c ∈ Finset.range g.board.numColumns.toNat,
      (history.map UInt8.toNat).count c = g.board.height c := fun c hc =>
    href.count_eq_height (Finset.mem_range.mp hc)
  have hiff := length_eq_card_mul_iff (k := g.board.numRows.toNat) href.mem_range fun c hc => by
    rw [hcount c hc]
    exact h.wf.board.height_le _
  rw [List.length_map, Finset.card_range] at hiff
  rw [getNumTurns, href.turns, filled_iff_height h.wf, numCells, getNumColumns, getNumRows, hiff]
  constructor
  · intro hall c hc
    rw [← hcount c (Finset.mem_range.mpr hc)]
    exact hall c (Finset.mem_range.mpr hc)
  · intro hall c hc
    rw [hcount c hc]
    exact hall c (Finset.mem_range.mp hc)

theorem numCells_lt (g : FourAcross) : g.numCells < 2 ^ 32 - 1 := by
  have hc := g.getNumColumns.toNat_lt
  have hr := g.getNumRows.toNat_lt
  have hle := Nat.mul_le_mul (show g.getNumColumns.toNat ≤ 255 by omega)
    (show g.getNumRows.toNat ≤ 255 by omega)
  rw [numCells]
  omega

/-- A call adds its own success to the counter, and nothing else. -/
theorem takeTurn_numTurns {g g' : FourAcross} (h : Reachable g) {player column : UInt8}
    {result : TurnResult} (hturn : g.takeTurn player column = .ok (g', result)) :
    g'.getNumTurns.toNat = g.getNumTurns.toNat + if result = .success then 1 else 0 := by
  have hlt := Nat.lt_of_le_of_lt h.numTurns_le g.numCells_lt
  rcases takeTurn_cases h.wf player column with
    ⟨_, hr⟩ | ⟨_, _, hr⟩ | ⟨_, _, _, hr⟩ | ⟨_, _, _, _, hr⟩ | ⟨_, row, w, _, hr, _⟩ <;>
    · rw [hr] at hturn
      injection hturn with hturn
      injection hturn with hg hresult
      subst hg hresult
      first
        | rfl
        | show (g.numTurns + 1).toNat = g.numTurns.toNat + 1
          rw [getNumTurns] at hlt
          rw [UInt32.toNat_add]
          exact Nat.mod_eq_of_lt (show g.numTurns.toNat + 1 < 2 ^ 32 by omega)

/-- While the game is not over, the player whose turn it is can take it. -/
theorem Reachable.exists_column {g : FourAcross} (h : Reachable g)
    (hopen : g.getWinner = noWinner) (hroom : ¬ g.board.Filled) :
    ∃ column g', g.takeTurn g.getCurrentPlayer column = .ok (g', .success) := by
  rw [filled_iff_height h.wf] at hroom
  push Not at hroom
  obtain ⟨c, hc, hne⟩ := hroom
  have hlt := g.board.numColumns.toNat_lt
  have hcolumn : (UInt8.ofNat c).toNat = c := by
    rw [UInt8.toNat_ofNat']
    omega
  have hacc : g.Accepts g.getCurrentPlayer (UInt8.ofNat c) := by
    refine ⟨hopen, rfl, ?_, ?_⟩
    · rw [hcolumn]
      exact hc
    · rw [hcolumn]
      exact Nat.lt_of_le_of_ne (h.wf.board.height_le c) hne
  obtain ⟨row, w, _, hturn, _⟩ := takeTurn_success h.wf hacc
  exact ⟨_, _, hturn⟩

theorem play_numTurns : ∀ {calls : List (UInt8 × UInt8)} {g g' : FourAcross}
    {results : List TurnResult}, Reachable g → g.play calls = .ok (g', results) →
    g'.getNumTurns.toNat = g.getNumTurns.toNat + results.count .success := by
  intro calls
  induction calls with
  | nil =>
      intro g g' results _ hplay
      rw [play] at hplay
      injection hplay with hplay
      injection hplay with hg hresults
      subst hg hresults
      rfl
  | cons call calls ih =>
      intro g g' results h hplay
      obtain ⟨g₁, result, hturn⟩ := takeTurn_total h.wf call.1 call.2
      obtain ⟨g₂, results₂, hrest, _⟩ := play_total (.turn h hturn) calls
      rw [play_cons hturn hrest] at hplay
      injection hplay with hplay
      injection hplay with hg hresults
      subst hg hresults
      rw [ih (.turn h hturn) hrest, takeTurn_numTurns h hturn, List.count_cons]
      by_cases hs : result = .success
      · simp only [hs, if_pos, beq_self_eq_true]
        omega
      · simp [hs]

/-- A game on a board of `cells` cells, between two calls. -/
structure Progresses (g : FourAcross) (cells : ℕ) : Prop where
  full : g.boardFull = .ok true ↔ g.getNumTurns.toNat = cells
  continues : g.getWinner = noWinner → g.boardFull = .ok false →
    ∃ column g', g.takeTurn g.getCurrentPlayer column = .ok (g', .success)
  bounded : g.getNumTurns.toNat ≤ cells

theorem Reachable.progresses {g : FourAcross} (h : Reachable g) : g.Progresses g.numCells := by
  refine ⟨?_, fun hopen hroom => h.exists_column hopen fun hfilled => ?_, h.numTurns_le⟩
  · rw [boardFull_iff_filled h.wf, h.numTurns_eq_iff]
  · rw [← boardFull_iff_filled h.wf, hroom] at hfilled
    cases hfilled

end FourAcross

/-! ## The same about the games lobbies hold -/

namespace ValidGame

theorem hasWinner_iff (g : ValidGame) :
    g.hasWinner = true ↔ g.getWinner ≠ FourAcross.noWinner := by
  simp [hasWinner, FourAcross.hasWinner, getWinner, FourAcross.getWinner]

theorem boardFull_iff (g : ValidGame) : g.boardFull = true ↔ g.state.board.Filled := by
  rw [← FourAcross.boardFull_iff_filled g.reachable.wf, g.boardFull_eq]
  exact ⟨congrArg _, Except.ok.inj⟩

theorem getWinner_of_success {g g' : ValidGame} {player column : UInt8}
    (h : g.takeTurn player column = (g', .success)) :
    g'.getWinner = player ∨ g'.getWinner = FourAcross.noWinner := by
  have heq := g.takeTurn_eq player column
  rw [h] at heq
  rcases FourAcross.takeTurn_cases g.reachable.wf player column with
    ⟨_, hr⟩ | ⟨_, _, hr⟩ | ⟨_, _, _, hr⟩ | ⟨_, _, _, _, hr⟩ | ⟨_, row, w, _, hr, hw⟩ <;>
    rw [hr] at heq <;> injection heq with heq <;> injection heq with hg hres
  · cases hres
  · cases hres
  · cases hres
  · cases hres
  · rw [getWinner, ← hg]
    exact hw.imp (·.2) (·.2)

theorem takeTurn_numTurns (g : ValidGame) (player column : UInt8) :
    (g.takeTurn player column).1.state.getNumTurns.toNat =
      g.state.getNumTurns.toNat +
        if (g.takeTurn player column).2 = .success then 1 else 0 :=
  FourAcross.takeTurn_numTurns g.reachable (g.takeTurn_eq player column)

end ValidGame

end ConnectDisks.Game
