import ConnectDisks.Lib.Header
import ConnectDisks.Proofs.TakeTurn

/-!
# The scanning loops stay on the board

The eight loops of `checkForWinner`, each by itself and from its header. They start one
step from the last move, where the step may already have wrapped, and nothing but the
loop condition keeps the unchecked indices inside their vectors. So the rounds are
followed with `Heading.Tracks`: the condition holds on the board and nowhere else, which
is where the dimensions come in, because a byte can only mark the edge as 255 if no row
and no column is numbered 255.

Nothing here looks at what the cells hold, or at the heights of the columns.
-/

namespace ConnectDisks.Game

open Lib

namespace Heading

/-- The loop condition holds where the index is on the board, and one step further the
index stands for the next coordinate. -/
theorem Tracks.advance {h : Heading} {bound : UInt8} {z : ℤ} {i : UInt8}
    (ht : h.Tracks bound z i) (hin : h.inside bound i = true) :
    h.Tracks bound (z + h.shift) (h.advance i) := by
  obtain ⟨hz, hlt⟩ := ht.inside_iff.mp hin
  exact tracks_advance hz hlt

theorem Tracks.outside {h : Heading} {bound : UInt8} {z : ℤ} {i : UInt8}
    (ht : h.Tracks bound (z + 255 * h.shift) i) (hmoves : h ≠ .stay) (h0 : 0 ≤ z)
    (hlt : z < bound.toNat) : h.inside bound i = false := by
  have hbound := bound.toNat_lt
  rw [Bool.eq_false_iff]
  intro hin
  obtain ⟨hi, hiz⟩ := ht.inside_iff.mp hin
  cases h with
  | stay => exact absurd rfl hmoves
  | up =>
      simp only [shift] at hi hiz
      omega
  | down =>
      simp only [shift] at hi hiz
      omega

end Heading

namespace FourAcross

/-- One of the loops: how it looks at a cell, and where its two indices go. -/
structure ScanLoop where
  read : UInt8 → UInt8 → Except Fault UInt8
  colHeading : Heading
  rowHeading : Heading

/-- The eight loops of `checkForWinner` in their order, over the column and the row of
the last move. -/
def scanLoops (b : Board) (column row : List UInt8) : List ScanLoop :=
  [⟨fun _ row => vectorAt column row, .stay, .up⟩,
    ⟨fun _ row => vectorAt column row, .stay, .down⟩,
    ⟨fun col _ => vectorAt row col, .up, .stay⟩,
    ⟨fun col _ => vectorAt row col, .down, .stay⟩,
    ⟨b.getDiskOwnerAt, .up, .up⟩,
    ⟨b.getDiskOwnerAt, .down, .down⟩,
    ⟨b.getDiskOwnerAt, .down, .up⟩,
    ⟨b.getDiskOwnerAt, .up, .down⟩]

namespace ScanLoop

/-- The loop condition. -/
def goesOn (l : ScanLoop) (b : Board) (cell : UInt8 × UInt8) : Bool :=
  l.rowHeading.inside b.numRows cell.2 && l.colHeading.inside b.numColumns cell.1

/-- The increments and decrements of the loop's header. -/
def next (l : ScanLoop) (cell : UInt8 × UInt8) : UInt8 × UInt8 :=
  (l.colHeading.advance cell.1, l.rowHeading.advance cell.2)

/-- The cell the loop looks at in round `k`, if it gets there. -/
def cell (l : ScanLoop) (lastMove : UInt8 × UInt8) (k : ℕ) : UInt8 × UInt8 :=
  l.next^[k] (l.next lastMove)

/-- The loop as `checkForWinner` enters it, with a count of its own. -/
def run (l : ScanLoop) (g : FourAcross) (lastPlayer : UInt8) (count : ℕ) :
    Except Fault Scan :=
  scan g.board l.read l.colHeading l.rowHeading lastPlayer 256 (l.next g.lastMove).1
    (l.next g.lastMove).2 count

/-- The loop is safe in this game: its condition alone ends it, it looks at no cell
outside the board until then, and so it comes to an end without a fault. -/
structure Safe (l : ScanLoop) (g : FourAcross) : Prop where
  ends : ∃ k ≤ 254, l.goesOn g.board (l.cell g.lastMove k) = false
  onBoard : ∀ k, Enters (l.goesOn g.board) l.next (l.next g.lastMove) k →
    (l.cell g.lastMove k).1 < g.board.numColumns ∧ (l.cell g.lastMove k).2 < g.board.numRows
  runs : ∀ lastPlayer count, ∃ result, l.run g lastPlayer count = .ok result

end ScanLoop

/-! ## The header of a loop -/

section

variable {l : ScanLoop} {g : FourAcross}

/-- The two indices of a loop stand for a cell that is on the board, or that the loop
has just left it at. -/
def ScanLoop.Tracks (l : ScanLoop) (b : Board) (z : ℤ × ℤ) (cell : UInt8 × UInt8) : Prop :=
  l.colHeading.Tracks b.numColumns z.1 cell.1 ∧ l.rowHeading.Tracks b.numRows z.2 cell.2

/-- Where the loop is in round `k`. -/
def ScanLoop.point (l : ScanLoop) (lastMove : UInt8 × UInt8) (k : ℕ) : ℤ × ℤ :=
  (lastMove.1.toNat + (k + 1) * l.colHeading.shift,
    lastMove.2.toNat + (k + 1) * l.rowHeading.shift)

theorem ScanLoop.tracks_start (l : ScanLoop)
    (hc : g.lastMove.1.toNat < g.board.numColumns.toNat)
    (hr : g.lastMove.2.toNat < g.board.numRows.toNat) :
    l.Tracks g.board (l.point g.lastMove 0) (l.next g.lastMove) := by
  have hcol := Heading.tracks_advance (h := l.colHeading) rfl (Int.ofNat_lt.mpr hc)
  have hrow := Heading.tracks_advance (h := l.rowHeading) rfl (Int.ofNat_lt.mpr hr)
  simpa [ScanLoop.Tracks, ScanLoop.point, ScanLoop.next] using And.intro hcol hrow

theorem ScanLoop.tracks_next (k : ℕ) (cell : UInt8 × UInt8)
    (ht : l.Tracks g.board (l.point g.lastMove k) cell)
    (hgoes : l.goesOn g.board cell = true) :
    l.Tracks g.board (l.point g.lastMove (k + 1)) (l.next cell) := by
  obtain ⟨hrow, hcol⟩ := Bool.and_eq_true_iff.mp hgoes
  have hstep : ∀ (i : UInt8) (h : Heading),
      (i.toNat : ℤ) + ((k + 1 : ℕ) + 1) * h.shift = i.toNat + (k + 1) * h.shift + h.shift := by
    intro i h
    rw [Nat.cast_add_one, add_one_mul (k + 1 : ℤ), add_assoc]
  refine ⟨?_, ?_⟩
  · have := ht.1.advance hcol
    rwa [ScanLoop.point, ← hstep] at this
  · have := ht.2.advance hrow
    rwa [ScanLoop.point, ← hstep] at this

theorem ScanLoop.cell_onBoard (hc : g.lastMove.1.toNat < g.board.numColumns.toNat)
    (hr : g.lastMove.2.toNat < g.board.numRows.toNat) {k : ℕ}
    (h : Enters (l.goesOn g.board) l.next (l.next g.lastMove) k) :
    (l.cell g.lastMove k).1 < g.board.numColumns ∧
      (l.cell g.lastMove k).2 < g.board.numRows := by
  have ht := h.invariant (l.tracks_start hc hr) ScanLoop.tracks_next
  obtain ⟨hrow, hcol⟩ := Bool.and_eq_true_iff.mp (h k (Nat.le_refl k))
  obtain ⟨hci, hclt⟩ := ht.1.inside_iff.mp hcol
  obtain ⟨hri, hrlt⟩ := ht.2.inside_iff.mp hrow
  rw [UInt8.lt_iff_toNat_lt, UInt8.lt_iff_toNat_lt]
  exact ⟨by unfold ScanLoop.cell; omega, by unfold ScanLoop.cell; omega⟩

/-- A loop with an index that moves is over after 255 rounds at the latest. -/
theorem ScanLoop.exists_end (hc : g.lastMove.1.toNat < g.board.numColumns.toNat)
    (hr : g.lastMove.2.toNat < g.board.numRows.toNat)
    (hmoves : l.colHeading ≠ .stay ∨ l.rowHeading ≠ .stay) :
    ∃ k ≤ 254, l.goesOn g.board (l.cell g.lastMove k) = false := by
  refine exists_exit (l.tracks_start hc hr) ScanLoop.tracks_next fun cell ht => ?_
  obtain ⟨hcol, hrow⟩ := ht
  rw [ScanLoop.goesOn, Bool.and_eq_false_iff]
  rcases hmoves with hmoves | hmoves
  · exact .inr (hcol.outside hmoves (Int.natCast_nonneg _) (Int.ofNat_lt.mpr hc))
  · exact .inl (hrow.outside hmoves (Int.natCast_nonneg _) (Int.ofNat_lt.mpr hr))

/-! ## Its body -/

theorem ScanLoop.scan_eq (l : ScanLoop) (b : Board) (p : UInt8) (fuel : ℕ)
    (cell : UInt8 × UInt8) (count : ℕ) :
    scan b l.read l.colHeading l.rowHeading p (fuel + 1) cell.1 cell.2 count =
      if l.goesOn b cell = true then do
        let current ← l.read cell.1 cell.2
        if current != p then
          return .stopped count
        else if count + 1 == 4 then
          return .four
        else
          scan b l.read l.colHeading l.rowHeading p fuel (l.next cell).1 (l.next cell).2
            (count + 1)
      else
        return .stopped count := rfl

/-- A loop whose header ends it within its budget, and which can look at every cell its
header lets it look at, comes to an end. -/
theorem ScanLoop.scan_total (l : ScanLoop) (b : Board) (p : UInt8) :
    ∀ (n fuel : ℕ) (cell : UInt8 × UInt8) (count : ℕ), n < fuel →
      l.goesOn b (l.next^[n] cell) = false →
      (∀ k, Enters (l.goesOn b) l.next cell k →
        ∃ q, l.read (l.next^[k] cell).1 (l.next^[k] cell).2 = .ok q) →
      ∃ result, scan b l.read l.colHeading l.rowHeading p fuel cell.1 cell.2 count =
        .ok result := by
  intro n
  induction n with
  | zero =>
      intro fuel cell count hfuel hend _
      obtain ⟨f, rfl⟩ : ∃ f, fuel = f + 1 := ⟨fuel - 1, by omega⟩
      have hend : l.goesOn b cell = false := hend
      rw [l.scan_eq, if_neg (Bool.eq_false_iff.mp hend)]
      exact ⟨_, rfl⟩
  | succ n ih =>
      intro fuel cell count hfuel hend hread
      obtain ⟨f, rfl⟩ : ∃ f, fuel = f + 1 := ⟨fuel - 1, by omega⟩
      rw [l.scan_eq]
      by_cases hgoes : l.goesOn b cell = true
      · obtain ⟨q, hq⟩ := hread 0 (enters_zero.mpr hgoes)
        have hq : l.read cell.1 cell.2 = .ok q := hq
        rw [if_pos hgoes, hq]
        simp only [bind, Except.bind]
        split
        · exact ⟨_, rfl⟩
        · split
          · exact ⟨_, rfl⟩
          · refine ih f (l.next cell) (count + 1) (by omega) hend fun k hk => ?_
            exact hread (k + 1) (enters_succ.mpr ⟨hgoes, hk⟩)
      · rw [if_neg hgoes]
        exact ⟨_, rfl⟩

end

/-! ## The eight loops -/

theorem scanLoops_move {b : Board} {column row : List UInt8} :
    ∀ l ∈ scanLoops b column row, l.colHeading ≠ .stay ∨ l.rowHeading ≠ .stay := by
  simp [scanLoops]

theorem scanLoops_read {b : Board} (hb : b.Shaped) {column row : List UInt8}
    (hcolumn : column.length = b.numRows.toNat) (hrow : row.length = b.numColumns.toNat) :
    ∀ l ∈ scanLoops b column row, ∀ c r, c < b.numColumns → r < b.numRows →
      ∃ q, l.read c r = .ok q := by
  intro l hl c r hc hr
  rw [UInt8.lt_iff_toNat_lt] at hc hr
  have hup : ∃ q, vectorAt column r = .ok q := ⟨_, Board.vectorAt_of_lt (hcolumn ▸ hr)⟩
  have hacross : ∃ q, vectorAt row c = .ok q := ⟨_, Board.vectorAt_of_lt (hrow ▸ hc)⟩
  have hdiagonal : ∃ q, b.getDiskOwnerAt c r = .ok q := by
    obtain ⟨q, hq⟩ := hb.diskAt_isSome hc hr
    exact ⟨q, Board.getDiskOwnerAt_of_diskAt hb hq⟩
  simp only [scanLoops, List.mem_cons, List.not_mem_nil, or_false] at hl
  rcases hl with rfl | rfl | rfl | rfl | rfl | rfl | rfl | rfl
  · exact hup
  · exact hup
  · exact hacross
  · exact hacross
  · exact hdiagonal
  · exact hdiagonal
  · exact hdiagonal
  · exact hdiagonal

theorem scanLoops_safe {g : FourAcross} (hb : g.board.Shaped) {column row : List UInt8}
    (hcolumn : column.length = g.board.numRows.toNat)
    (hrow : row.length = g.board.numColumns.toNat)
    (hc : g.lastMove.1.toNat < g.board.numColumns.toNat)
    (hr : g.lastMove.2.toNat < g.board.numRows.toNat) :
    ∀ l ∈ scanLoops g.board column row, l.Safe g := by
  intro l hl
  have hend := ScanLoop.exists_end hc hr (scanLoops_move l hl)
  refine ⟨hend, fun k hk => ScanLoop.cell_onBoard hc hr hk, fun p count => ?_⟩
  obtain ⟨k, hk, hstop⟩ := hend
  refine l.scan_total g.board p k 256 (l.next g.lastMove) count (by omega) hstop ?_
  intro j hj
  obtain ⟨hcj, hrj⟩ := ScanLoop.cell_onBoard hc hr hj
  exact scanLoops_read hb hcolumn hrow l hl _ _ hcj hrj

theorem scanBoth_total {g : FourAcross} {read : UInt8 → UInt8 → Except Fault UInt8}
    {ch rh ch' rh' : Heading} (h : ScanLoop.Safe ⟨read, ch, rh⟩ g)
    (h' : ScanLoop.Safe ⟨read, ch', rh'⟩ g) (p : UInt8) :
    ∃ found, g.scanBoth read p ch rh ch' rh' = .ok found := by
  obtain ⟨result, hrun⟩ := h.runs p 1
  simp only [ScanLoop.run, ScanLoop.next] at hrun
  unfold scanBoth
  simp only [hrun, bind, Except.bind]
  cases result with
  | four => exact ⟨true, rfl⟩
  | stopped count =>
      obtain ⟨result', hrun'⟩ := h'.runs p count
      simp only [ScanLoop.run, ScanLoop.next] at hrun'
      simp only [hrun']
      cases result' with
      | four => exact ⟨true, rfl⟩
      | stopped _ => exact ⟨false, rfl⟩

/-- What `checkForWinner` looks at before the loops is there, its loops are safe, and so
it answers. -/
theorem checkForWinner_loops {g : FourAcross} (hb : g.board.Shaped)
    (hc : g.lastMove.1.toNat < g.board.numColumns.toNat)
    (hr : g.lastMove.2.toNat < g.board.numRows.toNat) :
    (∃ p column row, g.board.getDiskOwnerAt g.lastMove.1 g.lastMove.2 = .ok p ∧
      g.board.getColumn g.lastMove.1 = .ok column ∧ g.board.getRow g.lastMove.2 = .ok row ∧
      column.length = g.board.numRows.toNat ∧ row.length = g.board.numColumns.toNat ∧
      ∀ l ∈ scanLoops g.board column row, l.Safe g) ∧
    ∃ winner, g.checkForWinner = .ok winner := by
  obtain ⟨p, hp⟩ := hb.diskAt_isSome hc hr
  have howner := Board.getDiskOwnerAt_of_diskAt hb hp
  obtain ⟨column, hcolumn, hcolumnLength, _⟩ := Board.getColumn_ok hb hc
  obtain ⟨row, hrow, hrowLength, _⟩ := Board.getRow_ok hb hr
  have hsafe := scanLoops_safe hb hcolumnLength hrowLength hc hr
  refine ⟨⟨p, column, row, howner, hcolumn, hrow, hcolumnLength, hrowLength, hsafe⟩, ?_⟩
  simp only [scanLoops, List.forall_mem_cons] at hsafe
  obtain ⟨h₁, h₂, h₃, h₄, h₅, h₆, h₇, h₈, _⟩ := hsafe
  obtain ⟨vertical, hvertical⟩ := scanBoth_total h₁ h₂ p
  obtain ⟨horizontal, hhorizontal⟩ := scanBoth_total h₃ h₄ p
  obtain ⟨rising, hrising⟩ := scanBoth_total h₅ h₆ p
  obtain ⟨falling, hfalling⟩ := scanBoth_total h₇ h₈ p
  unfold checkForWinner
  simp only [howner, hcolumn, hrow, hvertical, hhorizontal, hrising, hfalling, bind,
    Except.bind, pure, Except.pure]
  cases vertical <;> cases horizontal <;> cases rising <;> cases falling <;> exact ⟨_, rfl⟩

/-! ## Turns -/

theorem drop_lands {b b' : Board} (hb : b.Shaped) {column p : UInt8}
    (h : b.dropPieceInColumn column p = .ok (true, b')) :
    b'.Shaped ∧ b'.numColumns = b.numColumns ∧ b'.numRows = b.numRows ∧
      column.toNat < b.numColumns.toNat ∧
      ∃ row, row.toNat < b.numRows.toNat ∧ b'.getColumnHeight column = .ok (row + 1) := by
  by_cases hc : column.toNat < b.numColumns.toNat
  · obtain ⟨row, hrow, _⟩ := hb.rowIndices_getElem? hc
    have hlen : column.toNat < b.columns.length := by
      rw [hb.columns_length]
      exact hc
    have hcells := hb.column_length _ (List.getElem_mem hlen)
    simp only [Board.dropPieceInColumn, Board.isColumnInRange_iff.mpr hc,
      Board.isColumnFullInternal_ok hb hc, vectorAt, hrow, List.getElem?_eq_getElem hlen,
      bind, Except.bind, pure, Except.pure, Bool.not_true, Bool.false_eq_true, if_false] at h
    split at h
    · cases h
    · cases hcell : b.columns[column.toNat][row.toNat]? with
      | none =>
          rw [hcell] at h
          cases h
      | some old =>
          rw [hcell] at h
          injection h with h
          injection h with _ h
          subst h
          have hin := (List.getElem?_eq_some_iff.mp hcell).1
          rw [hcells] at hin
          refine ⟨⟨?_, fun cells hin' => ?_, ?_⟩, rfl, rfl, hc, row, hin, ?_⟩
          · rw [List.length_set, hb.columns_length]
          · rcases List.mem_or_eq_of_mem_set hin' with hold | rfl
            · exact hb.column_length _ hold
            · rw [List.length_set, hcells]
          · rw [List.length_set, hb.rowIndices_length]
          · have hset : (b.rowIndices.set column.toNat (row + 1))[column.toNat]? =
                some (row + 1) := by
              rw [List.getElem?_set_self (List.getElem?_eq_some_iff.mp hrow).1]
            simp [Board.getColumnHeight, Board.isColumnInRange, UInt8.lt_iff_toNat_lt, hc,
              vectorAt, hset]
  · rw [Board.dropPieceInColumn_badColumn p hc] at h
    cases h

/-- After a disk was dropped nothing throws any more. -/
theorem takeTurn_badColumn_same {g g' : FourAcross} {player column : UInt8}
    (hb : g.board.Shaped) (h : g.takeTurn player column = .ok (g', .badColumn)) : g' = g := by
  rw [takeTurn] at h
  split at h
  · cases h
  · split at h
    · cases h
    · split at h
      · injection h with h
        exact (congrArg Prod.fst h).symm
      · cases h
      · cases h
      · next board hdrop =>
          obtain ⟨hb', hcols, hrows, hc, row, hrow, hheight⟩ := drop_lands hb hdrop
          simp only [hheight] at h
          have hlast : row + 1 - 1 = row := UInt8.add_sub_cancel row 1
          rw [hlast] at h
          have hanswers := (checkForWinner_loops (g := {
            g with
            board := board
            currentPlayer := getNextPlayer { g with board := board }
            lastMove := (column, row)
            numTurns := g.numTurns + 1 }) hb' (hcols ▸ hc) (hrows ▸ hrow)).2
          obtain ⟨winner, hwinner⟩ := hanswers
          rw [hwinner] at h
          cases h

/-- The search out of a last move that is on the board is safe on every board of a size
the constructor accepts, whatever it holds. -/
theorem checkForWinner_safe {g : FourAcross} {b : Board}
    (hnew : Board.new g.board.numColumns g.board.numRows = .ok b) (hshape : g.board.Shaped)
    (hc : g.lastMove.1 < g.board.numColumns) (hr : g.lastMove.2 < g.board.numRows) :
    g.board.numColumns.toNat ≤ 255 ∧ g.board.numRows.toNat ≤ 254 ∧
    (∃ p column row, g.board.getDiskOwnerAt g.lastMove.1 g.lastMove.2 = .ok p ∧
      g.board.getColumn g.lastMove.1 = .ok column ∧ g.board.getRow g.lastMove.2 = .ok row ∧
      column.length = g.board.numRows.toNat ∧ row.length = g.board.numColumns.toNat ∧
      ∀ l ∈ scanLoops g.board column row, l.Safe g) ∧
    (∃ winner, g.checkForWinner = .ok winner) ∧
    (∀ player column g', g.takeTurn player column = .ok (g', .badColumn) → g' = g) ∧
    ∀ i, i < g.board.numColumns ∨ i < g.board.numRows → i ≠ 255 := by
  rw [UInt8.lt_iff_toNat_lt] at hc hr
  obtain ⟨hwf, hcols, hrows, _⟩ := Board.new_spec hnew
  have hlt := g.board.numColumns.toNat_lt
  have hlt' := g.board.numRows.toNat_lt
  have hwider := hwf.wider
  rw [hcols, hrows] at hwider
  obtain ⟨hloops, hanswers⟩ := checkForWinner_loops hshape hc hr
  refine ⟨by omega, by omega, hloops, hanswers,
    fun player column g' h => takeTurn_badColumn_same hshape h, ?_⟩
  rintro i hi rfl
  rw [UInt8.lt_iff_toNat_lt, UInt8.lt_iff_toNat_lt] at hi
  have : (255 : UInt8).toNat = 255 := rfl
  omega

/-- A game on the largest board, all of it player 1's, after a move in its last corner. -/
def crowded : FourAcross where
  numTurns := 64770
  numPlayers := 2
  currentPlayer := 2
  lastMove := (254, 253)
  winner := noWinner
  board := {
    numColumns := 255
    numRows := 254
    columns := List.replicate 255 (List.replicate 254 1)
    rowIndices := List.replicate 255 254 }

theorem checkForWinner_safe_crowded :
    (∃ winner, crowded.checkForWinner = .ok winner) ∧
      ∀ player column g', crowded.takeTurn player column = .ok (g', .badColumn) →
        g' = crowded := by
  have hshape : crowded.board.Shaped := by
    refine ⟨List.length_replicate, fun cells hcells => ?_, List.length_replicate⟩
    rw [List.eq_of_mem_replicate hcells, List.length_replicate]
    rfl
  obtain ⟨_, _, _, hanswers, hsame, _⟩ := checkForWinner_safe
    (@Board.new_ok 255 254 (by decide) (by decide) (by decide))
    hshape (by decide) (by decide)
  exact ⟨hanswers, hsame⟩

end FourAcross

end ConnectDisks.Game
