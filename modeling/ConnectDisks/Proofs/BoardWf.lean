import ConnectDisks.Game.Board

/-!
# What a board built by the constructor keeps

`Board.Wf` is what the constructor establishes and a drop preserves: the
dimensions it let through, a grid of exactly that shape, and no column higher
than the grid. On such a board none of the accessors faults for an index in
range, and each one's answer is read off `diskAt` and `height`, the two
functions every later file talks about instead of the vectors.

Looking at the board needs less: `Board.Shaped` says only that the vectors have the
lengths the dimensions promise, whatever is in them.
-/

namespace ConnectDisks.Game

namespace Board

/-- The disk or empty slot at a column and row, if there is such a cell. -/
def diskAt (b : Board) (c r : Nat) : Option UInt8 :=
  b.columns[c]?.bind (·[r]?)

def height (b : Board) (c : Nat) : Nat :=
  (b.rowIndices.getD c 0).toNat

structure Wf (b : Board) : Prop where
  minColumns : 5 ≤ b.numColumns.toNat
  minRows : 4 ≤ b.numRows.toNat
  wider : b.numRows.toNat < b.numColumns.toNat
  columns_length : b.columns.length = b.numColumns.toNat
  column_length : ∀ cells ∈ b.columns, cells.length = b.numRows.toNat
  rowIndices_length : b.rowIndices.length = b.numColumns.toNat
  height_le : ∀ c, b.height c ≤ b.numRows.toNat

/-- The vectors have the lengths the dimensions promise. -/
structure Shaped (b : Board) : Prop where
  columns_length : b.columns.length = b.numColumns.toNat
  column_length : ∀ cells ∈ b.columns, cells.length = b.numRows.toNat
  rowIndices_length : b.rowIndices.length = b.numColumns.toNat

theorem Wf.shaped {b : Board} (hb : b.Wf) : b.Shaped :=
  ⟨hb.columns_length, hb.column_length, hb.rowIndices_length⟩

/-- The board after a disk of `player` landed in column `c`. -/
def drop (b : Board) (c : Nat) (player : UInt8) : Board :=
  { b with
    columns := b.columns.modify c fun cells => cells.set (b.height c) player
    rowIndices := b.rowIndices.modify c (· + 1) }

@[simp] theorem drop_numColumns (b : Board) (c : Nat) (p : UInt8) :
    (b.drop c p).numColumns = b.numColumns := rfl

@[simp] theorem drop_numRows (b : Board) (c : Nat) (p : UInt8) :
    (b.drop c p).numRows = b.numRows := rfl

theorem isColumnInRange_iff {b : Board} {column : UInt8} :
    b.isColumnInRange column = true ↔ column.toNat < b.numColumns.toNat := by
  simp [isColumnInRange, UInt8.lt_iff_toNat_lt]

theorem isRowInRange_iff {b : Board} {row : UInt8} :
    b.isRowInRange row = true ↔ row.toNat < b.numRows.toNat := by
  simp [isRowInRange, UInt8.lt_iff_toNat_lt]

theorem vectorAt_of_lt {xs : List UInt8} {i : UInt8} (h : i.toNat < xs.length) :
    vectorAt xs i = .ok xs[i.toNat] := by
  rw [vectorAt, List.getElem?_eq_getElem h]

/-! ## The constructor -/

theorem new_ok {numColumns numRows : UInt8} (hc : 5 ≤ numColumns.toNat)
    (hr : 4 ≤ numRows.toNat) (h : numRows.toNat < numColumns.toNat) :
    Board.new numColumns numRows = .ok {
      numColumns := numColumns
      numRows := numRows
      columns := List.replicate numColumns.toNat
        (List.replicate numRows.toNat emptySlot)
      rowIndices := List.replicate numColumns.toNat 0 } := by
  rw [Board.new, if_neg]
  simp only [UInt8.lt_iff_toNat_lt, minColumns, minRows, UInt8.reduceToNat]
  omega

theorem new_spec {numColumns numRows : UInt8} {b : Board}
    (h : Board.new numColumns numRows = .ok b) :
    b.Wf ∧ b.numColumns = numColumns ∧ b.numRows = numRows ∧
      (∀ c, b.height c = 0) ∧ ∀ c r p, b.diskAt c r = some p → p = emptySlot := by
  rw [Board.new] at h
  split at h
  · cases h
  · next hdim =>
      simp only [UInt8.lt_iff_toNat_lt, minColumns, minRows, UInt8.reduceToNat,
        not_or, Nat.not_lt] at hdim
      injection h with h
      subst h
      have hheight : ∀ c, (List.replicate numColumns.toNat (0 : UInt8)).getD c 0
          = 0 := by
        intro c
        simp [List.getD_eq_getElem?_getD, List.getElem?_replicate]
        split <;> rfl
      refine ⟨⟨by simpa using hdim.1, by simpa using hdim.2.1, ?_, by simp, ?_, by simp,
        ?_⟩, rfl, rfl, ?_, ?_⟩
      · show numRows.toNat < numColumns.toNat
        omega
      · intro cells hcells
        rw [List.eq_of_mem_replicate hcells]
        simp
      · intro c
        simp only [height, hheight]
        exact Nat.zero_le _
      · intro c
        simp only [height, hheight]
        rfl
      · intro c r p hp
        obtain ⟨cells, hcells, hp⟩ := Option.bind_eq_some_iff.mp hp
        rw [List.eq_of_mem_replicate (List.mem_of_getElem? hcells)] at hp
        exact List.eq_of_mem_replicate (List.mem_of_getElem? hp)

/-! ## The accessors, on a board of its shape -/

variable {b : Board}

theorem Shaped.diskAt_isSome (hb : b.Shaped) {c r : Nat} (hc : c < b.numColumns.toNat)
    (hr : r < b.numRows.toNat) : ∃ p, b.diskAt c r = some p := by
  have hlen : c < b.columns.length := by rw [hb.columns_length]; exact hc
  have hcell : r < b.columns[c].length := by
    rw [hb.column_length _ (List.getElem_mem hlen)]; exact hr
  refine ⟨b.columns[c][r], ?_⟩
  rw [diskAt, List.getElem?_eq_getElem hlen, Option.bind_some,
    List.getElem?_eq_getElem hcell]

theorem Shaped.of_diskAt (hb : b.Shaped) {c r : Nat} {p : UInt8}
    (h : b.diskAt c r = some p) :
    c < b.numColumns.toNat ∧ r < b.numRows.toNat := by
  obtain ⟨cells, hcells, hp⟩ := Option.bind_eq_some_iff.mp h
  have hc := (List.getElem?_eq_some_iff.mp hcells).1
  have hr := (List.getElem?_eq_some_iff.mp hp).1
  rw [hb.columns_length] at hc
  rw [hb.column_length _ (List.mem_of_getElem? hcells)] at hr
  exact ⟨hc, hr⟩

theorem getDiskOwnerAt_of_diskAt (hb : b.Shaped) {column row p : UInt8}
    (h : b.diskAt column.toNat row.toNat = some p) :
    b.getDiskOwnerAt column row = .ok p := by
  obtain ⟨hc, hr⟩ := hb.of_diskAt h
  obtain ⟨cells, hcells, hp⟩ := Option.bind_eq_some_iff.mp h
  simp [getDiskOwnerAt, isColumnInRange_iff.mpr hc, isRowInRange_iff.mpr hr, hcells,
    vectorAt, hp]

/-- `getColumn` answers the cells themselves, so an unchecked index into its
answer reads the board. -/
theorem getColumn_ok (hb : b.Shaped) {column : UInt8}
    (hc : column.toNat < b.numColumns.toNat) :
    ∃ cells, b.getColumn column = .ok cells ∧ cells.length = b.numRows.toNat ∧
      ∀ (row p : UInt8), b.diskAt column.toNat row.toNat = some p →
        vectorAt cells row = .ok p := by
  have hlen : column.toNat < b.columns.length := by rw [hb.columns_length]; exact hc
  refine ⟨b.columns[column.toNat], ?_, hb.column_length _ (List.getElem_mem hlen), ?_⟩
  · simp [getColumn, isColumnInRange_iff.mpr hc, List.getElem?_eq_getElem hlen, pure,
      Except.pure]
  · intro row p hp
    rw [diskAt, List.getElem?_eq_getElem hlen, Option.bind_some] at hp
    rw [vectorAt, hp]

theorem mapM_vectorAt {columns : List (List UInt8)} (row : UInt8)
    (h : ∀ cells ∈ columns, row.toNat < cells.length) :
    ∃ cells, columns.mapM (fun column => vectorAt column row) = .ok cells ∧
      cells.length = columns.length ∧
      ∀ c : Nat, cells[c]? = columns[c]?.bind (·[row.toNat]?) := by
  induction columns with
  | nil => exact ⟨[], rfl, rfl, by simp⟩
  | cons x xs ih =>
      obtain ⟨cells, hcells, hlen, hget⟩ := ih fun y hy => h y (List.mem_cons_of_mem x hy)
      have hx := h x List.mem_cons_self
      refine ⟨x[row.toNat] :: cells, ?_, congrArg (· + 1) hlen, ?_⟩
      · rw [List.mapM_cons, hcells, vectorAt_of_lt hx]
        rfl
      · intro c
        cases c with
        | zero => simp [hx]
        | succ c => simpa using hget c

theorem getRow_ok (hb : b.Shaped) {row : UInt8} (hr : row.toNat < b.numRows.toNat) :
    ∃ cells, b.getRow row = .ok cells ∧ cells.length = b.numColumns.toNat ∧
      ∀ (column p : UInt8), b.diskAt column.toNat row.toNat = some p →
        vectorAt cells column = .ok p := by
  obtain ⟨cells, hcells, hlen, hget⟩ := mapM_vectorAt row
    fun y hy => (hb.column_length y hy).symm ▸ hr
  refine ⟨cells, ?_, hlen.trans hb.columns_length, ?_⟩
  · simp [getRow, isRowInRange_iff.mpr hr, hcells]
  · intro column p hp
    rw [vectorAt, hget, show b.columns[column.toNat]?.bind _ = some p from hp]

theorem Shaped.rowIndices_getElem? (hb : b.Shaped) {c : Nat} (hc : c < b.numColumns.toNat) :
    ∃ h : UInt8, b.rowIndices[c]? = some h ∧ h.toNat = b.height c := by
  have hlen : c < b.rowIndices.length := by rw [hb.rowIndices_length]; exact hc
  refine ⟨b.rowIndices[c], List.getElem?_eq_getElem hlen, ?_⟩
  simp [height, hlen]

theorem getColumnHeight_ok (hb : b.Shaped) {column : UInt8}
    (hc : column.toNat < b.numColumns.toNat) :
    ∃ h : UInt8, b.getColumnHeight column = .ok h ∧
      h.toNat = b.height column.toNat := by
  obtain ⟨h, hget, hh⟩ := hb.rowIndices_getElem? hc
  refine ⟨h, ?_, hh⟩
  simp [getColumnHeight, isColumnInRange_iff.mpr hc, vectorAt, hget]

theorem isColumnFullInternal_ok (hb : b.Shaped) {column : UInt8}
    (hc : column.toNat < b.numColumns.toNat) :
    b.isColumnFullInternal column =
      .ok (decide (b.height column.toNat = b.numRows.toNat)) := by
  obtain ⟨h, hget, hh⟩ := hb.rowIndices_getElem? hc
  have heq : (h == b.numRows) = decide (b.height column.toNat = b.numRows.toNat) := by
    rw [beq_eq_decide, decide_eq_decide, ← hh]
    exact UInt8.toNat_inj.symm
  simp [isColumnFullInternal, vectorAt, hget, heq, bind, Except.bind, pure, Except.pure]

/-- `isFull` asks every column, and its byte counter stops at the dimension
without wrapping. -/
theorem isFullFrom_ok (hb : b.Shaped) : ∀ (fuel : Nat) (i : UInt8),
    b.numColumns.toNat < i.toNat + fuel → i.toNat ≤ b.numColumns.toNat →
    ∃ full, b.isFullFrom fuel i = .ok full ∧
      (full = true ↔ ∀ c, i.toNat ≤ c → c < b.numColumns.toNat →
        b.height c = b.numRows.toNat) := by
  intro fuel
  induction fuel with
  | zero => intro i hfuel hle; omega
  | succ n ih =>
      intro i hfuel hle
      rw [isFullFrom]
      split
      · next hlt =>
          have hlt' : i.toNat < b.numColumns.toNat := UInt8.lt_iff_toNat_lt.mp hlt
          have hnext : (i + 1).toNat = i.toNat + 1 := by
            have := b.numColumns.toNat_lt
            rw [UInt8.toNat_add]
            simp
            omega
          rw [isColumnFullInternal_ok hb hlt']
          by_cases hfull : b.height i.toNat = b.numRows.toNat
          · obtain ⟨full, hrun, hiff⟩ := ih (i + 1) (by omega) (by omega)
            refine ⟨full, by simp [bind, Except.bind, hfull, hrun], ?_⟩
            rw [hiff, hnext]
            constructor
            · intro h c hic hc
              rcases Nat.eq_or_lt_of_le hic with rfl | hlt
              · exact hfull
              · exact h c hlt hc
            · exact fun h c hic hc => h c (by omega) hc
          · refine ⟨false, by simp [bind, Except.bind, hfull, pure, Except.pure], ?_⟩
            constructor
            · intro h; cases h
            · intro h; exact absurd (h i.toNat (Nat.le_refl _) hlt') hfull
      · next hge =>
          have hge' : b.numColumns.toNat ≤ i.toNat := by
            rw [UInt8.lt_iff_toNat_lt] at hge; omega
          exact ⟨true, rfl, fun _ c hic hc => absurd hc (by omega), fun _ => rfl⟩

theorem isFull_ok (hb : b.Shaped) :
    ∃ full, b.isFull = .ok full ∧
      (full = true ↔ ∀ c < b.numColumns.toNat, b.height c = b.numRows.toNat) := by
  have hlt := b.numColumns.toNat_lt
  obtain ⟨full, hrun, hiff⟩ := isFullFrom_ok hb 256 0 (by simpa using hlt) (by simp)
  exact ⟨full, hrun, by simpa using hiff⟩

/-! ## Dropping a disk -/

theorem height_drop (hb : b.Wf) {c : Nat} (p : UInt8)
    (hc : c < b.numColumns.toNat) (hfree : b.height c < b.numRows.toNat) (c' : Nat) :
    (b.drop c p).height c' = b.height c' + if c' = c then 1 else 0 := by
  obtain ⟨h, hget, hh⟩ := hb.shaped.rowIndices_getElem? hc
  have hlt := b.numRows.toNat_lt
  by_cases hcc : c' = c
  · subst hcc
    have hnext : (h + 1).toNat = h.toNat + 1 := by
      rw [UInt8.toNat_add]; simp; omega
    simp [height, drop, List.getD_eq_getElem?_getD, hget, hnext]
  · simp [height, drop, List.getD_eq_getElem?_getD, hcc, Ne.symm hcc]

theorem diskAt_drop (hb : b.Wf) {c : Nat} (p : UInt8)
    (hc : c < b.numColumns.toNat) (hfree : b.height c < b.numRows.toNat) (c' r : Nat) :
    (b.drop c p).diskAt c' r =
      if c' = c ∧ r = b.height c then some p else b.diskAt c' r := by
  have hlen : c < b.columns.length := by rw [hb.columns_length]; exact hc
  have hcell : b.height c < b.columns[c].length := by
    rw [hb.column_length _ (List.getElem_mem hlen)]; exact hfree
  by_cases hcc : c' = c
  · subst hcc
    simp only [diskAt, drop, List.getElem?_modify, List.getElem?_eq_getElem hlen,
      if_true, Option.map_some, Option.map_eq_map, Option.bind_some,
      List.getElem?_set, true_and]
    by_cases hr : b.height c' = r
    · subst hr
      simp [hcell]
    · simp [hr, Ne.symm hr]
  · simp [diskAt, drop, hcc, Ne.symm hcc]

theorem Wf.drop (hb : b.Wf) {c : Nat} (p : UInt8) (hc : c < b.numColumns.toNat)
    (hfree : b.height c < b.numRows.toNat) : (b.drop c p).Wf where
  minColumns := hb.minColumns
  minRows := hb.minRows
  wider := hb.wider
  columns_length := by simpa [Board.drop] using hb.columns_length
  column_length := by
    intro cells hcells
    obtain ⟨i, hi⟩ := List.mem_iff_getElem?.mp hcells
    simp only [Board.drop, List.getElem?_modify] at hi
    obtain ⟨old, hold, hi⟩ := Option.map_eq_some_iff.mp hi
    have := hb.column_length old (List.mem_of_getElem? hold)
    subst hi
    split <;> simpa using this
  rowIndices_length := by simpa [Board.drop] using hb.rowIndices_length
  height_le := by
    intro c'
    rw [height_drop hb p hc hfree]
    have := hb.height_le c'
    split
    · next h => subst h; simp only [drop_numRows]; omega
    · simpa using this

/-- The three ways out of `dropPieceInColumn`. -/
theorem dropPieceInColumn_badColumn {column : UInt8} (p : UInt8)
    (hc : ¬ column.toNat < b.numColumns.toNat) :
    b.dropPieceInColumn column p =
      .error (.outOfRange "Board::dropPieceInColumn: index out of range") := by
  have h : b.isColumnInRange column = false := by
    rw [← Bool.not_eq_true, isColumnInRange_iff]; exact hc
  simp [dropPieceInColumn, h, throw, throwThe, MonadExceptOf.throw, bind, Except.bind]

theorem dropPieceInColumn_full (hb : b.Wf) {column : UInt8} (p : UInt8)
    (hc : column.toNat < b.numColumns.toNat)
    (hfull : b.height column.toNat = b.numRows.toNat) :
    b.dropPieceInColumn column p = .ok (false, b) := by
  simp [dropPieceInColumn, isColumnInRange_iff.mpr hc, isColumnFullInternal_ok hb.shaped hc,
    hfull, bind, Except.bind, pure, Except.pure]

theorem dropPieceInColumn_ok (hb : b.Wf) {column : UInt8} (p : UInt8)
    (hc : column.toNat < b.numColumns.toNat)
    (hfree : b.height column.toNat < b.numRows.toNat) :
    b.dropPieceInColumn column p = .ok (true, b.drop column.toNat p) := by
  obtain ⟨h, hget, hh⟩ := hb.shaped.rowIndices_getElem? hc
  have hlen : column.toNat < b.columns.length := by rw [hb.columns_length]; exact hc
  have hcell : h.toNat < b.columns[column.toNat].length := by
    rw [hb.column_length _ (List.getElem_mem hlen), hh]; exact hfree
  have hcols : b.columns.modify column.toNat
        (fun cells => cells.set (b.height column.toNat) p) =
      b.columns.set column.toNat (b.columns[column.toNat].set h.toNat p) := by
    rw [List.modify_eq_set_getElem?, List.getElem?_eq_getElem hlen, hh]
    rfl
  have hrows : b.rowIndices.modify column.toNat (· + 1) =
      b.rowIndices.set column.toNat (h + 1) := by
    rw [List.modify_eq_set_getElem?, hget]
    rfl
  simp [dropPieceInColumn, isColumnInRange_iff.mpr hc, isColumnFullInternal_ok hb.shaped hc,
    Nat.ne_of_lt hfree, List.getElem?_eq_getElem hlen, Board.drop, hcols, hrows, vectorAt,
    hget, hcell, bind, Except.bind, pure, Except.pure]

end Board

end ConnectDisks.Game
