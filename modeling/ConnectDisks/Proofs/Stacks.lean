import ConnectDisks.Game.Stacks
import ConnectDisks.Proofs.Text

/-!
# A board is a row of stacks

`toBoard` is how stacks are laid out in the vectors of a board: every column filled up
with empty cells, and the heights in `rowIndices`. Each function of the board answers on
that layout what `Stacks.values` says, and leaves the layout of the stacks it says
(`call_toBoard`). On a board that was moved from, whose dimensions are zero, no function
gets past its range check, so what is left in the vectors is never looked at
(`call_husk`). So programs with any number of boards, moved about in any way, get the
answers of stacks (`boards_are_stacks`), and no unchecked index is ever out of range.
-/

namespace ConnectDisks.Game

open Lib

namespace Board

variable {b : Board} {column row : UInt8}

/-! ## Outside the board -/

theorem dropPieceInColumn_outside (h : b.isColumnInRange column = false) (playerNum : UInt8) :
    b.dropPieceInColumn column playerNum =
      .error (.outOfRange "Board::dropPieceInColumn: index out of range") := by
  rw [dropPieceInColumn, h]
  rfl

theorem isColumnFull_outside (h : b.isColumnInRange column = false) :
    b.isColumnFull column =
      .error (.outOfRange "Board::isColumnFull: index out of range") := by
  rw [isColumnFull, h]
  rfl

theorem getDiskOwnerAt_outside
    (h : (b.isColumnInRange column && b.isRowInRange row) = false) :
    b.getDiskOwnerAt column row =
      .error (.outOfRange "Board::getPieceOwnerAt: index out of range") := by
  rw [getDiskOwnerAt, ← Bool.not_and, h]
  rfl

theorem getColumn_outside (h : b.isColumnInRange column = false) :
    b.getColumn column = .error (.outOfRange "Board::getColumn: index out of range") := by
  rw [getColumn, h]
  rfl

theorem getColumnHeight_outside (h : b.isColumnInRange column = false) :
    b.getColumnHeight column = .error (.outOfRange "Board::getColumn: index out of range") := by
  rw [getColumnHeight, h]
  rfl

theorem getRow_outside (h : b.isRowInRange row = false) :
    b.getRow row = .error (.outOfRange "Board::getRow: index out of range") := by
  rw [getRow, h]
  rfl

theorem toText_outside (h : b.isRowInRange (b.numRows - 1) = false) :
    b.toText = .error (.outOfRange "Board::getRow: index out of range") := by
  rw [toText, rowText, getRow_outside h]
  rfl

end Board

namespace Stacks

variable (s : Stacks)

/-- The vectors of the board. -/
def toBoard : Board where
  numColumns := s.numColumns
  numRows := s.numRows
  columns := s.piles.map fun stack => (List.range s.numRows.toNat).map (cell stack)
  rowIndices := s.piles.map fun stack => UInt8.ofNat stack.length

/-- A board that lays out some stacks, or one that was moved from. -/
def Means (b : Board) : Option Stacks → Prop
  | some s => b = s.toBoard
  | none => b.numColumns = 0 ∧ b.numRows = 0

theorem length_lt {stack : List UInt8} (h : stack ∈ s.piles) : stack.length < 256 :=
  Nat.lt_of_le_of_lt (s.height_le stack h) s.numRows.toNat_lt

theorem piles_getElem? {column : UInt8} (h : column.toNat < s.numColumns.toNat) :
    s.piles[column.toNat]? = some (s.stack column) := by
  rw [stack, List.getD_eq_getElem?_getD, List.getElem?_eq_getElem (s.length ▸ h)]
  rfl

theorem toNat_ofNat {c : Nat} (h : c < s.numColumns.toNat) : (UInt8.ofNat c).toNat = c := by
  have hlt := s.numColumns.toNat_lt
  rw [UInt8.toNat_ofNat']
  omega

theorem stack_mem {column : UInt8} (h : column.toNat < s.numColumns.toNat) :
    s.stack column ∈ s.piles :=
  List.mem_of_getElem? (s.piles_getElem? h)

theorem toBoard_height (column : UInt8) (h : column.toNat < s.numColumns.toNat) :
    s.toBoard.height column.toNat = (s.stack column).length := by
  have hlt := s.length_lt (s.stack_mem h)
  simp only [Board.height, toBoard, List.getD_eq_getElem?_getD, List.getElem?_map,
    s.piles_getElem? h, Option.map_some, Option.getD_some, UInt8.toNat_ofNat']
  omega

theorem toBoard_wf : s.toBoard.Wf where
  minColumns := s.minColumns
  minRows := s.minRows
  wider := s.wider
  columns_length := by simp [toBoard, s.length]
  column_length := by
    intro cells hcells
    obtain ⟨stack, _, rfl⟩ := List.mem_map.mp hcells
    simp [toBoard]
  rowIndices_length := by simp [toBoard, s.length]
  height_le := by
    intro c
    rw [Board.height, toBoard, List.getD_eq_getElem?_getD, List.getElem?_map]
    cases hc : s.piles[c]? with
    | none => exact Nat.zero_le _
    | some stack =>
        have hmem := List.mem_of_getElem? hc
        have hle := s.height_le stack hmem
        have hlt := s.length_lt hmem
        simp only [Option.map_some, Option.getD_some, UInt8.toNat_ofNat']
        omega

theorem toBoard_diskAt {c r : Nat} (hr : r < s.numRows.toNat) :
    s.toBoard.diskAt c r = s.piles[c]?.map (cell · r) := by
  rw [Board.diskAt, toBoard, List.getElem?_map]
  cases s.piles[c]? with
  | none => rfl
  | some stack => simp [hr]

/-! ## Dropping a disk -/

theorem cells_push (stack : List UInt8) (p : UInt8) (n : Nat) :
    ((List.range n).map (cell stack)).set stack.length p =
      (List.range n).map (cell (stack ++ [p])) := by
  refine List.ext_getElem (by simp) fun r hr hr' => ?_
  simp only [List.length_set, List.length_map, List.length_range] at hr
  rw [List.getElem_set, List.getElem_map, List.getElem_map, List.getElem_range]
  simp only [cell, List.getD_eq_getElem?_getD]
  rcases Nat.lt_trichotomy r stack.length with hlt | rfl | hgt
  · rw [if_neg (by omega), List.getElem?_append_left hlt]
  · simp
  · rw [if_neg (by omega), List.getElem?_append_right (by omega),
      List.getElem?_eq_none (by omega), List.getElem?_eq_none (by simp; omega)]

theorem toBoard_push {column p : UInt8} (hc : column.toNat < s.numColumns.toNat)
    (h : (s.stack column).length < s.numRows.toNat) :
    (s.push column p h).toBoard = s.toBoard.drop column.toNat p := by
  have hcolumns : (s.push column p h).toBoard.columns =
      (s.toBoard.drop column.toNat p).columns := by
    rw [Board.drop, s.toBoard_height column hc]
    simp only [toBoard, push, List.map_set]
    rw [List.modify_eq_set_getElem?, List.getElem?_map, s.piles_getElem? hc]
    simp [cells_push]
  have hindices : (s.push column p h).toBoard.rowIndices =
      (s.toBoard.drop column.toNat p).rowIndices := by
    simp only [Board.drop, toBoard, push, List.map_set]
    rw [List.modify_eq_set_getElem?, List.getElem?_map, s.piles_getElem? hc]
    simp
  exact (Board.mk.injEq ..).mpr ⟨rfl, rfl, hcolumns, hindices⟩

/-! ## What a board prints -/

theorem intercalate_cons {α : Type*} (sep x : List α) (xs : List (List α)) :
    sep.intercalate (x :: xs) = x ++ (xs.map (sep ++ ·)).flatten := by
  induction xs generalizing x with
  | nil => simp
  | cons y ys ih =>
      rw [List.intercalate_cons_cons, ih, List.map_cons, List.flatten_cons, List.append_assoc,
        List.append_assoc]

theorem line_eq (cells : List UInt8) (h : cells ≠ []) :
    line cells = Board.lineText (cells.map UInt8.toNat) ++ ['\n'] := by
  obtain ⟨x, xs, rfl⟩ := List.exists_cons_of_ne_nil h
  rw [line, List.map_cons, intercalate_cons, List.map_cons, Board.lineText, Board.cellsText,
    List.map_map, List.map_map]
  rfl

theorem rowShown_toBoard {r : Nat} (hr : r < s.numRows.toNat) :
    s.toBoard.rowShown r = (s.row r).map UInt8.toNat := by
  refine List.ext_getElem (by simp [Board.rowShown, row, toBoard, s.length]) fun c hc hc' => ?_
  simp only [List.length_map, row] at hc'
  simp [Board.rowShown, row, s.toBoard_diskAt hr, hc']

theorem toText_toBoard : s.toBoard.toText = .ok s.picture := by
  have hmin := s.minColumns
  have hrows := s.minRows
  have hline : ∀ r < s.numRows.toNat,
      line (s.row r) = Board.lineText (s.toBoard.rowShown r) ++ ['\n'] := by
    intro r hr
    rw [s.rowShown_toBoard hr]
    refine line_eq _ fun hnil => ?_
    have hlen := congrArg List.length hnil
    rw [row, List.length_map, s.length, List.length_nil] at hlen
    omega
  have hseparator : s.toBoard.separator =
      List.replicate (4 * s.numColumns.toNat - 1) '-' ++ ['\n'] := by
    rw [Board.separator]
    show List.replicate (3 * s.numColumns.toNat + (s.numColumns.toNat - 1)) '-' ++ _ = _
    rw [show 3 * s.numColumns.toNat + (s.numColumns.toNat - 1) = 4 * s.numColumns.toNat - 1 by
      omega]
  have hrange : (List.range s.numRows.toNat).reverse =
      (s.numRows.toNat - 1) :: (List.range (s.numRows.toNat - 1)).reverse := by
    obtain ⟨n, hn⟩ := Nat.exists_eq_succ_of_ne_zero (show s.numRows.toNat ≠ 0 by omega)
    rw [hn, List.range_succ, List.reverse_append, Nat.succ_sub_one]
    rfl
  have hrest : s.toBoard.rowsText (List.range (s.numRows.toNat - 1)).reverse =
      (((List.range (s.numRows.toNat - 1)).reverse.map fun r => line (s.row r)).map
        (s.toBoard.separator ++ ·)).flatten := by
    rw [Board.rowsText, List.map_map]
    refine congrArg List.flatten (List.map_congr_left fun r hr => ?_)
    have hlt := List.mem_range.mp (List.mem_reverse.mp hr)
    rw [Function.comp_apply, hline r (by omega)]
  rw [Board.toText_ok s.toBoard_wf.shaped (by show 0 < s.numColumns.toNat; omega)
    (by show 0 < s.numRows.toNat; omega), picture, hrange, List.map_cons, intercalate_cons,
    ← hseparator, hline _ (by omega), ← hrest]
  rfl

/-! ## The other functions -/

theorem isColumnInRange_toBoard (column : UInt8) :
    s.toBoard.isColumnInRange column = decide (column < s.numColumns) := rfl

theorem isRowInRange_toBoard (row : UInt8) :
    s.toBoard.isRowInRange row = decide (row < s.numRows) := rfl

theorem isColumnFullInternal_toBoard {column : UInt8} (h : column < s.numColumns) :
    s.toBoard.isColumnFullInternal column =
      .ok ((s.stack column).length == s.numRows.toNat) := by
  have hc := UInt8.lt_iff_toNat_lt.mp h
  rw [Board.isColumnFullInternal_ok s.toBoard_wf.shaped hc, s.toBoard_height column hc]
  rfl

theorem isFull_toBoard :
    s.toBoard.isFull = .ok (s.piles.all fun stack => stack.length == s.numRows.toNat) := by
  obtain ⟨full, hfull, hiff⟩ := Board.isFull_ok s.toBoard_wf.shaped
  rw [hfull]
  refine congrArg _ (Bool.eq_iff_iff.mpr (hiff.trans ?_))
  rw [List.all_eq_true]
  constructor
  · intro h stack hmem
    obtain ⟨c, hc, hget⟩ := List.getElem_of_mem hmem
    have hlt : c < s.numColumns.toNat := s.length ▸ hc
    have hback := s.toNat_ofNat hlt
    have hcol : (UInt8.ofNat c).toNat < s.numColumns.toNat := hback.symm ▸ hlt
    have hstack : s.stack (UInt8.ofNat c) = stack := by
      have hsame := s.piles_getElem? hcol
      rw [hback, List.getElem?_eq_getElem hc, hget] at hsame
      exact (Option.some.inj hsame).symm
    have hheight := s.toBoard_height _ hcol
    rw [hback, h c hlt, hstack] at hheight
    exact beq_iff_eq.mpr hheight.symm
  · intro h c hc
    have hback := s.toNat_ofNat hc
    have hcol : (UInt8.ofNat c).toNat < s.numColumns.toNat := hback.symm ▸ hc
    have hheight := s.toBoard_height _ hcol
    rw [hback] at hheight
    rw [hheight]
    exact beq_iff_eq.mp (h _ (s.stack_mem hcol))

theorem getRow_toBoard {row : UInt8} (h : row < s.numRows) :
    s.toBoard.getRow row = .ok (s.row row.toNat) := by
  have hr := UInt8.lt_iff_toNat_lt.mp h
  have hcells : s.toBoard.columns.mapM (fun column => vectorAt column row) =
      .ok (s.toBoard.columns.map fun column => column.getD row.toNat Board.emptySlot) := by
    refine mapM_ok fun cells hmem => ?_
    obtain ⟨stack, _, rfl⟩ := List.mem_map.mp hmem
    rw [Board.vectorAt_of_lt (by simpa using hr), List.getD_eq_getElem?_getD,
      List.getElem?_eq_getElem (by simpa using hr)]
    rfl
  have hrow : (s.toBoard.columns.map fun column => column.getD row.toNat Board.emptySlot) =
      s.row row.toNat := by
    rw [toBoard, List.map_map, Stacks.row]
    refine List.map_congr_left fun stack _ => ?_
    simp [hr]
  rw [Board.getRow, isRowInRange_toBoard, decide_eq_true h, hcells, hrow]
  rfl

theorem columns_toBoard {column : UInt8} (h : column < s.numColumns) :
    s.toBoard.columns[column.toNat]? =
      some ((List.range s.numRows.toNat).map (cell (s.stack column))) := by
  rw [toBoard, List.getElem?_map, s.piles_getElem? (UInt8.lt_iff_toNat_lt.mp h)]
  rfl

theorem getDiskOwnerAt_toBoard {column row : UInt8} (hc : column < s.numColumns)
    (hr : row < s.numRows) :
    s.toBoard.getDiskOwnerAt column row = .ok (cell (s.stack column) row.toNat) := by
  have hr' := UInt8.lt_iff_toNat_lt.mp hr
  rw [Board.getDiskOwnerAt, isColumnInRange_toBoard, isRowInRange_toBoard, decide_eq_true hc,
    decide_eq_true hr, s.columns_toBoard hc]
  show vectorAt _ row = _
  rw [Board.vectorAt_of_lt (by simpa using hr')]
  simp

theorem getColumn_toBoard {column : UInt8} (h : column < s.numColumns) :
    s.toBoard.getColumn column =
      .ok ((List.range s.numRows.toNat).map (cell (s.stack column))) := by
  rw [Board.getColumn, isColumnInRange_toBoard, decide_eq_true h, s.columns_toBoard h]
  rfl

theorem getColumnHeight_toBoard {column : UInt8} (h : column < s.numColumns) :
    s.toBoard.getColumnHeight column = .ok (UInt8.ofNat (s.stack column).length) := by
  have hget : s.toBoard.rowIndices[column.toNat]? = some (UInt8.ofNat (s.stack column).length) := by
    rw [toBoard, List.getElem?_map, s.piles_getElem? (UInt8.lt_iff_toNat_lt.mp h)]
    rfl
  rw [Board.getColumnHeight, isColumnInRange_toBoard, decide_eq_true h]
  show vectorAt _ column = _
  rw [vectorAt, hget]

theorem call_toBoard (op : Board.Call) :
    (s.toBoard.call op).1 = (s.call op).1 ∧ (s.toBoard.call op).2 = (s.call op).2.toBoard := by
  have hout : ∀ column, ¬ column < s.numColumns → s.toBoard.isColumnInRange column = false :=
    fun column hc => (s.isColumnInRange_toBoard column).trans (decide_eq_false hc)
  cases op with
  | dropPieceInColumn column playerNum =>
      by_cases hc : column < s.numColumns
      · have hc' := UInt8.lt_iff_toNat_lt.mp hc
        by_cases h : (s.stack column).length < s.numRows.toNat
        · simp only [Board.call, call, if_pos hc, dif_pos h,
            Board.dropPieceInColumn_ok s.toBoard_wf playerNum hc'
              (by rw [s.toBoard_height column hc']; exact h),
            s.toBoard_push hc' h, and_self]
        · have hfull : s.toBoard.height column.toNat = s.numRows.toNat := by
            rw [s.toBoard_height column hc']
            exact Nat.le_antisymm (s.height_le _ (s.stack_mem hc')) (Nat.not_lt.mp h)
          simp only [Board.call, call, if_pos hc, dif_neg h,
            Board.dropPieceInColumn_full s.toBoard_wf playerNum hc' hfull, and_self]
      · simp only [Board.call, call, if_neg hc,
          Board.dropPieceInColumn_outside (hout column hc), outside, and_self]
  | isFull => simp only [Board.call, call, s.isFull_toBoard, Answer.of, and_self]
  | isColumnFull column =>
      by_cases hc : column < s.numColumns
      · simp only [Board.call, call, if_pos hc, Board.isColumnFull, isColumnInRange_toBoard,
          decide_eq_true hc, s.isColumnFullInternal_toBoard hc]
        exact ⟨rfl, trivial⟩
      · simp only [Board.call, call, if_neg hc, Board.isColumnFull_outside (hout column hc),
          Answer.of, outside, and_self]
  | getDiskOwnerAt column row =>
      by_cases hin : column < s.numColumns ∧ row < s.numRows
      · simp only [Board.call, call, if_pos hin, s.getDiskOwnerAt_toBoard hin.1 hin.2, Answer.of,
          and_self]
      · have hrange : (s.toBoard.isColumnInRange column && s.toBoard.isRowInRange row) = false := by
          rw [isColumnInRange_toBoard, isRowInRange_toBoard, ← Bool.decide_and]
          exact decide_eq_false hin
        simp only [Board.call, call, if_neg hin, Board.getDiskOwnerAt_outside hrange, Answer.of,
          outside, and_self]
  | getColumn column =>
      by_cases hc : column < s.numColumns
      · simp only [Board.call, call, if_pos hc, s.getColumn_toBoard hc, Answer.of, and_self]
      · simp only [Board.call, call, if_neg hc, Board.getColumn_outside (hout column hc),
          Answer.of, outside, and_self]
  | getColumnHeight column =>
      by_cases hc : column < s.numColumns
      · simp only [Board.call, call, if_pos hc, s.getColumnHeight_toBoard hc, Answer.of, and_self]
      · simp only [Board.call, call, if_neg hc, Board.getColumnHeight_outside (hout column hc),
          Answer.of, outside, and_self]
  | getRow row =>
      by_cases hr : row < s.numRows
      · simp only [Board.call, call, if_pos hr, s.getRow_toBoard hr, Answer.of, and_self]
      · have hrange := (s.isRowInRange_toBoard row).trans (decide_eq_false hr)
        simp only [Board.call, call, if_neg hr, Board.getRow_outside hrange, Answer.of, outside,
          and_self]
  | getNumColumns => exact ⟨rfl, rfl⟩
  | getNumRows => exact ⟨rfl, rfl⟩
  | toText => simp only [Board.call, call, s.toText_toBoard, Answer.of, and_self]

theorem call_husk {b : Board} (hcols : b.numColumns = 0) (hrows : b.numRows = 0)
    (op : Board.Call) : b.call op = (husk op, b) := by
  have hcol : ∀ column, b.isColumnInRange column = false := fun column => by
    rw [Board.isColumnInRange, hcols]
    exact decide_eq_false UInt8.not_lt_zero
  have hrow : ∀ row, b.isRowInRange row = false := fun row => by
    rw [Board.isRowInRange, hrows]
    exact decide_eq_false UInt8.not_lt_zero
  cases op with
  | dropPieceInColumn column playerNum =>
      rw [Board.call, Board.dropPieceInColumn_outside (hcol column)]
      rfl
  | isFull =>
      rw [Board.call, Board.isFull, Board.isFullFrom, hcols]
      rfl
  | isColumnFull column =>
      rw [Board.call, Board.isColumnFull_outside (hcol column)]
      rfl
  | getDiskOwnerAt column row =>
      rw [Board.call, Board.getDiskOwnerAt_outside (by rw [hcol, Bool.false_and])]
      rfl
  | getColumn column =>
      rw [Board.call, Board.getColumn_outside (hcol column)]
      rfl
  | getColumnHeight column =>
      rw [Board.call, Board.getColumnHeight_outside (hcol column)]
      rfl
  | getRow row =>
      rw [Board.call, Board.getRow_outside (hrow row)]
      rfl
  | getNumColumns => rw [Board.call, hcols, husk]
  | getNumRows => rw [Board.call, hrows, husk]
  | toText =>
      rw [Board.call, Board.toText_outside (hrow _)]
      rfl

/-! ## Programs -/

theorem new_toBoard (numColumns numRows : UInt8) :
    (∃ s, new numColumns numRows = .ok s ∧ Board.new numColumns numRows = .ok s.toBoard) ∨
    ∃ fault, Board.new numColumns numRows = .error fault ∧
      new numColumns numRows = .error (.thrown fault) := by
  rw [new]
  by_cases h : 5 ≤ numColumns.toNat ∧ 4 ≤ numRows.toNat ∧ numRows.toNat < numColumns.toNat
  · refine .inl ⟨_, dif_pos h, (Board.new_ok h.1 h.2.1 h.2.2).trans (congrArg _ ?_)⟩
    have hempty : (List.range numRows.toNat).map (cell []) =
        List.replicate numRows.toNat Board.emptySlot := by
      refine List.eq_replicate_iff.mpr ⟨by simp, fun p hp => ?_⟩
      obtain ⟨r, _, rfl⟩ := List.mem_map.mp hp
      rfl
    simp [toBoard, hempty]
  · refine .inr ⟨_, ?_, dif_neg h⟩
    rw [Board.new, if_pos]
    simp only [UInt8.lt_iff_toNat_lt, Board.minColumns, Board.minRows, UInt8.reduceToNat]
    omega

/-- Boards implement stacks, whatever the moves leave in their vectors. -/
theorem board_implements (left : Board → Board → Vectors) :
    Implements (Board.movable left) values Means where
  make args := by
    rcases new_toBoard args.1 args.2 with ⟨s, hs, hb⟩ | ⟨fault, hb, hs⟩
    · exact .inl ⟨s.toBoard, s, congrArg (Except.mapError Answer.thrown) hb, hs, rfl⟩
    · exact .inr ⟨.thrown fault, congrArg (Except.mapError Answer.thrown) hb, hs⟩
  call b o op h := by
    cases o with
    | some s =>
        obtain rfl : b = s.toBoard := h
        exact s.call_toBoard op
    | none =>
        have hhusk : b.call op = (husk op, b) := call_husk h.1 h.2 op
        exact ⟨congrArg Prod.fst hhusk, (congrArg Prod.snd hhusk).symm ▸ h⟩
  moveNew b o h := ⟨h, rfl, rfl⟩
  moveInto b' o' b o _ h := ⟨h, rfl, rfl⟩
  moveSelf b o _ := ⟨rfl, rfl⟩

/-- Programs on boards get the answers of stacks: for any number of variables, any
constructions, calls and moves in any order, and whatever the moves leave behind. -/
theorem boards_are_stacks {ι : Type*} [DecidableEq ι] (left : Board → Board → Vectors)
    (program : List (Instr ι (UInt8 × UInt8) Board.Call)) :
    ((Board.movable left).exec (fun _ => none) program).map Prod.snd =
      (values.movable.exec (fun _ => none) program).map Prod.snd :=
  (board_implements left).exec_answers (fun _ => .none) program

end Stacks

end ConnectDisks.Game
