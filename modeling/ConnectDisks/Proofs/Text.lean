import ConnectDisks.Game.Text
import ConnectDisks.Game.Valid
import ConnectDisks.Lib.Numerals
import ConnectDisks.Proofs.Progress
import ConnectDisks.Proofs.WinExact

/-!
# What a game shows of itself

The text of a game can be read back. Its numbers, line by line, are the cells of the
board from the top row down, the current and the next player, the number of turns, and
the winner if there is one (`toText_shows`); no bar, dash or word gets in their way.
So two games that print the same have the same disks, are at the same turn of the same
player, and are won by the same one or by nobody (`toText_inj`). The number of players
does not show, except where the next player is the first again.

The conversion throws nothing on a board the constructor let through.
-/

namespace ConnectDisks.Game

open Lib

theorem intText_natCast (n : Nat) : intText n = Nat.toDigits 10 n := rfl

theorem notMem_intText {c : Char} (hdigit : c.isDigit = false) (hminus : c ≠ '-') (n : Int) :
    c ∉ intText n := by
  have hdigits : ∀ n, c ∉ Nat.toDigits 10 n := fun n h => absurd
    (Nat.isDigit_of_mem_toDigits (b := 10) (by decide) (by decide) h) (by simp [hdigit])
  cases n with
  | ofNat n => exact hdigits n
  | negSucc n => exact fun h => (List.mem_cons.mp h).elim hminus (hdigits (n + 1))

theorem mapM_ok {α β : Type*} {f : α → Except Fault β} {g : α → β} {xs : List α}
    (h : ∀ x ∈ xs, f x = .ok (g x)) : xs.mapM f = .ok (xs.map g) := by
  induction xs with
  | nil => rfl
  | cons x xs ih =>
      rw [List.mapM_cons, h x List.mem_cons_self,
        ih fun y hy => h y (List.mem_cons_of_mem x hy)]
      rfl

namespace Board

variable {b : Board}

/-- The cells of a row, as the numbers they are printed as. -/
def rowShown (b : Board) (r : Nat) : List Nat :=
  (List.range b.numColumns.toNat).map fun c => ((b.diskAt c r).getD 0).toNat

/-- The rows as they are printed. -/
def shownFromTop (b : Board) : List (List Nat) :=
  (List.range b.numRows.toNat).reverse.map b.rowShown

def cellsText (xs : List Nat) : List Char :=
  (xs.map fun x : Nat => " | ".toList ++ intText x).flatten

theorem cellsText_cons (x : Nat) (xs : List Nat) :
    cellsText (x :: xs) = " | ".toList ++ (intText x ++ cellsText xs) := by
  rw [cellsText, List.map_cons, List.flatten_cons, List.append_assoc]
  rfl

theorem cellsText_head (xs : List Nat) : ∀ c ∈ (cellsText xs).head?, c.isDigit = false := by
  intro c hc
  cases xs with
  | nil => cases hc
  | cons x xs =>
      rw [cellsText_cons] at hc
      obtain rfl : ' ' = c := Option.some.inj hc
      decide

theorem numbersIn_cellsText (xs : List Nat) : numbersIn (cellsText xs) = xs := by
  induction xs with
  | nil => rfl
  | cons x xs ih =>
      rw [cellsText_cons, numbersIn_blank_append (by decide), intText_natCast,
        numbersIn_digits_append x (cellsText_head xs), ih]

theorem notMem_cellsText {c : Char} (hdigit : c.isDigit = false) (hminus : c ≠ '-')
    (hbar : c ∉ " | ".toList) (xs : List Nat) : c ∉ cellsText xs := by
  induction xs with
  | nil => simp [cellsText]
  | cons x xs ih =>
      rw [cellsText_cons, List.mem_append, List.mem_append]
      rintro (h | h | h)
      · exact hbar h
      · exact notMem_intText hdigit hminus x h
      · exact ih h

/-- A row before the line break. -/
def lineText (xs : List Nat) : List Char :=
  match xs with
  | [] => []
  | x :: xs => ' ' :: (intText x ++ cellsText xs)

theorem numbersIn_lineText (xs : List Nat) : numbersIn (lineText xs) = xs := by
  cases xs with
  | nil => rfl
  | cons x xs =>
      rw [lineText, numbersIn_cons (by decide), intText_natCast,
        numbersIn_digits_append x (cellsText_head xs), numbersIn_cellsText]

theorem notMem_lineText {c : Char} (hdigit : c.isDigit = false) (hminus : c ≠ '-')
    (hbar : c ∉ " | ".toList) (xs : List Nat) : c ∉ lineText xs := by
  cases xs with
  | nil => simp [lineText]
  | cons x xs =>
      rw [lineText, List.mem_cons, List.mem_append]
      rintro (h | h | h)
      · exact hbar (h ▸ List.mem_cons_self)
      · exact notMem_intText hdigit hminus x h
      · exact notMem_cellsText hdigit hminus hbar xs h

theorem cellText_ok {rowView : List UInt8} {col : Nat} {p : UInt8}
    (h : vectorAt rowView (UInt8.ofNat col) = .ok p) :
    cellText rowView col = .ok (intText p.toNat) := by
  rw [cellText, h]
  rfl

theorem rowText_ok (hb : b.Shaped) (hcols : 0 < b.numColumns.toNat) {row : UInt8}
    (hr : row.toNat < b.numRows.toNat) :
    b.rowText row = .ok (lineText (b.rowShown row.toNat) ++ ['\n']) := by
  obtain ⟨cells, hrow, _, hcells⟩ := getRow_ok hb hr
  have hcell : ∀ col < b.numColumns.toNat,
      cellText cells col = .ok (intText ((b.diskAt col row.toNat).getD 0).toNat) := by
    intro col hcol
    obtain ⟨p, hp⟩ := hb.diskAt_isSome hcol hr
    have hlt := b.numColumns.toNat_lt
    have hback : (UInt8.ofNat col).toNat = col := by
      rw [UInt8.toNat_ofNat']
      omega
    rw [hp]
    exact cellText_ok (hcells (UInt8.ofNat col) p (by rw [hback]; exact hp))
  have hrest : (List.range' 1 (b.numColumns.toNat - 1)).mapM (nextCellText cells) =
      .ok ((List.range' 1 (b.numColumns.toNat - 1)).map fun col =>
        " | ".toList ++ intText ((b.diskAt col row.toNat).getD 0).toNat) := by
    refine mapM_ok fun col hcol => ?_
    have hlt := (List.mem_range'_1.mp hcol).2
    rw [nextCellText, hcell col (by omega)]
    rfl
  have hshown : b.rowShown row.toNat =
      ((b.diskAt 0 row.toNat).getD 0).toNat ::
        (List.range' 1 (b.numColumns.toNat - 1)).map fun col =>
          ((b.diskAt col row.toNat).getD 0).toNat := by
    obtain ⟨n, hn⟩ := Nat.exists_eq_succ_of_ne_zero (Nat.ne_of_gt hcols)
    rw [rowShown, hn, List.range_succ_eq_map, List.map_cons, List.map_map,
      List.range'_eq_map_range, Nat.succ_sub_one, List.map_map]
    refine congrArg (_ :: ·) (List.map_congr_left fun col _ => ?_)
    simp [Nat.add_comm]
  rw [rowText, hrow, hshown, lineText, cellsText, List.map_map]
  simp only [bind, Except.bind, hcell 0 hcols, hrest]
  rfl

/-- What follows a row in the text of a board, before `tail`. -/
def rowsText (b : Board) (rs : List Nat) : List Char :=
  (rs.map fun r => b.separator ++ (lineText (b.rowShown r) ++ ['\n'])).flatten

theorem toText_ok (hb : b.Shaped) (hcols : 0 < b.numColumns.toNat) (hrows : 0 < b.numRows.toNat) :
    b.toText = .ok (lineText (b.rowShown (b.numRows.toNat - 1)) ++ ['\n'] ++
      b.rowsText (List.range (b.numRows.toNat - 1)).reverse) := by
  have hlt := b.numRows.toNat_lt
  have htop : (b.numRows - 1).toNat = b.numRows.toNat - 1 := by
    have hone : (1 : UInt8) ≤ b.numRows := UInt8.le_iff_toNat_le.mpr hrows
    rw [UInt8.toNat_sub_of_le _ _ hone]
    rfl
  have hrow : ∀ row < b.numRows.toNat,
      b.rowText (UInt8.ofNat row) = .ok (lineText (b.rowShown row) ++ ['\n']) := by
    intro row hrow
    have hback : (UInt8.ofNat row).toNat = row := by
      rw [UInt8.toNat_ofNat']
      omega
    rw [rowText_ok hb hcols (by rw [hback]; exact hrow), hback]
  have hrest : (List.range (b.numRows.toNat - 1)).reverse.mapM b.nextRowText =
      .ok ((List.range (b.numRows.toNat - 1)).reverse.map fun r =>
        b.separator ++ (lineText (b.rowShown r) ++ ['\n'])) := by
    refine mapM_ok fun row hmem => ?_
    have hlt := List.mem_range.mp (List.mem_reverse.mp hmem)
    rw [nextRowText, hrow row (by omega)]
    rfl
  rw [toText, rowText_ok hb hcols (by rw [htop]; omega), htop]
  simp only [bind, Except.bind, hrest]
  rfl

theorem rowShown_ne_nil (hcols : 0 < b.numColumns.toNat) (r : Nat) : b.rowShown r ≠ [] := by
  rw [rowShown, Ne, List.map_eq_nil_iff, List.range_eq_nil]
  omega

theorem numbersByLine_line (hcols : 0 < b.numColumns.toNat) (r : Nat) (text : List Char) :
    numbersByLine (lineText (b.rowShown r) ++ ['\n'] ++ text) =
      b.rowShown r :: numbersByLine text := by
  rw [List.append_assoc, List.singleton_append,
    numbersByLine_append (notMem_lineText (by decide) (by decide) (by decide) _),
    numbersIn_lineText, if_neg (rowShown_ne_nil hcols r)]

theorem numbersByLine_separator (b : Board) (text : List Char) :
    numbersByLine (b.separator ++ text) = numbersByLine text := by
  have hdashes : '\n' ∉ List.replicate (3 * b.numColumns.toNat + (b.numColumns.toNat - 1)) '-' :=
    fun h => absurd (List.eq_of_mem_replicate h) (by decide)
  rw [separator, List.append_assoc, List.singleton_append, numbersByLine_append hdashes,
    if_pos (numbersIn_blank (blank_replicate (by decide) _))]

theorem numbersByLine_rowsText (hcols : 0 < b.numColumns.toNat) (rs : List Nat)
    (text : List Char) :
    numbersByLine (b.rowsText rs ++ text) = rs.map b.rowShown ++ numbersByLine text := by
  induction rs with
  | nil => rfl
  | cons r rs ih =>
      have hcons : b.rowsText (r :: rs) ++ text =
          b.separator ++ (lineText (b.rowShown r) ++ ['\n'] ++ (b.rowsText rs ++ text)) := by
        simp [rowsText]
      rw [hcons, numbersByLine_separator, numbersByLine_line hcols, ih]
      rfl

/-- The text of a board, read line by line, whatever is printed after it. -/
theorem toText_reads (hb : b.Shaped) (hcols : 0 < b.numColumns.toNat)
    (hrows : 0 < b.numRows.toNat) :
    ∃ text, b.toText = .ok text ∧
      ∀ tail, numbersByLine (text ++ tail) = b.shownFromTop ++ numbersByLine tail := by
  refine ⟨_, toText_ok hb hcols hrows, fun tail => ?_⟩
  obtain ⟨n, hn⟩ := Nat.exists_eq_succ_of_ne_zero (Nat.ne_of_gt hrows)
  have hrange : (List.range b.numRows.toNat).reverse =
      (b.numRows.toNat - 1) :: (List.range (b.numRows.toNat - 1)).reverse := by
    rw [hn, List.range_succ, List.reverse_append, Nat.succ_sub_one]
    rfl
  rw [List.append_assoc, numbersByLine_line hcols, numbersByLine_rowsText hcols, shownFromTop,
    hrange]
  rfl

/-- Boards of their shape that show the same have the same cells. -/
theorem columns_of_shown {b b' : Board} (hb : b.Shaped) (hb' : b'.Shaped)
    (hrows : 0 < b.numRows.toNat) (h : b.shownFromTop = b'.shownFromTop) :
    b.numColumns = b'.numColumns ∧ b.numRows = b'.numRows ∧ b.columns = b'.columns := by
  have hr : b.numRows.toNat = b'.numRows.toNat := by
    have hlen := congrArg List.length h
    simpa [shownFromTop] using hlen
  have hrow : ∀ r < b.numRows.toNat, b.rowShown r = b'.rowShown r := by
    rw [shownFromTop, shownFromTop, ← hr, List.map_inj_left] at h
    exact fun r hlt => h r (List.mem_reverse.mpr (List.mem_range.mpr hlt))
  have hc : b.numColumns.toNat = b'.numColumns.toNat := by
    have hlen := congrArg List.length (hrow 0 hrows)
    simpa [rowShown] using hlen
  have hdisk : ∀ c < b.numColumns.toNat, ∀ r < b.numRows.toNat,
      b.diskAt c r = b'.diskAt c r := by
    intro c hlt r hltr
    have hcells := hrow r hltr
    rw [rowShown, rowShown, ← hc, List.map_inj_left] at hcells
    have hcell := UInt8.toNat_inj.mp (hcells c (List.mem_range.mpr hlt))
    obtain ⟨p, hp⟩ := hb.diskAt_isSome hlt hltr
    obtain ⟨p', hp'⟩ := hb'.diskAt_isSome (hc ▸ hlt) (hr ▸ hltr)
    rw [hp, hp'] at hcell ⊢
    exact congrArg some hcell
  refine ⟨UInt8.toNat_inj.mp hc, UInt8.toNat_inj.mp hr, ?_⟩
  refine List.ext_getElem ?_ fun c hltc hltc' => List.ext_getElem ?_ fun r hltr hltr' => ?_
  · rw [hb.columns_length, hb'.columns_length, hc]
  · rw [hb.column_length _ (List.getElem_mem hltc), hb'.column_length _ (List.getElem_mem hltc'),
      hr]
  · have hcell := hdisk c (hb.columns_length ▸ hltc) r
      (hb.column_length _ (List.getElem_mem hltc) ▸ hltr)
    rw [diskAt, diskAt, List.getElem?_eq_getElem hltc, List.getElem?_eq_getElem hltc',
      Option.bind_some, Option.bind_some, List.getElem?_eq_getElem hltr,
      List.getElem?_eq_getElem hltr'] at hcell
    exact Option.some.inj hcell

end Board

namespace FourAcross

theorem numbersIn_labelled {label : List Char} (h : Blank label) (n : Nat) :
    numbersIn (label ++ intText n) = [n] := by
  have hdigits : numbersIn (Nat.toDigits 10 n ++ []) = n :: numbersIn [] :=
    numbersIn_digits_append n (fun _ hc => by cases hc)
  rw [List.append_nil] at hdigits
  rw [numbersIn_blank_append h, intText_natCast, hdigits]
  rfl

theorem newline_notMem_labelled {label : List Char} (h : '\n' ∉ label) (n : Nat) :
    '\n' ∉ label ++ intText n := fun hin =>
  (List.mem_append.mp hin).elim h (notMem_intText (by decide) (by decide) n)

theorem numbersByLine_status (current next turns : Nat) (winner : List Char) :
    numbersByLine ("\nCurrent player: ".toList ++ intText current ++
        " Next player: ".toList ++ intText next ++ "\nNum turns: ".toList ++ intText turns ++
        ['\n'] ++ winner) =
      [current, next] :: [turns] :: numbersByLine winner := by
  have hplayers : numbersIn (("Current player: ".toList ++ intText current) ++
      (" Next player: ".toList ++ intText next)) = [current, next] := by
    rw [List.append_assoc, numbersIn_blank_append (by decide), intText_natCast,
      numbersIn_digits_append current, numbersIn_labelled (by decide)]
    intro c hc
    obtain rfl : ' ' = c := Option.some.inj hc
    decide
  have hline : '\n' ∉ ("Current player: ".toList ++ intText current) ++
      (" Next player: ".toList ++ intText next) := fun hin =>
    (List.mem_append.mp hin).elim (newline_notMem_labelled (by decide) current)
      (newline_notMem_labelled (by decide) next)
  have hsplit : "\nCurrent player: ".toList ++ intText current ++
        " Next player: ".toList ++ intText next ++ "\nNum turns: ".toList ++ intText turns ++
        ['\n'] ++ winner =
      [] ++ '\n' :: ((("Current player: ".toList ++ intText current) ++
        (" Next player: ".toList ++ intText next)) ++ '\n' ::
          (("Num turns: ".toList ++ intText turns) ++ '\n' :: winner)) := by
    simp
  rw [hsplit, numbersByLine_append (by simp), if_pos numbersIn_nil, numbersByLine_append hline,
    hplayers, if_neg (by simp), numbersByLine_append (newline_notMem_labelled (by decide) turns),
    numbersIn_labelled (by decide), if_neg (by simp)]

theorem numbersByLine_winner (w : Nat) :
    numbersByLine ("Winner: ".toList ++ intText w ++ ['\n']) = [[w]] := by
  rw [numbersByLine_append (newline_notMem_labelled (by decide) w),
    numbersIn_labelled (by decide), if_neg (by simp)]
  rfl

/-- The counter is far from where the cast would change it. -/
theorem Reachable.numTurns_toInt {g : FourAcross} (h : Reachable g) :
    g.numTurns.toInt32.toInt = (g.numTurns.toNat : Int) := by
  obtain ⟨n, f, history, href⟩ := h.refines
  have hlt := href.length_lt
  have hturns := href.turns
  have hsmall : 2 * g.numTurns.toBitVec.toNat < 2 ^ 32 := by
    rw [UInt32.toNat_toBitVec]
    omega
  exact BitVec.toInt_eq_toNat_of_lt hsmall

/-- The lines under the board, as numbers. -/
def statusShown (g : FourAcross) : List (List Nat) :=
  [g.getCurrentPlayer.toNat, g.getNextPlayer.toNat] :: [g.getNumTurns.toNat] ::
    if g.hasWinner then [[g.getWinner.toNat]] else []

theorem numbersByLine_statusText {g : FourAcross} (h : Reachable g) :
    numbersByLine g.statusText = g.statusShown := by
  unfold statusText statusShown
  rw [h.numTurns_toInt, numbersByLine_status]
  cases g.hasWinner with
  | true =>
      rw [if_pos rfl, if_pos rfl, numbersByLine_winner]
      rfl
  | false => rfl

/-- The text of the board comes first, whatever it is followed by. -/
theorem Reachable.board_reads {g : FourAcross} (h : Reachable g) :
    ∃ text, g.board.toText = .ok text ∧ g.toText = .ok (text ++ g.statusText) ∧
      ∀ rest, numbersByLine (text ++ rest) = g.board.shownFromTop ++ numbersByLine rest := by
  have hb := h.wf.board
  obtain ⟨text, htext, hreads⟩ := Board.toText_reads hb.shaped
    (Nat.lt_of_lt_of_le (by decide) hb.minColumns) (Nat.lt_of_lt_of_le (by decide) hb.minRows)
  refine ⟨text, htext, ?_, hreads⟩
  rw [toText, htext]
  rfl

theorem Reachable.numbersByLine_toText {g : FourAcross} (h : Reachable g) {text : List Char}
    (htext : g.toText = .ok text) :
    numbersByLine text = g.board.shownFromTop ++ g.statusShown := by
  obtain ⟨board, _, hok, hreads⟩ := h.board_reads
  obtain rfl := Except.ok.inj (htext.symm.trans hok)
  rw [hreads, numbersByLine_statusText h]

/-- The text of a game that some calls lead to, read line by line: the cells from the
top row down, then the current and the next player, the number of turns, and the winner
if there is one. -/
theorem toText_shows {g : FourAcross} (h : Reachable g) :
    ∃ text, g.toText = .ok text ∧
      numbersByLine text = g.board.shownFromTop ++ g.statusShown := by
  obtain ⟨_, _, hok, _⟩ := h.board_reads
  exact ⟨_, hok, h.numbersByLine_toText hok⟩

/-- Player 1 has won up the first column. -/
theorem toText_shows_won :
    ∃ g₀ g results text, FourAcross.new 2 1 5 4 = .ok g₀ ∧
      g₀.play [(1, 0), (2, 1), (1, 0), (2, 2), (1, 0), (2, 1), (1, 0)] = .ok (g, results) ∧
      g.toText = .ok text ∧
      numbersByLine text = [[1, 0, 0, 0, 0], [1, 0, 0, 0, 0], [1, 2, 0, 0, 0],
        [1, 2, 2, 0, 0], [2, 1], [7], [1]] := by
  obtain ⟨g₀, hnew⟩ : ∃ g₀, FourAcross.new 2 1 5 4 = .ok g₀ :=
    ⟨_, new_ok 2 1 ValidGame.standardBoard_eq⟩
  obtain ⟨g, results, hplay, hreach⟩ :=
    play_total (.new hnew) [(1, 0), (2, 1), (1, 0), (2, 2), (1, 0), (2, 1), (1, 0)]
  obtain ⟨text, htext, hshows⟩ := toText_shows hreach
  have hends : (do
      let g₀ ← FourAcross.new 2 1 5 4
      let ends ← g₀.play [(1, 0), (2, 1), (1, 0), (2, 2), (1, 0), (2, 1), (1, 0)]
      return ends.1.board.shownFromTop ++ ends.1.statusShown : Except Fault _) =
        .ok [[1, 0, 0, 0, 0], [1, 0, 0, 0, 0], [1, 2, 0, 0, 0], [1, 2, 2, 0, 0],
          [2, 1], [7], [1]] := by
    decide +kernel
  simp only [bind, Except.bind, hnew, hplay] at hends
  exact ⟨g₀, g, results, text, hnew, hplay, htext, hshows.trans (Except.ok.inj hends)⟩

theorem height_of_columns {g g' : FourAcross} (hg : g.Wf) (hg' : g'.Wf)
    (h : g.board.columns = g'.board.columns) {c : Nat} (hc : c < g.board.numColumns.toNat) :
    g.board.height c ≤ g'.board.height c := by
  refine Nat.not_lt.mp fun hlt => ?_
  -- the cell just above the lower column is empty in one game and not in the other
  have hle := hg.board.height_le c
  obtain ⟨p, hp⟩ := hg.board.shaped.diskAt_isSome hc (r := g'.board.height c) (by omega)
  have hp' : g'.board.diskAt c (g'.board.height c) = some p := by
    rw [← hp, Board.diskAt, Board.diskAt, h]
  have hempty := (hg'.filled _ _ _ hp').mpr (Nat.le_refl _)
  exact absurd ((hg.filled _ _ _ hp).mp hempty) (Nat.not_le.mpr hlt)

theorem board_of_shown {g g' : FourAcross} (hg : g.Wf) (hg' : g'.Wf)
    (h : g.board.shownFromTop = g'.board.shownFromTop) : g.board = g'.board := by
  have hb := hg.board
  have hb' := hg'.board
  obtain ⟨hcols, hrows, hcells⟩ := Board.columns_of_shown hb.shaped hb'.shaped
    (Nat.lt_of_lt_of_le (by decide) hb.minRows) h
  have hindices : g.board.rowIndices = g'.board.rowIndices := by
    refine List.ext_getElem ?_ fun c hlt hlt' => ?_
    · rw [hb.rowIndices_length, hb'.rowIndices_length, hcols]
    · have hc : c < g.board.numColumns.toNat := hb.rowIndices_length ▸ hlt
      have hheight : g.board.height c = g'.board.height c :=
        Nat.le_antisymm (height_of_columns hg hg' hcells hc)
          (height_of_columns hg' hg hcells.symm (hcols ▸ hc))
      simp only [Board.height, List.getD_eq_getElem?_getD, List.getElem?_eq_getElem, hlt, hlt',
        Option.getD_some] at hheight
      exact UInt8.toNat_inj.mp hheight
  cases hx : g.board
  cases hy : g'.board
  simp only [hx, hy, Board.mk.injEq] at hcols hrows hcells hindices ⊢
  exact ⟨hcols, hrows, hcells, hindices⟩

/-- A row of the board is longer than any line under it. -/
theorem filter_shown {b : Board} (hb : b.Wf) {status : List (List Nat)}
    (hstatus : ∀ line ∈ status, line.length ≤ 2) :
    (b.shownFromTop ++ status).filter (2 < ·.length) = b.shownFromTop := by
  have hrows : ∀ line ∈ b.shownFromTop, decide (2 < line.length) = true := by
    intro line hline
    obtain ⟨r, _, rfl⟩ := List.mem_map.mp hline
    have := hb.minColumns
    rw [Board.rowShown, List.length_map, List.length_range, decide_eq_true_iff]
    omega
  have hlines : ∀ line ∈ status, ¬ decide (2 < line.length) = true := by
    intro line hline
    rw [decide_eq_true_iff]
    exact Nat.not_lt.mpr (hstatus line hline)
  rw [List.filter_append, List.filter_eq_self.mpr hrows, List.filter_eq_nil_iff.mpr hlines,
    List.append_nil]

theorem winner_of_shown {g g' : FourAcross}
    (h : (if g.hasWinner then [[g.getWinner.toNat]] else []) =
      if g'.hasWinner then [[g'.getWinner.toNat]] else []) : g.getWinner = g'.getWinner := by
  have hnone : ∀ g : FourAcross, g.hasWinner = false → g.getWinner = noWinner := by
    intro g hw
    simpa [hasWinner, getWinner] using hw
  cases hw : g.hasWinner with
  | true =>
      cases hw' : g'.hasWinner with
      | true => simpa [hw, hw', UInt8.toNat_inj] using h
      | false => simp [hw, hw'] at h
  | false =>
      cases hw' : g'.hasWinner with
      | true => simp [hw, hw'] at h
      | false => rw [hnone g hw, hnone g' hw']

/-- Two games that print the same are the same, but for the number of players and the
last move. -/
theorem toText_inj {g g' : FourAcross} (h : Reachable g) (h' : Reachable g')
    (htext : g.toText = g'.toText) :
    g.board = g'.board ∧ g.getCurrentPlayer = g'.getCurrentPlayer ∧
      g.getNextPlayer = g'.getNextPlayer ∧ g.getNumTurns = g'.getNumTurns ∧
      g.getWinner = g'.getWinner := by
  obtain ⟨_, _, hok, _⟩ := h.board_reads
  have hsame := (h.numbersByLine_toText hok).symm.trans
    (h'.numbersByLine_toText (htext.symm.trans hok))
  have hshort : ∀ g : FourAcross, ∀ line ∈ g.statusShown, line.length ≤ 2 := by
    intro g line hline
    rw [statusShown] at hline
    cases hw : g.hasWinner <;> aesop
  have hshown : g.board.shownFromTop = g'.board.shownFromTop := by
    rw [← filter_shown h.wf.board (hshort g), hsame, filter_shown h'.wf.board (hshort g')]
  rw [hshown, List.append_cancel_left_eq] at hsame
  obtain ⟨hplayers, hrest⟩ := List.cons.inj hsame
  obtain ⟨hturns, hwinner⟩ := List.cons.inj hrest
  simp only [List.cons.injEq, UInt8.toNat_inj, UInt32.toNat_inj, and_true] at hplayers hturns
  refine ⟨board_of_shown h.wf h'.wf hshown, hplayers.1, hplayers.2, hturns,
    winner_of_shown hwinner⟩

/-- Before the first turn, a game of three prints what a game of two prints. -/
theorem toText_inj_three :
    ∃ g g', FourAcross.new 2 1 5 4 = .ok g ∧ FourAcross.new 3 1 5 4 = .ok g' ∧ g ≠ g' ∧
      g.board = g'.board ∧ g.getNumTurns = g'.getNumTurns := by
  have hg := new_ok 2 1 ValidGame.standardBoard_eq
  have hg' := new_ok 3 1 ValidGame.standardBoard_eq
  obtain ⟨hboard, _, _, hturns, _⟩ := toText_inj (.new hg) (.new hg') (by decide +kernel)
  exact ⟨_, _, hg, hg', by decide, hboard, hturns⟩

end FourAcross

end ConnectDisks.Game
