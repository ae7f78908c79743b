import ConnectDisks.Lib.Counting
import ConnectDisks.Proofs.WinExact

/-!
# A game is its history

The grid, the heights, the turn counter and the rotating player are all
functions of one list: the columns of the accepted turns, in order. This file
states those functions, with no board in sight, and proves that a game keeps
agreeing with them whatever it is called with.

`moverAt` is the player of the turn numbered `i`, and `ownerIn` the owner of a
cell: in column `c`, row `r` lies the disk of the turn that played `c` for the
`(r + 1)`st time. `Refines` ties a game to a history, `refines_turn` says an
accepted turn extends the history by its column, and the other four ways out of a
call leave game and history alone.

The one bound the argument needs is the board's own. A column takes at most
`numRows` turns, so a history is never longer than the board is large, and the
32-bit turn counter never wraps.
-/

namespace ConnectDisks.Game

open Lib

namespace FourAcross

/-- The player of turn number `i`, with `n` players of whom `f` began. -/
def moverAt (n f : UInt8) (i : ℕ) : UInt8 :=
  UInt8.ofNat ((f.toNat - 1 + i) % n.toNat + 1)

/-- The owner of a cell after the turns in `history`: the mover of the turn that
played column `c` for the `(r + 1)`st time, if one did. -/
def ownerIn (n f : UInt8) (history : List UInt8) (c r : UInt8) : UInt8 :=
  match (history.idxsOf c)[r.toNat]? with
  | some i => moverAt n f i
  | none => Board.emptySlot

/-- The answer to a call, by the order of the refusals. -/
def answer (g : FourAcross) (history : List UInt8) (player column : UInt8) :
    TurnResult :=
  if g.getWinner ≠ noWinner then .gameFinished
  else if player ≠ g.getCurrentPlayer then .wrongPlayer
  else if column ≥ g.getNumColumns then .badColumn
  else if history.count column ≥ g.getNumRows.toNat then .columnFull
  else .success

/-- The game that `n` players of whom `f` began have reached by playing the
columns in `history`. -/
structure Refines (n f : UInt8) (history : List UInt8) (g : FourAcross) : Prop where
  wf : g.Wf
  players : g.numPlayers = n
  first_pos : 1 ≤ f.toNat
  turns : g.numTurns.toNat = history.length
  current : g.currentPlayer = moverAt n f history.length
  inRange : ∀ c ∈ history, c.toNat < g.board.numColumns.toNat
  height : ∀ c : UInt8, g.board.height c.toNat = history.count c
  owner : ∀ c r p : UInt8, g.board.diskAt c.toNat r.toNat = some p →
    p = ownerIn n f history c r

theorem moverAt_toNat {n : UInt8} (f : UInt8) (i : ℕ) (hn : 0 < n.toNat) :
    (moverAt n f i).toNat = (f.toNat - 1 + i) % n.toNat + 1 := by
  have hlt := n.toNat_lt
  have hmod := Nat.mod_lt (f.toNat - 1 + i) hn
  rw [moverAt, UInt8.toNat_ofNat']
  omega

/-- The rotation of the players is the successor modulo their number. -/
theorem moverAt_succ {n : UInt8} (f : UInt8) (i : ℕ) (hn : 0 < n.toNat) :
    (moverAt n f (i + 1)).toNat =
      if (moverAt n f i).toNat = n.toNat then 1 else (moverAt n f i).toNat + 1 := by
  rw [moverAt_toNat f _ hn, moverAt_toNat f _ hn, ← Nat.add_assoc]
  have hmod := Nat.mod_lt (f.toNat - 1 + i) hn
  rw [Nat.add_mod]
  rcases Nat.lt_or_ge 1 n.toNat with h1 | h1
  · rw [Nat.mod_eq_of_lt (a := 1) h1]
    split
    · next h => rw [h, Nat.mod_self]
    · next h => rw [Nat.mod_eq_of_lt (by omega)]
  · have hone : n.toNat = 1 := by omega
    rw [hone]
    simp only [Nat.mod_one]
    rfl

/-! ## The board bounds the history -/

/-- The history as a list of numbers counts the disks of a column. -/
theorem Refines.count_eq_height {n f : UInt8} {history : List UInt8} {g : FourAcross}
    (h : Refines n f history g) {c : ℕ} (hc : c < g.board.numColumns.toNat) :
    (history.map UInt8.toNat).count c = g.board.height c := by
  have hlt : c < 256 := Nat.lt_trans hc g.board.numColumns.toNat_lt
  have hc' : (UInt8.ofNat c).toNat = c := by
    rw [UInt8.toNat_ofNat']
    omega
  rw [← hc', List.count_map_of_injective _ _ fun a b hab => UInt8.toNat_inj.mp hab, h.height]

theorem Refines.mem_range {n f : UInt8} {history : List UInt8} {g : FourAcross}
    (h : Refines n f history g) :
    ∀ c ∈ history.map UInt8.toNat, c ∈ Finset.range g.board.numColumns.toNat := by
  intro c hc
  obtain ⟨c', hc', rfl⟩ := List.mem_map.mp hc
  exact Finset.mem_range.mpr (h.inRange c' hc')

/-- A history is never longer than the board is large. -/
theorem Refines.length_le {n f : UInt8} {history : List UInt8} {g : FourAcross}
    (h : Refines n f history g) :
    history.length ≤ g.board.numColumns.toNat * g.board.numRows.toNat := by
  have hle := length_le_card_mul (k := g.board.numRows.toNat) h.mem_range fun c hc => by
    rw [h.count_eq_height (Finset.mem_range.mp hc)]
    exact h.wf.board.height_le _
  rwa [List.length_map, Finset.card_range] at hle

theorem Refines.length_lt {n f : UInt8} {history : List UInt8} {g : FourAcross}
    (h : Refines n f history g) : history.length < 255 * 255 + 1 := by
  have h1 := g.board.numColumns.toNat_lt
  have h2 := g.board.numRows.toNat_lt
  have := Nat.mul_le_mul (show g.board.numColumns.toNat ≤ 255 by omega)
    (show g.board.numRows.toNat ≤ 255 by omega)
  have := h.length_le
  omega

/-! ## One call -/

theorem refines_turn {n f : UInt8} {history : List UInt8} {g : FourAcross}
    (h : Refines n f history g) {player column : UInt8}
    (hacc : g.Accepts player column) (row winner : UInt8) :
    Refines n f (history ++ [column]) (g.landed column row winner) := by
  have hn : 0 < n.toNat := by
    have := h.wf.players
    rw [h.players] at this
    omega
  have hcount : ∀ c : UInt8, (history ++ [column]).count c =
      history.count c + if c = column then 1 else 0 := by
    intro c
    rw [List.count_append, List.count_singleton]
    congr 1
    by_cases hc : c = column
    · simp [hc]
    · simp [hc, Ne.symm hc]
  refine ⟨landed_wf h.wf hacc row winner, h.players, h.first_pos, ?_, ?_, ?_, ?_, ?_⟩
  · show (g.numTurns + 1).toNat = _
    have hlt := h.length_lt
    rw [UInt32.toNat_add, h.turns, List.length_append, List.length_singleton]
    simp
    omega
  · show g.getNextPlayer = _
    rw [← UInt8.toNat_inj, getNextPlayer_toNat h.wf, h.current, h.players,
      List.length_append, List.length_singleton, moverAt_succ f _ hn]
  · intro c hc
    rcases List.mem_append.mp hc with hc | hc
    · exact h.inRange c hc
    · rw [List.mem_singleton.mp hc]
      exact hacc.inRange
  · intro c
    show (g.board.drop column.toNat g.currentPlayer).height c.toNat = _
    rw [Board.height_drop h.wf.board _ hacc.inRange hacc.room, h.height, hcount]
    simp only [UInt8.toNat_inj]
  · intro c r p hp
    change (g.board.drop column.toNat g.currentPlayer).diskAt c.toNat r.toNat =
      some p at hp
    rw [Board.diskAt_drop h.wf.board _ hacc.inRange hacc.room] at hp
    have hidx : (history ++ [column]).idxsOf c =
        history.idxsOf c ++ if column = c then [history.length] else [] := by
      simp only [List.idxsOf, List.findIdxs_append, List.findIdxs_singleton,
        Nat.zero_add, beq_iff_eq]
    have hlen : (history.idxsOf c).length = history.count c := by
      simp [List.idxsOf, List.count_eq_countP]
    rw [ownerIn, hidx]
    split at hp
    · next hcell =>
        obtain ⟨hc, hr⟩ := hcell
        rw [UInt8.toNat_inj] at hc
        subst hc
        rw [if_pos rfl, List.getElem?_append_right (by rw [hlen, ← h.height]; omega),
          hlen, ← h.height, hr, Nat.sub_self]
        injection hp with hp
        rw [← hp]
        exact h.current
    · next hcell =>
        by_cases hc : column = c
        · subst hc
          have hne : r.toNat ≠ g.board.height column.toNat := fun hr => hcell ⟨rfl, hr⟩
          rw [h.owner column r p hp, ownerIn, if_pos rfl]
          rcases Nat.lt_or_ge r.toNat (history.count column) with hlt | hge
          · rw [List.getElem?_append_left (by omega)]
          · have hgt : history.count column < r.toNat := by
              rw [h.height] at hne
              omega
            rw [List.getElem?_eq_none (by omega),
              List.getElem?_eq_none (by simp; omega)]
        · rw [if_neg hc, List.append_nil]
          exact h.owner c r p hp

/-- One call against the history: the answer is read off it, a success extends
it, and any other answer comes with the same game. -/
theorem takeTurn_refines {n f : UInt8} {history : List UInt8} {g : FourAcross}
    (h : Refines n f history g) (player column : UInt8) :
    ∃ g', g.takeTurn player column = .ok (g', g.answer history player column) ∧
      (g.answer history player column ≠ .success → g' = g) ∧
      (g.answer history player column = .success →
        Refines n f (history ++ [column]) g') := by
  have hheight := h.height column
  rcases takeTurn_cases h.wf player column with
    ⟨hw, hr⟩ | ⟨hw, hp, hr⟩ | ⟨hw, hp, hc, hr⟩ | ⟨hw, hp, hc, hfull, hr⟩ |
      ⟨hacc, row, w, _, hr, _⟩
  · have ha : g.answer history player column = .gameFinished := if_pos hw
    exact ⟨g, by rw [hr, ha], fun _ => rfl, fun hs => absurd (ha.symm.trans hs) (by simp)⟩
  · have ha : g.answer history player column = .wrongPlayer := by
      rw [answer, getWinner, getCurrentPlayer, if_neg (not_not_intro hw),
        if_pos (Ne.symm hp)]
    exact ⟨g, by rw [hr, ha], fun _ => rfl, fun hs => absurd (ha.symm.trans hs) (by simp)⟩
  · have ha : g.answer history player column = .badColumn := by
      rw [answer, getWinner, getCurrentPlayer, getNumColumns, getNumRows,
        if_neg (not_not_intro hw), if_neg (not_not_intro hp.symm),
        if_pos (by rw [ge_iff_le, UInt8.le_iff_toNat_le]; exact Nat.not_lt.mp hc)]
    exact ⟨g, by rw [hr, ha], fun _ => rfl, fun hs => absurd (ha.symm.trans hs) (by simp)⟩
  · have ha : g.answer history player column = .columnFull := by
      rw [answer, getWinner, getCurrentPlayer, getNumColumns, getNumRows,
        if_neg (not_not_intro hw), if_neg (not_not_intro hp.symm),
        if_neg (by rw [ge_iff_le, UInt8.le_iff_toNat_le]; exact Nat.not_le.mpr hc),
        if_pos (by rw [← hheight, hfull])]
    exact ⟨g, by rw [hr, ha], fun _ => rfl, fun hs => absurd (ha.symm.trans hs) (by simp)⟩
  · have ha : g.answer history player column = .success := by
      have hroom := hacc.room
      rw [answer, getWinner, getCurrentPlayer, getNumColumns, getNumRows,
        if_neg (not_not_intro hacc.open_),
        if_neg (not_not_intro hacc.current.symm),
        if_neg (by
          rw [ge_iff_le, UInt8.le_iff_toNat_le]; exact Nat.not_le.mpr hacc.inRange),
        if_neg (by rw [← hheight]; exact Nat.not_le.mpr hroom)]
    exact ⟨_, by rw [hr, ha], fun hs => absurd ha hs, fun _ => refines_turn h hacc row w⟩

/-! ## Whole games -/

/-- The columns of the calls that were answered `success`. -/
def acceptedColumns : List (UInt8 × UInt8) → List TurnResult → List UInt8
  | call :: calls, result :: results =>
      if result = .success then call.2 :: acceptedColumns calls results
      else acceptedColumns calls results
  | _, _ => []

theorem play_refines_from {n f : UInt8} : ∀ {calls : List (UInt8 × UInt8)}
    {history : List UInt8} {g g' : FourAcross} {results : List TurnResult},
    Refines n f history g → g.play calls = .ok (g', results) →
    Refines n f (history ++ acceptedColumns calls results) g' := by
  intro calls
  induction calls with
  | nil =>
      intro history g g' results h hplay
      rw [play] at hplay
      injection hplay with hplay
      injection hplay with hg hresults
      subst hg hresults
      simpa [acceptedColumns] using h
  | cons call calls ih =>
      intro history g g' results h hplay
      obtain ⟨player, column⟩ := call
      obtain ⟨g₁, hturn, hsame, hmore⟩ := takeTurn_refines h player column
      rw [play, hturn] at hplay
      simp only [bind, Except.bind] at hplay
      cases hrest : g₁.play calls with
      | error e => rw [hrest] at hplay; cases hplay
      | ok rest =>
          obtain ⟨g₂, results₂⟩ := rest
          rw [hrest] at hplay
          injection hplay with hplay
          injection hplay with hg hresults
          subst hg hresults
          rw [acceptedColumns]
          by_cases hs : g.answer history player column = .success
          · rw [if_pos hs, ← List.singleton_append, ← List.append_assoc]
            exact ih (hmore hs) hrest
          · rw [if_neg hs]
            exact ih (hsame hs ▸ h) hrest

theorem new_refines_self {n f numColumns numRows : UInt8} {g : FourAcross}
    (h : FourAcross.new n f numColumns numRows = .ok g) :
    Refines g.numPlayers g.currentPlayer [] g := by
  obtain ⟨hboard, hturns, _, _, _⟩ := new_spec h
  obtain ⟨_, _, _, hheight, hempty⟩ := Board.new_spec hboard
  have hwf := new_wf h
  have hpos := hwf.current_pos
  have hle := hwf.current_le
  refine ⟨hwf, rfl, hpos, by rw [hturns]; rfl, ?_, ?_, ?_, ?_⟩
  · rw [← UInt8.toNat_inj, moverAt_toNat _ _ (by omega), List.length_nil, Nat.add_zero,
      Nat.mod_eq_of_lt (by omega)]
    omega
  · intro c hc
    cases hc
  · intro c
    rw [hheight, List.count_nil]
  · intro c r p hp
    exact hempty _ _ p hp

theorem new_refines {n f numColumns numRows : UInt8} {g : FourAcross}
    (hn : 2 ≤ n.toNat) (hf : 1 ≤ f.toNat) (hfn : f.toNat ≤ n.toNat)
    (h : FourAcross.new n f numColumns numRows = .ok g) : Refines n f [] g := by
  obtain ⟨hplayers, hcurrent⟩ := new_players hn hf hfn h
  have hself := new_refines_self h
  rwa [hplayers, hcurrent] at hself

theorem takeTurn_dimensions {g g' : FourAcross} (hg : g.Wf) {player column : UInt8}
    {result : TurnResult} (h : g.takeTurn player column = .ok (g', result)) :
    g'.getNumColumns = g.getNumColumns ∧ g'.getNumRows = g.getNumRows := by
  rcases takeTurn_cases hg player column with
    ⟨_, hr⟩ | ⟨_, _, hr⟩ | ⟨_, _, _, hr⟩ | ⟨_, _, _, _, hr⟩ | ⟨_, _, _, _, hr, _⟩ <;>
    · rw [hr] at h
      injection h with h
      injection h with h _
      subst h
      exact ⟨rfl, rfl⟩

theorem play_dimensions : ∀ {calls : List (UInt8 × UInt8)} {g g' : FourAcross}
    {results : List TurnResult}, Reachable g → g.play calls = .ok (g', results) →
    g'.getNumColumns = g.getNumColumns ∧ g'.getNumRows = g.getNumRows := by
  intro calls
  induction calls with
  | nil =>
      intro g g' results _ hplay
      rw [play] at hplay
      injection hplay with hplay
      injection hplay with hg _
      subst hg
      exact ⟨rfl, rfl⟩
  | cons call calls ih =>
      intro g g' results hg hplay
      obtain ⟨g₁, result, hturn⟩ := takeTurn_total hg.wf call.1 call.2
      obtain ⟨g₂, results₂, hrest, _⟩ := play_total (.turn hg hturn) calls
      rw [play_cons hturn hrest] at hplay
      injection hplay with hplay
      injection hplay with hg' _
      subst hg'
      obtain ⟨hc, hr⟩ := ih (.turn hg hturn) hrest
      obtain ⟨hc', hr'⟩ := takeTurn_dimensions hg.wf hturn
      exact ⟨hc.trans hc', hr.trans hr'⟩

/-- Everything a game answers, as functions of the columns it accepted. -/
structure Agrees (n f numColumns numRows : UInt8) (history : List UInt8)
    (g : FourAcross) : Prop where
  turns : g.getNumTurns.toNat = history.length
  current : g.getCurrentPlayer = moverAt n f history.length
  height : ∀ c : UInt8, c < numColumns → ∃ height, g.board.getColumnHeight c = .ok height ∧
    height.toNat = history.count c
  owner : ∀ c r : UInt8, c < numColumns → r < numRows →
    g.board.getDiskOwnerAt c r = .ok (ownerIn n f history c r)
  empty : ∀ c r : UInt8, c < numColumns → r < numRows →
    (g.board.getDiskOwnerAt c r = .ok Board.emptySlot ↔ history.count c ≤ r.toNat)
  answers : ∀ player column, ∃ g',
    g.takeTurn player column = .ok (g', g.answer history player column) ∧
    (g.answer history player column ≠ .success → g' = g)

/-- The game refines its history. Whatever calls are made, everything the game
answers is a function of the columns it accepted, and a call it does not accept
changes nothing. -/
theorem play_refines_history {numColumns numRows n f : UInt8}
    (hc : 5 ≤ numColumns.toNat) (hr : 4 ≤ numRows.toNat)
    (hcr : numRows.toNat < numColumns.toNat) (hn : 2 ≤ n.toNat) (hf : 1 ≤ f.toNat)
    (hfn : f.toNat ≤ n.toNat) (calls : List (UInt8 × UInt8)) :
    ∃ g₀ g results, FourAcross.new n f numColumns numRows = .ok g₀ ∧
      g₀.play calls = .ok (g, results) ∧ g.getNumColumns = numColumns ∧
      g.getNumRows = numRows ∧
      g.Agrees n f numColumns numRows (acceptedColumns calls results) := by
  have hnew := new_ok n f (Board.new_ok hc hr hcr)
  obtain ⟨g, results, hplay, _⟩ := play_total (.new hnew) calls
  have href := play_refines_from (new_refines hn hf hfn hnew) hplay
  rw [List.nil_append] at href
  obtain ⟨hcols, hrows⟩ := play_dimensions (.new hnew) hplay
  have hcol : ∀ c : UInt8, c < numColumns → c.toNat < g.board.numColumns.toNat := by
    intro c hcc
    rw [show g.board.numColumns = numColumns from hcols]
    exact UInt8.lt_iff_toNat_lt.mp hcc
  have hcell : ∀ c r : UInt8, c < numColumns → r < numRows → ∃ p,
      g.board.diskAt c.toNat r.toNat = some p ∧ g.board.getDiskOwnerAt c r = .ok p := by
    intro c r hcc hrr
    obtain ⟨p, hp⟩ := href.wf.board.shaped.diskAt_isSome (hcol c hcc) (r := r.toNat)
      (by rw [show g.board.numRows = numRows from hrows]
          exact UInt8.lt_iff_toNat_lt.mp hrr)
    exact ⟨p, hp, Board.getDiskOwnerAt_of_diskAt href.wf.board.shaped hp⟩
  refine ⟨_, g, results, hnew, hplay, hcols, hrows, href.turns, href.current, ?_, ?_, ?_,
    ?_⟩
  · intro c hcc
    obtain ⟨h, hget, hh⟩ := Board.getColumnHeight_ok href.wf.board.shaped (hcol c hcc)
    exact ⟨h, hget, by rw [hh, href.height]⟩
  · intro c r hcc hrr
    obtain ⟨p, hp, hget⟩ := hcell c r hcc hrr
    rw [hget, href.owner c r p hp]
  · intro c r hcc hrr
    obtain ⟨p, hp, hget⟩ := hcell c r hcc hrr
    rw [hget, ← href.height, ← href.wf.filled _ _ p hp]
    exact ⟨fun h => Except.ok.inj h, fun h => congrArg _ h⟩
  · intro player column
    obtain ⟨g', hturn, hsame, _⟩ := takeTurn_refines href player column
    exact ⟨g', hturn, hsame⟩

/-- Three players of whom the last begins, on the smallest board, with a call out
of turn and one outside the board. -/
theorem play_refines_history_three :
    ∃ g₀ g results, FourAcross.new 3 3 5 4 = .ok g₀ ∧
      g₀.play [(3, 0), (3, 0), (1, 7), (1, 0), (2, 4)] = .ok (g, results) ∧
      g.getNumColumns = 5 ∧ g.getNumRows = 4 ∧
      g.Agrees 3 3 5 4
        (acceptedColumns [(3, 0), (3, 0), (1, 7), (1, 0), (2, 4)] results) :=
  play_refines_history (by decide) (by decide) (by decide) (by decide) (by decide)
    (by decide) _

end FourAcross

end ConnectDisks.Game
