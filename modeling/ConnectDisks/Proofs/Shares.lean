import Mathlib.Data.Finset.Prod
import ConnectDisks.Lib.Rotation
import ConnectDisks.Proofs.Progress

/-!
# The disks are shared out evenly

Every accepted turn puts one disk of the current player on the board, and the players
take turns in rotation. So the disks of a player are the turns it took, no player is ever
more than one disk ahead of another, and the current player has no more disks than
anybody (`disks_shared`).

Four in a row take four disks, and the player who has them was the first to have as many.
So nobody has won before everybody has had three turns.
-/

namespace ConnectDisks.Game

open Lib

namespace Board

/-- The cells with a disk of player `p`. -/
def cellsOf (b : Board) (p : UInt8) : Finset (ℕ × ℕ) :=
  (Finset.range b.numColumns.toNat ×ˢ Finset.range b.numRows.toNat).filter fun x =>
    b.diskAt x.1 x.2 = some p

def disks (b : Board) (p : UInt8) : ℕ := (b.cellsOf p).card

variable {b : Board} {p : UInt8}

theorem mem_cellsOf (hb : b.Wf) {x : ℕ × ℕ} :
    x ∈ b.cellsOf p ↔ b.diskAt x.1 x.2 = some p := by
  rw [cellsOf, Finset.mem_filter, Finset.mem_product, Finset.mem_range, Finset.mem_range]
  exact and_iff_right_of_imp hb.shaped.of_diskAt

theorem disks_drop (hb : b.Wf) {c : ℕ} (player : UInt8) (hc : c < b.numColumns.toNat)
    (hroom : b.height c < b.numRows.toNat)
    (hfree : ∀ p, b.diskAt c (b.height c) = some p → p = emptySlot) (hp : p ≠ emptySlot) :
    (b.drop c player).disks p = b.disks p + if p = player then 1 else 0 := by
  have hempty : b.diskAt c (b.height c) ≠ some p := fun h => hp (hfree p h)
  have hmem : ∀ x, x ∈ (b.drop c player).cellsOf p ↔
      if x = (c, b.height c) then player = p else x ∈ b.cellsOf p := by
    intro x
    rw [mem_cellsOf (hb.drop player hc hroom), diskAt_drop hb player hc hroom, mem_cellsOf hb]
    by_cases hx : x = (c, b.height c)
    · rw [if_pos (Prod.ext_iff.mp hx), if_pos hx, Option.some.injEq]
    · rw [if_neg fun h => hx (Prod.ext h.1 h.2), if_neg hx]
  rw [disks, disks]
  by_cases hpp : p = player
  · rw [if_pos hpp, ← Finset.card_insert_of_notMem (a := (c, b.height c))]
    · refine congrArg _ (Finset.ext fun x => ?_)
      rw [hmem, Finset.mem_insert]
      split
      · next hx => exact iff_of_true hpp.symm (.inl hx)
      · next hx => exact (or_iff_right hx).symm
    · rwa [mem_cellsOf hb]
  · rw [if_neg hpp, Nat.add_zero]
    refine congrArg _ (Finset.ext fun x => ?_)
    rw [hmem]
    split
    · next hx =>
        rw [hx, mem_cellsOf hb]
        exact iff_of_false (fun h => hpp h.symm) hempty
    · rfl

theorem OwnsFour.le_disks (h : b.OwnsFour p) (hb : b.Wf) : 4 ≤ b.disks p := by
  have hfour : ∀ f : ℕ → ℕ × ℕ, (∀ i < 4, b.diskAt (f i).1 (f i).2 = some p) →
      (∀ i < 4, ∀ j < 4, f i = f j → i = j) → 4 ≤ b.disks p := by
    intro f hdisk hinj
    rw [← Finset.card_range 4]
    refine Finset.card_le_card_of_injOn f (fun i hi => ?_) fun i hi j hj heq => ?_
    · exact (mem_cellsOf hb).mpr (hdisk i (Finset.mem_range.mp hi))
    · exact hinj i (Finset.mem_range.mp hi) j (Finset.mem_range.mp hj) heq
  obtain ⟨c, _, r, _, h | h | h | h⟩ := h
  · refine hfour (fun i => (c + i, r)) h fun i _ j _ heq => ?_
    exact Nat.add_left_cancel (congrArg Prod.fst heq)
  · refine hfour (fun i => (c, r + i)) h fun i _ j _ heq => ?_
    exact Nat.add_left_cancel (congrArg Prod.snd heq)
  · refine hfour (fun i => (c + i, r + i)) h fun i _ j _ heq => ?_
    exact Nat.add_left_cancel (congrArg Prod.fst heq)
  · refine hfour (fun i => (c + i, r + 3 - i)) h fun i _ j _ heq => ?_
    exact Nat.add_left_cancel (congrArg Prod.fst heq)

end Board

namespace FourAcross

theorem moverAt_eq_iff {n f p : UInt8} (hn : 0 < n.toNat) (hp : 1 ≤ p.toNat) (i : ℕ) :
    p = moverAt n f i ↔ (f.toNat - 1 + i) % n.toNat = p.toNat - 1 := by
  rw [← UInt8.toNat_inj, moverAt_toNat f i hn]
  omega

/-- A player has as many disks as it took turns. -/
theorem Reachable.disks {g : FourAcross} (h : Reachable g) :
    ∃ n f history, Refines n f history g ∧ ∀ p : UInt8, 1 ≤ p.toNat →
      g.board.disks p = turnsOf n.toNat (f.toNat - 1) (p.toNat - 1) history.length := by
  have hslot : ∀ {p : UInt8}, 1 ≤ p.toNat → p ≠ Board.emptySlot := by
    rintro p hp rfl
    exact absurd hp (by decide)
  induction h with
  | @new n f numColumns numRows g h =>
      refine ⟨_, _, _, new_refines_self h, fun p hp => ?_⟩
      obtain ⟨hb, _, _, _, hempty⟩ := Board.new_spec (new_spec h).1
      refine Finset.card_eq_zero.mpr (Finset.eq_empty_of_forall_notMem fun x hx => ?_)
      exact hslot hp (hempty _ _ p ((Board.mem_cellsOf hb).mp hx))
  | @turn g g' player column result hg hturn ih =>
      obtain ⟨n, f, history, href, hdisks⟩ := ih
      have hn : 0 < n.toNat := by
        have := href.wf.players
        rw [href.players] at this
        omega
      rcases takeTurn_cases href.wf player column with
        ⟨_, hr⟩ | ⟨_, _, hr⟩ | ⟨_, _, _, hr⟩ | ⟨_, _, _, _, hr⟩ | ⟨hacc, row, w, _, hr, _⟩ <;>
        · rw [hr] at hturn
          injection hturn with hturn
          injection hturn with hturn
          subst hturn
          first
            | exact ⟨n, f, history, href, hdisks⟩
            | refine ⟨n, f, _, refines_turn href hacc row w, fun p hp => ?_⟩
              have hfree : ∀ q, g.board.diskAt column.toNat (g.board.height column.toNat) =
                  some q → q = Board.emptySlot := fun q hq =>
                (href.wf.filled _ _ q hq).mpr (Nat.le_refl _)
              refine (Board.disks_drop href.wf.board _ hacc.inRange hacc.room hfree
                (hslot hp)).trans ?_
              rw [hdisks p hp, List.length_append, List.length_singleton, turnsOf_succ,
                href.current]
              simp only [moverAt_eq_iff hn hp]

/-- In every game, at any time: the numbers of disks of two players differ by one at
most, nobody has fewer than the current player, and whoever has won did so after
everybody had three turns. -/
theorem disks_shared {g : FourAcross} (h : Reachable g) :
    (∀ p : UInt8, 1 ≤ p.toNat → p.toNat ≤ g.numPlayers.toNat →
      g.board.disks g.getCurrentPlayer ≤ g.board.disks p ∧
        g.board.disks p ≤ g.board.disks g.getCurrentPlayer + 1) ∧
    g.board.disks g.getCurrentPlayer = g.getNumTurns.toNat / g.numPlayers.toNat ∧
    (g.getWinner ≠ noWinner → 3 * g.numPlayers.toNat < g.getNumTurns.toNat) := by
  obtain ⟨n, f, history, href, hdisks⟩ := h.disks
  have hn : 0 < n.toNat := by
    have := href.wf.players
    rw [href.players] at this
    omega
  have hpos : 1 ≤ g.getCurrentPlayer.toNat := href.wf.current_pos
  have hcurrent : g.board.disks g.getCurrentPlayer = history.length / n.toNat := by
    have hnext := (moverAt_eq_iff hn hpos _).mp href.current
    rw [hdisks _ hpos, ← hnext, turnsOf_next hn]
  rw [show g.getNumTurns.toNat = history.length from href.turns, href.players, hcurrent]
  refine ⟨fun p hp hle => ?_, rfl, fun hwon => ?_⟩
  · rw [hdisks p hp]
    rcases turnsOf_cases (show p.toNat - 1 < n.toNat by omega) (f.toNat - 1) history.length with
      heq | ⟨heq, _⟩ <;> omega
  · have hfour := ((h.winExact g.getWinner hwon).mp rfl).le_disks h.wf.board
    have hwinner : 1 ≤ g.getWinner.toNat := by
      by_contra hzero
      exact hwon (UInt8.toNat_inj.mp (Nat.lt_one_iff.mp (Nat.lt_of_not_le hzero)))
    rw [hdisks _ hwinner] at hfour
    have hlt := lt_of_turnsOf_pos hn (Nat.lt_of_lt_of_le (by decide) hfour)
    have hdiv := Nat.div_add_mod history.length n.toNat
    -- the winner had its fourth turn in a round that was not finished, or later
    rcases turnsOf_cases hlt (f.toNat - 1) history.length with heq | ⟨heq, hmod⟩ <;>
      rw [heq] at hfour
    · have := Nat.mul_le_mul_left n.toNat hfour
      omega
    · have := Nat.mul_le_mul_left n.toNat (show 3 ≤ history.length / n.toNat by omega)
      omega

/-- Player 1 wins up the first column, with its fourth disk. -/
def firstColumn : List (UInt8 × UInt8) := [(1, 0), (2, 1), (1, 0), (2, 2), (1, 0), (2, 1), (1, 0)]

theorem disks_shared_column : ∃ g₀ g results, FourAcross.new 2 1 5 4 = .ok g₀ ∧
    g₀.play firstColumn = .ok (g, results) ∧ g.getWinner = 1 ∧
    g.board.disks g.getCurrentPlayer = g.getNumTurns.toNat / g.numPlayers.toNat ∧
    3 * g.numPlayers.toNat < g.getNumTurns.toNat := by
  have hnew := new_ok 2 1 ValidGame.standardBoard_eq
  obtain ⟨g, results, hplay, hreach⟩ := play_total (.new hnew) firstColumn
  have hwon : g.getWinner = 1 := by
    have hwinner : (FourAcross.new 2 1 Board.minColumns Board.minRows).toOption.map
        (fun g₀ => (g₀.play firstColumn).toOption.map (·.1.getWinner)) = some (some 1) := by
      decide +kernel
    rw [hnew] at hwinner
    simp only [Except.toOption, Option.map_some, hplay] at hwinner
    exact Option.some.inj (Option.some.inj hwinner)
  obtain ⟨_, hcurrent, hlate⟩ := disks_shared hreach
  exact ⟨_, g, results, hnew, hplay, hwon, hcurrent, hlate (by rw [hwon]; decide)⟩

end FourAcross

end ConnectDisks.Game
