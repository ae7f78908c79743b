import ConnectDisks.Proofs.TakeTurn

/-!
# Win detection is exact

The source searches only out of the last move, so its answer is right for the
whole board only if there was no line anywhere before that move. That is the
invariant: in every game some calls lead to, a player is the winner exactly when
they own a line of four. An accepted turn adds one cell to one player's set, so
the lines it can create run through that cell, and a won game accepts no turn.

`play` is a sequence of calls, and `play_winner_exact` the statement about whole
games.
-/

namespace ConnectDisks.Game

open Lib

/-- Four cells of `p` in a row: along a row, up a column, or on a diagonal. -/
def Board.OwnsFour (b : Board) (p : UInt8) : Prop :=
  ∃ c < b.numColumns.toNat, ∃ r < b.numRows.toNat,
    (∀ i < 4, b.diskAt (c + i) r = some p) ∨
    (∀ i < 4, b.diskAt c (r + i) = some p) ∨
    (∀ i < 4, b.diskAt (c + i) (r + i) = some p) ∨
    (∀ i < 4, b.diskAt (c + i) (r + 3 - i) = some p)

instance (b : Board) (p : UInt8) : Decidable (b.OwnsFour p) := by
  unfold Board.OwnsFour
  infer_instance

theorem Board.mem_owned {b : Board} {p : UInt8} {c r : ℕ} :
    ((c : ℤ), (r : ℤ)) ∈ b.owned p ↔ b.diskAt c r = some p := by
  simp [Board.owned]

theorem Board.exists_of_mem_owned {b : Board} {p : UInt8} {z : ℤ × ℤ}
    (h : z ∈ b.owned p) : ∃ c r : ℕ, z = ((c : ℤ), (r : ℤ)) ∧ b.diskAt c r = some p := by
  obtain ⟨h1, h2, hd⟩ := h
  exact ⟨z.1.toNat, z.2.toNat, Prod.ext (Int.toNat_of_nonneg h1).symm
    (Int.toNat_of_nonneg h2).symm, hd⟩

theorem Board.isLine_iff {b : Board} {p : UInt8} {k : ℕ} {d q : ℤ × ℤ}
    (f g : ℕ → ℕ) (h : ∀ i < k, q + i • d = ((f i : ℤ), (g i : ℤ))) :
    IsLine (b.owned p) k d q ↔ ∀ i < k, b.diskAt (f i) (g i) = some p := by
  constructor
  · intro hl i hi
    rw [← Board.mem_owned, ← h i hi]
    exact hl i hi
  · intro hl i hi
    rw [h i hi, Board.mem_owned]
    exact hl i hi

/-- The lines the loops look for are the lines of four cells on the board. -/
theorem Board.ownsFour_iff {b : Board} (hb : b.Wf) {p : UInt8} :
    b.OwnsFour p ↔ ∃ d ∈ FourAcross.directions, HasLine (b.owned p) 4 d := by
  have hrow : ∀ c r : ℕ, IsLine (b.owned p) 4 (1, 0) ((c : ℤ), (r : ℤ)) ↔
      ∀ i < 4, b.diskAt (c + i) r = some p := fun c r =>
    Board.isLine_iff (c + ·) (fun _ => r) fun i _ => by ext <;> simp
  have hcol : ∀ c r : ℕ, IsLine (b.owned p) 4 (0, 1) ((c : ℤ), (r : ℤ)) ↔
      ∀ i < 4, b.diskAt c (r + i) = some p := fun c r =>
    Board.isLine_iff (fun _ => c) (r + ·) fun i _ => by ext <;> simp
  have hup : ∀ c r : ℕ, IsLine (b.owned p) 4 (1, 1) ((c : ℤ), (r : ℤ)) ↔
      ∀ i < 4, b.diskAt (c + i) (r + i) = some p := fun c r =>
    Board.isLine_iff (c + ·) (r + ·) fun i _ => by ext <;> simp
  have hdown : ∀ c r : ℕ, IsLine (b.owned p) 4 (-1, 1) ((c + 3 : ℕ), (r : ℤ)) ↔
      ∀ i < 4, b.diskAt (c + i) (r + 3 - i) = some p := by
    intro c r
    rw [Board.isLine_iff (fun i => c + 3 - i) (r + ·) fun i hi => by
      ext
      · simp; omega
      · simp]
    constructor
    · intro h i hi
      have := h (3 - i) (by omega)
      rwa [show c + 3 - (3 - i) = c + i by omega,
        show r + (3 - i) = r + 3 - i by omega] at this
    · intro h i hi
      have := h (3 - i) (by omega)
      rwa [show c + (3 - i) = c + 3 - i by omega,
        show r + 3 - (3 - i) = r + i by omega] at this
  constructor
  · rintro ⟨c, _, r, _, h | h | h | h⟩
    · exact ⟨_, by simp [FourAcross.directions], _, (hrow c r).mpr h⟩
    · exact ⟨_, by simp [FourAcross.directions], _, (hcol c r).mpr h⟩
    · exact ⟨_, by simp [FourAcross.directions], _, (hup c r).mpr h⟩
    · exact ⟨_, by simp [FourAcross.directions], _, (hdown c r).mpr h⟩
  · rintro ⟨d, hd, q, hq⟩
    obtain ⟨c, r, rfl, hcell⟩ :=
      Board.exists_of_mem_owned (by simpa using hq 0 (by omega))
    obtain ⟨hc, hr⟩ := hb.shaped.of_diskAt hcell
    simp only [FourAcross.directions, List.mem_cons, List.not_mem_nil, or_false] at hd
    rcases hd with rfl | rfl | rfl | rfl
    · exact ⟨c, hc, r, hr, .inr (.inl ((hcol c r).mp hq))⟩
    · exact ⟨c, hc, r, hr, .inl ((hrow c r).mp hq)⟩
    · exact ⟨c, hc, r, hr, .inr (.inr (.inl ((hup c r).mp hq)))⟩
    · obtain ⟨c', r', hlast, _⟩ := Board.exists_of_mem_owned (hq 3 (by omega))
      have hc' : (c : ℤ) + -3 = c' := by simpa using congrArg Prod.fst hlast
      obtain ⟨c₀, rfl⟩ : ∃ c₀, c = c₀ + 3 := ⟨c - 3, by omega⟩
      exact ⟨c₀, by omega, r, hr, .inr (.inr (.inr ((hdown c₀ r).mp hq)))⟩

namespace FourAcross

/-- The winner is whoever owns a line of four, and there is one only then. -/
def WinExact (g : FourAcross) : Prop :=
  ∀ p, p ≠ noWinner → (g.getWinner = p ↔ g.board.OwnsFour p)

/-- A disk adds one point to its owner's set and none to anybody else's. -/
theorem owned_drop {b : Board} (hb : b.Wf) {c : ℕ} (player : UInt8)
    (hc : c < b.numColumns.toNat) (hroom : b.height c < b.numRows.toNat)
    (hfree : ∀ p, b.diskAt c (b.height c) = some p → p = Board.emptySlot)
    {p : UInt8} (hp : p ≠ Board.emptySlot) :
    (b.drop c player).owned p =
      if p = player then insert ((c : ℤ), (b.height c : ℤ)) (b.owned p)
      else b.owned p := by
  ext z
  have hz : 0 ≤ z.1 → 0 ≤ z.2 →
      (z = ((c : ℤ), (b.height c : ℤ)) ↔ z.1.toNat = c ∧ z.2.toNat = b.height c) := by
    intro h1 h2
    rw [Prod.ext_iff]
    exact and_congr (by simp only []; omega) (by simp only []; omega)
  have hempty : b.diskAt c (b.height c) ≠ some p := fun h => hp (hfree p h)
  by_cases hnn : 0 ≤ z.1 ∧ 0 ≤ z.2
  · obtain ⟨h1, h2⟩ := hnn
    have hz := hz h1 h2
    by_cases hpp : p = player
    · rw [if_pos hpp, Set.mem_insert_iff, hz]
      simp only [Board.owned, Set.mem_ofPred_eq, h1, h2, true_and,
        Board.diskAt_drop hb player hc hroom, hpp]
      split
      · next h => exact ⟨fun _ => .inl h, fun _ => rfl⟩
      · next h => exact ⟨.inr, fun h' => h'.resolve_left h⟩
    · rw [if_neg hpp]
      simp only [Board.owned, Set.mem_ofPred_eq, h1, h2, true_and,
        Board.diskAt_drop hb player hc hroom]
      split
      · next h =>
          rw [h.1, h.2]
          exact ⟨fun h' => absurd (Option.some.inj h').symm hpp,
            fun h' => absurd h' hempty⟩
      · exact Iff.rfl
  · have hnot : ∀ b' : Board, z ∉ b'.owned p := fun b' h => hnn ⟨h.1, h.2.1⟩
    refine ⟨fun h => absurd h (hnot _), fun h => ?_⟩
    split at h
    · rcases h with rfl | h
      · exact absurd ⟨Int.natCast_nonneg _, Int.natCast_nonneg _⟩ hnn
      · exact absurd h (hnot _)
    · exact absurd h (hnot _)

/-- An accepted turn: the mover wins with a line through the new disk, and
nobody else can have got one. -/
theorem landed_winExact {g : FourAcross} (hg : g.Wf) (hw : g.WinExact)
    {player column row winner : UInt8} (h : g.Accepts player column)
    (hwinner :
      FourThrough (g.board.drop column.toNat player) player
          (column.toNat, g.board.height column.toNat) ∧ winner = player ∨
        ¬ FourThrough (g.board.drop column.toNat player) player
          (column.toNat, g.board.height column.toNat) ∧ winner = noWinner) :
    (g.landed column row winner).WinExact := by
  intro p hp
  have hwf := hg.board.drop g.currentPlayer h.inRange h.room
  have hfree : ∀ q, g.board.diskAt column.toNat (g.board.height column.toNat) = some q →
      q = Board.emptySlot := fun q hq => (hg.filled _ _ q hq).mpr (Nat.le_refl _)
  have hold : ∀ d ∈ directions, ¬ HasLine (g.board.owned p) 4 d := by
    intro d hd hline
    have := (hw p hp).mpr ((Board.ownsFour_iff hg.board).mpr ⟨d, hd, hline⟩)
    exact hp (this.symm.trans h.open_)
  have hplayer : player ≠ noWinner := by
    intro h0
    have hpos := hg.current_pos
    rw [h.current, h0] at hpos
    exact absurd hpos (by decide)
  show winner = p ↔ (g.board.drop column.toNat g.currentPlayer).OwnsFour p
  rw [Board.ownsFour_iff hwf, h.current]
  rw [FourThrough] at hwinner
  by_cases hpp : p = player
  · subst hpp
    have howned := owned_drop hg.board p h.inRange h.room hfree hp
    rw [if_pos rfl] at howned
    rw [howned] at hwinner ⊢
    have hiff : (∃ d ∈ directions, HasLine (insert ((column.toNat : ℤ),
          (g.board.height column.toNat : ℤ)) (g.board.owned p)) 4 d) ↔
        ∃ d ∈ directions, Through (insert ((column.toNat : ℤ),
          (g.board.height column.toNat : ℤ)) (g.board.owned p)) 4 d
          (column.toNat, g.board.height column.toNat) := by
      refine exists_congr fun d => and_congr_right fun hd => ?_
      rw [hasLine_insert]
      exact ⟨fun h' => h'.resolve_left (hold d hd), .inr⟩
    rw [hiff]
    rcases hwinner with ⟨hline, rfl⟩ | ⟨hline, rfl⟩
    · exact ⟨fun _ => hline, fun _ => rfl⟩
    · exact ⟨fun h0 => absurd h0.symm hp, fun h' => absurd h' hline⟩
  · have howned := owned_drop hg.board player h.inRange h.room hfree hp
    rw [if_neg hpp] at howned
    rw [howned]
    refine ⟨fun hwp => ?_, ?_⟩
    · rcases hwinner with ⟨_, rfl⟩ | ⟨_, rfl⟩
      · exact absurd hwp.symm hpp
      · exact absurd hwp.symm hp
    · rintro ⟨d, hd, hline⟩
      exact absurd hline (hold d hd)

theorem takeTurn_winExact {g g' : FourAcross} {player column : UInt8}
    {result : TurnResult} (hg : g.Wf) (hw : g.WinExact)
    (h : g.takeTurn player column = .ok (g', result)) : g'.WinExact := by
  rcases takeTurn_cases hg player column with
    ⟨_, hr⟩ | ⟨_, _, hr⟩ | ⟨_, _, _, hr⟩ | ⟨_, _, _, _, hr⟩ |
      ⟨hacc, row, w, _, hr, hwinner⟩ <;>
    · rw [hr] at h
      injection h with h
      injection h with h _
      subst h
      first
        | exact hw
        | exact landed_winExact hg hw hacc hwinner

/-- An empty board has no lines, and nobody has won on it. -/
theorem new_winExact {n f numColumns numRows : UInt8} {g : FourAcross}
    (h : FourAcross.new n f numColumns numRows = .ok g) : g.WinExact := by
  obtain ⟨hboard, _, _, _, hwinner⟩ := new_spec h
  obtain ⟨_, _, _, _, hempty⟩ := Board.new_spec hboard
  intro p hp
  refine ⟨fun hwp => absurd (hwp.symm.trans hwinner) hp, ?_⟩
  rintro ⟨c, _, r, _, h4⟩
  have hcell : ∃ c r, g.board.diskAt c r = some p := by
    rcases h4 with h4 | h4 | h4 | h4 <;> exact ⟨_, _, h4 0 (by omega)⟩
  obtain ⟨c, r, hcell⟩ := hcell
  exact absurd (hempty c r p hcell) hp

theorem Reachable.winExact {g : FourAcross} (h : Reachable g) : g.WinExact := by
  induction h with
  | new h => exact new_winExact h
  | turn hg h ih => exact takeTurn_winExact hg.wf ih h

theorem WinExact.noWinner_iff {g : FourAcross} (h : g.WinExact) :
    g.getWinner = noWinner ↔ ∀ p, p ≠ noWinner → ¬ g.board.OwnsFour p := by
  constructor
  · intro hw p hp hfour
    exact hp (((h p hp).mpr hfour).symm.trans hw)
  · intro hnone
    by_contra hw
    exact hnone g.getWinner hw ((h g.getWinner hw).mp rfl)

/-! ## Whole games -/

/-- A sequence of calls, each with a player and a column, and their answers. -/
def play (g : FourAcross) : List (UInt8 × UInt8) →
    Except Fault (FourAcross × List TurnResult)
  | [] => .ok (g, [])
  | (player, column) :: calls => do
      let (g, result) ← g.takeTurn player column
      let (g, results) ← g.play calls
      return (g, result :: results)

theorem play_cons {g g₁ g₂ : FourAcross} {player column : UInt8}
    {calls : List (UInt8 × UInt8)} {result : TurnResult} {results : List TurnResult}
    (h₁ : g.takeTurn player column = .ok (g₁, result))
    (h₂ : g₁.play calls = .ok (g₂, results)) :
    g.play ((player, column) :: calls) = .ok (g₂, result :: results) := by
  rw [play, h₁]
  simp only [bind, Except.bind, h₂]
  rfl

theorem play_total {g : FourAcross} (hg : Reachable g) :
    ∀ calls : List (UInt8 × UInt8),
      ∃ g' results, g.play calls = .ok (g', results) ∧ Reachable g' := by
  intro calls
  induction calls generalizing g with
  | nil => exact ⟨g, [], rfl, hg⟩
  | cons call calls ih =>
      obtain ⟨g₁, result, h₁⟩ := takeTurn_total hg.wf call.1 call.2
      obtain ⟨g₂, results, h₂, hreach⟩ := ih (.turn hg h₁)
      exact ⟨g₂, result :: results, play_cons h₁ h₂, hreach⟩

/-- In every state of every game, whatever the calls: the winner is exactly the
player who owns four in a row, there is none exactly when nobody does, and no
two players ever do. -/
theorem play_winner_exact {numColumns numRows : UInt8} (n f : UInt8)
    (hc : 5 ≤ numColumns.toNat) (hr : 4 ≤ numRows.toNat)
    (hcr : numRows.toNat < numColumns.toNat) (calls : List (UInt8 × UInt8)) :
    ∃ g₀ g results, FourAcross.new n f numColumns numRows = .ok g₀ ∧
      g₀.play calls = .ok (g, results) ∧
      (∀ p, p ≠ noWinner → (g.getWinner = p ↔ g.board.OwnsFour p)) ∧
      (g.getWinner = noWinner ↔ ∀ p, p ≠ noWinner → ¬ g.board.OwnsFour p) ∧
      ∀ p q, p ≠ noWinner → q ≠ noWinner →
        g.board.OwnsFour p → g.board.OwnsFour q → p = q := by
  have hnew := new_ok n f (Board.new_ok hc hr hcr)
  obtain ⟨g, results, hplay, hreach⟩ := play_total (.new hnew) calls
  have hexact := hreach.winExact
  refine ⟨_, g, results, hnew, hplay, hexact, hexact.noWinner_iff, ?_⟩
  intro p q hp hq hfp hfq
  exact ((hexact p hp).mpr hfp).symm.trans ((hexact q hq).mpr hfq)

/-- Player 1 wins up the first column of the smallest board, and the turn after that is
refused. -/
theorem play_winner_exact_column :
    ∃ g₀ g results, FourAcross.new 2 1 5 4 = .ok g₀ ∧
      g₀.play [(1, 0), (2, 1), (1, 0), (2, 2), (1, 0), (2, 1), (1, 0), (2, 3)] =
        .ok (g, results) ∧ g.getWinner = 1 ∧ results.getLast? = some .gameFinished ∧
      (∀ p, p ≠ noWinner → (g.getWinner = p ↔ g.board.OwnsFour p)) ∧
      (g.getWinner = noWinner ↔ ∀ p, p ≠ noWinner → ¬ g.board.OwnsFour p) ∧
      ∀ p q, p ≠ noWinner → q ≠ noWinner →
        g.board.OwnsFour p → g.board.OwnsFour q → p = q := by
  obtain ⟨g₀, g, results, hnew, hplay, hexact⟩ := @play_winner_exact 5 4 2 1 (by decide)
    (by decide) (by decide) [(1, 0), (2, 1), (1, 0), (2, 2), (1, 0), (2, 1), (1, 0), (2, 3)]
  have hends : (do
      let g₀ ← FourAcross.new 2 1 5 4
      let ends ← g₀.play [(1, 0), (2, 1), (1, 0), (2, 2), (1, 0), (2, 1), (1, 0), (2, 3)]
      return (ends.1.getWinner, ends.2.getLast?) : Except Fault _) =
        .ok (1, some .gameFinished) := by
    decide +kernel
  simp only [bind, Except.bind, hnew, hplay] at hends
  obtain ⟨hwinner, hlast⟩ := Prod.mk.inj (Except.ok.inj hends)
  exact ⟨g₀, g, results, hnew, hplay, hwinner, hlast, hexact⟩

end FourAcross

end ConnectDisks.Game
