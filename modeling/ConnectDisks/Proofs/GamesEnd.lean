import ConnectDisks.Proofs.Brackets

/-!
# Every game comes to an end

A game that a lobby runs is a game like any other, so it takes fewer turns than the
board has cells as long as it goes on. Turns are counted over a run here: for the
lobby a game may go on for as many events as it likes, and the same game need not
be there after all of them. `GoesOn` says that a step leaves it there, as it was or
one accepted turn further.
-/

namespace ConnectDisks.Net

open ConnectDisks.Game Lib

def Emission.isSuccess : Emission → Bool
  | .tookTurn _ _ .success => true
  | _ => false

namespace Room

theorem isSuccess_iff {e : Emission} :
    e.isSuccess = true ↔ ∃ playerId column, e = .tookTurn playerId column .success := by
  constructor
  · intro h
    unfold Emission.isSuccess at h
    split at h
    · exact ⟨_, _, rfl⟩
    · cases h
  · rintro ⟨_, _, rfl⟩
    rfl

/-- The number of turns that were accepted so far, in all games. -/
def acceptedTurns (r : Room) : ℕ := r.lobby.trace.countP Emission.isSuccess

theorem acceptedTurns_of_trace {r r' : Room} {es : List Emission}
    (h : r'.lobby.trace = r.lobby.trace ++ es) :
    r'.acceptedTurns = r.acceptedTurns + es.countP Emission.isSuccess := by
  rw [acceptedTurns, h, List.countP_append]
  rfl

/-- The game in progress is there after the step, as it was or one accepted turn
further. -/
def GoesOn (r : Room) (e : RoomEvent) (r' : Room) : Prop :=
  r'.lobby.isPlayingGame = true ∧ (r'.lobby.game = r.lobby.game ∨
    ∃ p game game', r.Accepted e p game game' ∧ r'.lobby.game = some game')

/-- The lobby's game, whose turns and the accepted ones have grown alike since they
were `turns` and `accepted`. -/
structure Counts (r : Room) (accepted turns cells : ℕ) (game : ValidGame) : Prop where
  isGame : r.lobby.game = some game
  alike : r.acceptedTurns + turns = accepted + game.state.getNumTurns.toNat
  numCells : game.state.numCells = cells

theorem Counts.of_eq {r r' : Room} {es : List Emission} {accepted turns cells : ℕ}
    {game : ValidGame} (h : r.Counts accepted turns cells game)
    (htrace : r'.lobby.trace = r.lobby.trace ++ es) (hes : es.countP Emission.isSuccess = 0)
    (hgame : r'.lobby.game = r.lobby.game) : r'.Counts accepted turns cells game := by
  refine ⟨hgame.trans h.isGame, ?_, h.numCells⟩
  rw [acceptedTurns_of_trace htrace, hes]
  exact h.alike

theorem takeTurn_numCells (game : ValidGame) (player column : UInt8) :
    (game.takeTurn player column).1.state.numCells = game.state.numCells := by
  obtain ⟨hcols, hrows⟩ :=
    FourAcross.takeTurn_dimensions game.reachable.wf (game.takeTurn_eq player column)
  rw [FourAcross.numCells, FourAcross.numCells, hcols, hrows]

theorem Counts.moves {r r' : Room} {e : RoomEvent} {accepted turns cells : ℕ}
    {game : ValidGame} (hinv : r.Inv) (h : r.Counts accepted turns cells game)
    (hok : r.GoesOn e r') (hm : r.Moves e r') :
    ∃ game', r'.Counts accepted turns cells game' := by
  obtain ⟨hplay', hsame⟩ := hok
  have hplay := hinv.playing.isPlaying h.isGame
  cases hm with
  | idle _ _ _ => exact ⟨game, h.of_eq (List.append_nil _).symm rfl rfl⟩
  | outside _ _ _ _ => exact ⟨game, h.of_eq (List.append_nil _).symm rfl rfl⟩
  | join _ =>
      rw [addPlayer_of_not (by simp [GameLobby.canAddPlayers, hplay])]
      exact ⟨game, h⟩
  | @ready c m first refill conn _ hi htype _ =>
      rcases onReady_cases (hinv.modify (ready_wanders hi).seat).seats.isOpen c first with
        ⟨_, heq⟩ | ⟨_, _, _, heq⟩ | ⟨_, _, _, _, _, heq⟩ | ⟨_, _, _, _, hnot, _⟩
      · rw [heq]
        exact ⟨game, h.of_eq (List.append_nil _).symm rfl rfl⟩
      · rw [heq]
        exact ⟨game, h.of_eq (List.append_nil _).symm rfl rfl⟩
      · -- another game in its place, unless it is equal to the one in progress
        rw [heq] at hsame ⊢
        rcases hsame with hsame | ⟨p, game₁, game₂, ⟨d, m', he, hturn, _⟩, _⟩
        · exact ⟨game, h.of_eq (List.append_nil _).symm rfl hsame⟩
        · cases he
          rw [htype] at hturn
          cases hturn
      · exact absurd (hnot.symm.trans hplay) (by decide)
  | @turn c m first refill conn _ hi _ _ _ =>
      rcases onTakeTurn_cases (hinv.modify hi.keepsSeat).playing c (m.get 1) with
        ⟨hnot, _⟩ | ⟨game₁, hgame, _, hres, _, heq⟩ | ⟨game₁, game', hgame, hturn, _, _, heq⟩ |
          ⟨game₁, game', hgame, _, _, heq⟩
      · exact absurd (hnot.symm.trans hplay) (by decide)
      · rw [heq]
        refine ⟨game, h.of_eq (show _ = r.lobby.trace ++ [_] from rfl) ?_ rfl⟩
        rw [List.countP_singleton, if_neg]
        rw [isSuccess_iff]
        rintro ⟨_, _, hs⟩
        injection hs with _ _ hs
        exact hres hs
      · obtain rfl := Option.some.inj (h.isGame.symm.trans hgame)
        rw [heq]
        have hnum := game.takeTurn_numTurns ((r.modify c fun _ => conn).conns c).getId (m.get 1)
        have hcells := takeTurn_numCells game ((r.modify c fun _ => conn).conns c).getId (m.get 1)
        rw [hturn] at hnum hcells
        refine ⟨game', rfl, ?_, hcells.trans h.numCells⟩
        have halike := h.alike
        rw [acceptedTurns_of_trace (show _ = r.lobby.trace ++
          [.tookTurn _ _ .success, .takeTurn _] from List.append_assoc ..), hnum]
        show r.acceptedTurns + 1 + turns = accepted + (game.state.getNumTurns.toNat + 1)
        omega
      · rw [heq] at hplay'
        cases hplay'
  | @drop e c conn i refill hc _ hi _ _ _ =>
      have hended : (((r.modify c fun _ => conn.dropped).vacated c i).ended).lobby.isPlayingGame =
          false := by
        rw [ended, show ((r.modify c fun _ => conn.dropped).vacated c i).lobby.game = some game
          from h.isGame]
        rfl
      rw [(onLobbyAvailable_quiet (hinv.dropped hc hi).seats refill).2, hended] at hplay'
      cases hplay'

/-- A game in progress and what it still has before it. -/
structure Progresses (r : Room) (game : ValidGame) : Prop where
  early : game.state.getNumTurns.toNat < game.state.numCells
  continues : ∃ column game', game.takeTurn game.getCurrentPlayer column = (game', .success)
  counted : ∀ es r', run Room.step r es = some r' → Along Room.step GoesOn r es →
    ∃ game', r'.lobby.game = some game' ∧ r'.acceptedTurns + game.state.getNumTurns.toNat =
        r.acceptedTurns + game'.state.getNumTurns.toNat ∧
      game'.state.getNumTurns.toNat < game.state.numCells
  ends : ∀ e r' p game', r.step e = some r' → r.Accepted e p game game' →
    r'.lobby.game = some game' ∨
      (r'.lobby.game = none ∧ (game'.hasWinner = true ∨ game'.boardFull = true))

theorem numTurns_lt {r : Room} (h : Playing r.lobby) {game : ValidGame}
    (hgame : r.lobby.game = some game) :
    game.state.getNumTurns.toNat < game.state.numCells := by
  refine Nat.lt_of_le_of_ne game.reachable.numTurns_le fun heq => ?_
  have hfull := game.boardFull_iff.mpr (game.reachable.numTurns_eq_iff.mp heq)
  exact absurd (hfull.symm.trans (h.running game hgame).2.1) (by decide)

theorem counts_run {r : Room} (hinv : r.Inv) {accepted turns cells : ℕ} {game : ValidGame}
    (h : r.Counts accepted turns cells game) {es : List RoomEvent} {r' : Room}
    (hrun : run Room.step r es = some r') (hok : Along Room.step GoesOn r es) :
    r'.Inv ∧ ∃ game', r'.Counts accepted turns cells game' := by
  induction es generalizing r game with
  | nil =>
      obtain rfl := Option.some.inj hrun
      exact ⟨hinv, game, h⟩
  | cons e es ih =>
      obtain ⟨mid, hmid, hrest⟩ := Option.bind_eq_some_iff.mp hrun
      obtain ⟨hgoes, hok⟩ := hok mid hmid
      have hm := step_moves hinv hmid
      obtain ⟨game', h'⟩ := h.moves hinv hgoes hm
      exact ih (hinv.moves hm) h' hrest hok

/-- An accepted turn stays in the lobby or is the last one. -/
theorem accepted_stays_or_ends {r r' : Room} {e : RoomEvent} (hinv : r.Inv)
    (hm : r.Moves e r') {p : UInt8} {game game' : ValidGame} (hacc : r.Accepted e p game game') :
    r'.lobby.game = some game' ∨
      (r'.lobby.game = none ∧ (game'.hasWinner = true ∨ game'.boardFull = true)) := by
  obtain ⟨d, m', he, htype', rfl, hcolumn, hid', hin, hgame, hturn⟩ := hacc
  have hmem := hinv.seats.attached d hin
  cases hm with
  | idle _ _ hn => exact absurd ⟨hid'.symm, .inr ⟨htype', hcolumn⟩⟩ (hn d m' he hmem)
  | outside hc _ hown _ => exact absurd hmem (hown d m' he ▸ hc)
  | join _ => cases he
  | ready _ _ htype _ =>
      cases he
      rw [htype] at htype'
      cases htype'
  | @turn c m first refill conn _ hi _ hid _ =>
      injection he with he
      injection he with hc hm
      subst hc hm
      have hgetId : ((r.modify c fun _ => conn).conns c).getId = m.get 0 := by
        rw [modify_conns_self, hid]
        exact hi.id
      rcases onTakeTurn_cases (hinv.modify hi.keepsSeat).playing c (m.get 1) with
        ⟨hnot, _⟩ | ⟨game₁, hgame₁, _, hres, _, _⟩ | ⟨game₁, game₂, hgame₁, hturn₁, _, _, heq⟩ |
          ⟨game₁, game₂, hgame₁, hturn₁, hover, heq⟩
      · exact absurd (hnot.symm.trans (hinv.playing.isPlaying hgame)) (by decide)
      · obtain rfl := Option.some.inj (hgame.symm.trans hgame₁)
        rw [hgetId, hturn] at hres
        exact absurd rfl hres
      · obtain rfl := Option.some.inj (hgame.symm.trans hgame₁)
        rw [hgetId, hturn] at hturn₁
        obtain rfl := congrArg Prod.fst hturn₁
        rw [heq]
        exact .inl rfl
      · obtain rfl := Option.some.inj (hgame.symm.trans hgame₁)
        rw [hgetId, hturn] at hturn₁
        obtain rfl := congrArg Prod.fst hturn₁
        rw [heq]
        exact .inr ⟨rfl, hover⟩
  | drop _ _ _ _ hsilent _ =>
      rw [hsilent] at he
      cases he

theorem Inv.progresses {r : Room} (hinv : r.Inv) {game : ValidGame}
    (hgame : r.lobby.game = some game) : r.Progresses game := by
  have hrunning := hinv.playing.running game hgame
  refine ⟨numTurns_lt hinv.playing hgame, ?_, fun es r' hrun hok => ?_, fun e r' p game' hs hacc =>
    accepted_stays_or_ends hinv (step_moves hinv hs) hacc⟩
  · have hopen : game.state.getWinner = FourAcross.noWinner := by
      by_contra hne
      exact absurd ((game.hasWinner_iff.mpr hne).symm.trans hrunning.1) (by decide)
    have hroom : ¬ game.state.board.Filled := by
      rw [← game.boardFull_iff, hrunning.2.1]
      simp
    obtain ⟨column, g', hturn⟩ := game.reachable.exists_column hopen hroom
    refine ⟨column, _, Prod.ext rfl ?_⟩
    rw [game.takeTurn_eq] at hturn
    injection hturn with hturn
    injection hturn
  · obtain ⟨hinv', game', h'⟩ := counts_run hinv ⟨hgame, rfl, rfl⟩ hrun hok
    have hlt := numTurns_lt hinv'.playing h'.isGame
    rw [h'.numCells] at hlt
    exact ⟨game', h'.isGame, h'.alike, hlt⟩

/-! ## The games of the server and all others -/

/-- Games end. On every board the constructor accepts, whoever plays and whatever the
calls: the board is full when every cell was played, until then somebody can move
unless somebody has won, and no more turns are accepted than there are cells, so that
the counter is their number. And a game in a lobby takes fewer turns than that: after
an accepted turn it is there, one turn further, or it is over. -/
theorem games_end :
    (∀ (numColumns numRows n f : UInt8) (calls : List (UInt8 × UInt8)),
      5 ≤ numColumns.toNat → 4 ≤ numRows.toNat → numRows.toNat < numColumns.toNat →
      ∃ g₀ g results, FourAcross.new n f numColumns numRows = .ok g₀ ∧
        g₀.play calls = .ok (g, results) ∧
        g.Progresses (numColumns.toNat * numRows.toNat) ∧
        results.count .success = g.getNumTurns.toNat) ∧
    (∀ (maxPlayers : UInt8) (r : Room) (game : ValidGame),
      Reachable Room.step (started maxPlayers) r → r.lobby.game = some game →
      r.Progresses game) := by
  refine ⟨fun numColumns numRows n f calls hc hr hcr => ?_, fun maxPlayers r game hr hgame =>
    (reachable_inv hr).progresses hgame⟩
  have hnew := FourAcross.new_ok n f (Board.new_ok hc hr hcr)
  obtain ⟨g, results, hplay, hreach⟩ := FourAcross.play_total (.new hnew) calls
  obtain ⟨hcols, hrows⟩ := FourAcross.play_dimensions (.new hnew) hplay
  have hprogress := hreach.progresses
  rw [FourAcross.numCells, hcols, hrows] at hprogress
  refine ⟨_, g, results, hnew, hplay, hprogress, ?_⟩
  rw [FourAcross.play_numTurns (.new hnew) hplay]
  exact (Nat.zero_add _).symm

/-- A game on the smallest board, and the game of two players who are both ready. -/
theorem games_end_both :
    (∃ g₀ g results, FourAcross.new 2 1 5 4 = .ok g₀ ∧
      g₀.play [(1, 0), (2, 1), (1, 7)] = .ok (g, results) ∧ g.Progresses 20 ∧
      results.count .success = g.getNumTurns.toNat) ∧
    ∃ r game, run Room.step (started 2) bothReady = some r ∧ r.lobby.game = some game ∧
      r.Progresses game := by
  refine ⟨games_end.1 5 4 2 1 _ (by decide) (by decide) (by decide), ?_⟩
  have hrun : (run Room.step (started 2) bothReady).any (·.lobby.game.isSome) = true := by
    decide
  obtain ⟨r, hrun, hr⟩ := (Option.any_eq_true ..).mp hrun
  obtain ⟨game, hgame⟩ := Option.isSome_iff_exists.mp hr
  exact ⟨r, game, hrun, hgame, games_end.2 2 r game (.of_run hrun) hgame⟩

end Room

end ConnectDisks.Net
