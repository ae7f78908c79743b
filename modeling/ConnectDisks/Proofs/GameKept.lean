import ConnectDisks.Proofs.Readiness

/-!
# A game in progress

`onReady` does not ask whether a game is on. It counts the message, and when the
counter equals the number of players it puts a new game in the place of the old
one; only `startGame`, called after that, looks at `isPlayingGame`. The game
starts with the counter at the number of players, so nothing happens until the
byte has come round: the 256th ready message during a game replaces it.

Everything else leaves the game alone. So a step disturbs it exactly when it
counts that message (`game_kept_iff`).
-/

namespace ConnectDisks.Net

open ConnectDisks.Game Lib

/-- The byte the random device draws for an event. -/
def RoomEvent.draw : RoomEvent → UInt8
  | .read _ _ first _ => first
  | _ => 0

namespace Room

/-- What the lobby emitted between two states of a run. -/
def emitted (r r' : Room) : List Emission :=
  r'.lobby.trace.drop r.lobby.trace.length

theorem mem_emitted {r r' : Room} {e : Emission} {es : List Emission}
    (h : r'.lobby.trace = r.lobby.trace ++ es) (he : e ∈ es) : e ∈ r.emitted r' := by
  rw [emitted, h, List.drop_left]
  exact he

theorem onLobbyAvailable_trace {r : Room} (h : r.Seats) (refill : Option ConnId) :
    ∃ es, (r.onLobbyAvailable refill).lobby.trace = r.lobby.trace ++ es := by
  rcases onLobbyAvailable_cases h refill with heq | ⟨d, _, _, _, _, heq⟩ <;> rw [heq]
  · exact ⟨[], (List.append_nil _).symm⟩
  · exact ⟨[.joined d], rfl⟩

/-- A step that does not end the game and is no accepted turn of the current
player leaves the game as it was. -/
def KeepsGame (r r' : Room) : Prop :=
  r.lobby.isPlayingGame = true → (∀ winner, .gameEnded winner ∉ r.emitted r') →
    (∀ game column, r.lobby.game = some game →
      .tookTurn game.getCurrentPlayer column .success ∉ r.emitted r') →
    r'.lobby.game = r.lobby.game

/-- The event counts no ready message that brings the counter to the number of
players during a game, unless the game it makes is the one in progress. -/
def SparesGame (r : Room) (e : RoomEvent) : Prop :=
  ∀ c ∈ r.counts e, r.lobby.isPlayingGame = true →
    r.lobby.numReady + 1 = r.lobby.numPlayers →
    r.lobby.game = some (.standard r.lobby.maxPlayers e.draw)

theorem KeepsGame.of_eq {r r' : Room} (h : r'.lobby.game = r.lobby.game) : r.KeepsGame r' :=
  fun _ _ _ => h

theorem SparesGame.of_counts {r : Room} {e : RoomEvent} (h : r.counts e = none) :
    r.SparesGame e := by
  intro c hc
  rw [h] at hc
  cases hc

theorem counts_of_message {r : Room} {e : RoomEvent} (h : e.message? = none) :
    r.counts e = none := by
  rw [counts, h]

/-- What is counted is a ready message with the sender's own id, and the sender
was added to the lobby. -/
theorem counts_eq_some {r : Room} (h : r.Seats) {e : RoomEvent} {c : ConnId}
    (hc : r.counts e = some c) :
    ∃ m, e.message? = some (c, m) ∧ m.type = .ready ∧ m.get 0 = (r.conns c).id ∧
      c ∈ r.lobby.handlers ∧ ∃ i, r.findPlayer (r.conns c).id = some i := by
  rw [counts] at hc
  split at hc
  · cases hc
  · next d m he =>
      split at hc
      · next hcond =>
          cases hc
          obtain ⟨htype, hid, hin, hfound⟩ := hcond
          exact ⟨m, he, htype, hid, h.attached c hin, Option.isSome_iff_exists.mp hfound⟩
      · cases hc

/-- One step: the game survives it exactly when the counter does not come round. -/
theorem game_kept_iff {r r' : Room} {e : RoomEvent} (hinv : r.Inv) (hm : r.Moves e r') :
    r.KeepsGame r' ↔ r.SparesGame e := by
  cases hm with
  | @idle e c conn hi _ hn =>
      refine iff_of_true (.of_eq rfl) ?_
      intro d hd
      obtain ⟨m, he, htype, hid, hin, _⟩ := counts_eq_some hinv.seats hd
      exact absurd ⟨hid, .inl htype⟩ (hn d m he hin)
  | @outside e c conn hc hw hn _ =>
      refine iff_of_true (.of_eq rfl) ?_
      intro d hd
      obtain ⟨m, he, _, _, hin, _⟩ := counts_eq_some hinv.seats hd
      exact absurd hin (hn d m he ▸ hc)
  | join hjoin =>
      refine iff_of_true ?_ (.of_counts rfl)
      intro hplay
      rw [addPlayer_of_not (by simp [GameLobby.canAddPlayers, hplay])]
      exact fun _ _ => rfl
  | @ready c m first refill conn hc hi htype hid =>
      have hinv' := hinv.modify (ready_wanders hi).seat
      rcases onReady_cases hinv'.seats.isOpen c first with
        ⟨hnone, heq⟩ | ⟨i, hsome, hwait, heq⟩ | ⟨i, hsome, hall, hfull, hplay, heq⟩ |
          ⟨i, _, _, _, hplay, heq⟩ <;> rw [heq]
      · refine iff_of_true (.of_eq rfl) (.of_counts ?_)
        rw [counts_ready hinv.seats first refill hc hi htype hid, hnone]
        rfl
      · refine iff_of_true (.of_eq rfl) fun d _ hplay hall => ?_
        exact absurd ⟨hall, hinv.playing.full hplay⟩ hwait
      · have hcounts : r.counts (.read c (.message m) first refill) = some c :=
          counts_of_found hinv.seats hc hi htype hid hsome
        constructor
        · intro hkeep d _ _ _
          exact (hkeep hplay (by simp [emitted, withGame, counted])
            (by simp [emitted, withGame, counted])).symm
        · intro hspare _ _ _
          exact (hspare c (by rw [hcounts]; rfl) hplay hall).symm
      · have hnot : ∀ {p : Prop}, r.lobby.isPlayingGame = true → p := fun h =>
          absurd (h.symm.trans hplay) (by decide)
        exact iff_of_true (fun h => hnot h) fun _ _ h => hnot h
  | @turn c m first refill conn hc hi htype hid hcol =>
      have hinv' := hinv.modify hi.keepsSeat
      refine iff_of_true ?_ ?_
      · rcases onTakeTurn_cases hinv'.playing c (m.get 1) with
          ⟨hplay, heq⟩ | ⟨game, hgame, _, _, _, heq⟩ | ⟨game, game', hgame, hturn, _, _, heq⟩ |
            ⟨game, game', hgame, hturn, _, heq⟩ <;> rw [heq]
        · exact .of_eq rfl
        · exact .of_eq rfl
        · intro _ _ hnot
          refine absurd ?_ (hnot game (m.get 1) hgame)
          have hcurrent : game.getCurrentPlayer = ((r.modify c fun _ => conn).conns c).getId :=
            (ValidGame.accepts_of_success hturn).current
          rw [hcurrent]
          exact mem_emitted (List.append_assoc ..) List.mem_cons_self
        · intro _ hnot _
          refine absurd ?_ (hnot (outcome game'))
          exact mem_emitted (List.append_assoc ..)
            (List.mem_cons_of_mem _ (List.mem_singleton_self _))
      · refine .of_counts ?_
        simp [counts, RoomEvent.message?, htype]
  | @drop e c conn i refill hc halive hi hjoin hsilent _ =>
      refine iff_of_true ?_ (.of_counts (counts_of_message hsilent))
      intro hplay hend _
      obtain ⟨game, hgame⟩ := hinv.playing.exists_game hplay
      refine absurd ?_ (hend (outcome game))
      have hleft : ((r.modify c fun _ => conn.dropped).vacated c i).ended.lobby.trace =
          r.lobby.trace ++ [.gameEnded (outcome game)] := by
        rw [ended, show ((r.modify c fun _ => conn.dropped).vacated c i).lobby.game =
          some game from hgame]
        rfl
      obtain ⟨es, hes⟩ := onLobbyAvailable_trace (hinv.dropped hc hi).seats refill
      rw [hleft, List.append_assoc] at hes
      exact mem_emitted hes List.mem_cons_self

/-- Whole runs: every step leaves the game alone exactly when no step brings the
counter round. -/
theorem game_kept_along (maxPlayers : UInt8) (es : List RoomEvent) :
    Along Room.step (fun r _ r' => r.KeepsGame r') (started maxPlayers) es ↔
      Along Room.step (fun r e _ => r.SparesGame e) (started maxPlayers) es := by
  refine Along.iff (fun r e r' hr hs => ?_) .refl es
  have hinv := reachable_inv hr
  exact game_kept_iff hinv (step_moves hinv hs)

/-- A game in which the first player has moved once, and 255 more ready messages. -/
def manyReady : List RoomEvent :=
  bothReady ++ .read 0 (.message (.takeTurn 1 3)) 1 none :: List.replicate 255 (readies 0 1)

set_option maxRecDepth 10000 in
/-- The next ready message wipes the board. -/
theorem game_replaced :
    ¬ ∀ es, Along Room.step (fun r _ r' => r.KeepsGame r') (started 2) es := by
  intro hall
  have hrun : (run Room.step (started 2) manyReady).any (fun r =>
      (r.step (readies 0 1)).any fun r' =>
        decide (r.lobby.isPlayingGame = true ∧ r.emitted r' = [] ∧
          r'.lobby.game ≠ r.lobby.game)) = true := by
    decide +kernel
  obtain ⟨r, hrun, hr⟩ := (Option.any_eq_true ..).mp hrun
  obtain ⟨r', hstep, hr'⟩ := (Option.any_eq_true ..).mp hr
  obtain ⟨hplay, hemitted, hne⟩ := of_decide_eq_true hr'
  have hkeep := (Along.last hrun (hall (manyReady ++ [readies 0 1]))) r' hstep
  refine hne (hkeep hplay ?_ ?_)
  · simp [hemitted]
  · simp [hemitted]

end Room

end ConnectDisks.Net
