import ConnectDisks.Lib.Alternation
import ConnectDisks.Proofs.GameKept
import ConnectDisks.Proofs.LobbyShape
import ConnectDisks.Proofs.Progress

/-!
# The beginning and the end of a game

Games are announced and their ends are announced, by turns: `isPlayingGame` is a
flag, and every change of it is emitted.

An end is announced for one of three reasons. An accepted turn makes a line of
four, an accepted turn fills the board, or a player of the lobby is dropped. What
the announcement says is what happened (`gameEnded_iff_finishes`), because of two
invariants of the game in progress: nobody has a line, so the only line a turn can
find is the mover's, and a game that is given up has no winner.
-/

namespace ConnectDisks.Net

open ConnectDisks.Game Lib

/-- Whether an emission says that a game begins or that it is over. -/
def Emission.bracket? : Emission → Option Bool
  | .gameStarted _ _ => some true
  | .gameEnded _ => some false
  | _ => none

namespace Room

/-- The beginnings and ends of games that were announced. -/
def brackets (r : Room) : List Bool := r.lobby.trace.filterMap Emission.bracket?

/-- What was emitted announces the change of `isPlayingGame`, if there was one. -/
def Announces (r r' : Room) : Prop :=
  ∃ es, r'.lobby.trace = r.lobby.trace ++ es ∧ es.filterMap Emission.bracket? =
    if r'.lobby.isPlayingGame = r.lobby.isPlayingGame then [] else [r'.lobby.isPlayingGame]

theorem Announces.of_eq {r r' : Room} {es : List Emission}
    (htrace : r'.lobby.trace = r.lobby.trace ++ es) (hes : es.filterMap Emission.bracket? = [])
    (hplay : r'.lobby.isPlayingGame = r.lobby.isPlayingGame) : r.Announces r' :=
  ⟨es, htrace, by rw [hes, if_pos hplay]⟩

theorem Announces.refl (r : Room) : r.Announces r :=
  .of_eq (List.append_nil _).symm rfl rfl

theorem Announces.of_ne {r r' : Room} {es : List Emission}
    (htrace : r'.lobby.trace = r.lobby.trace ++ es)
    (hes : es.filterMap Emission.bracket? = [r'.lobby.isPlayingGame])
    (hplay : r'.lobby.isPlayingGame ≠ r.lobby.isPlayingGame) : r.Announces r' :=
  ⟨es, htrace, by rw [hes, if_neg hplay]⟩

theorem onLobbyAvailable_quiet {r : Room} (h : r.Seats) (refill : Option ConnId) :
    (∃ es, (r.onLobbyAvailable refill).lobby.trace = r.lobby.trace ++ es ∧
      ∀ e ∈ es, e.bracket? = none) ∧
    (r.onLobbyAvailable refill).lobby.isPlayingGame = r.lobby.isPlayingGame := by
  rcases onLobbyAvailable_cases h refill with heq | ⟨a, _, _, _, _, heq⟩ <;> rw [heq]
  · exact ⟨⟨[], (List.append_nil _).symm, fun _ he => by cases he⟩, rfl⟩
  · refine ⟨⟨[.joined a], rfl, fun e he => ?_⟩, rfl⟩
    rw [List.mem_singleton.mp he]
    rfl

theorem Announces.onLobbyAvailable {r r' : Room} (h : r.Announces r') (hs : r'.Seats)
    (refill : Option ConnId) : r.Announces (r'.onLobbyAvailable refill) := by
  obtain ⟨es, htrace, hes⟩ := h
  obtain ⟨⟨fs, htrace', hfs⟩, hplay⟩ := onLobbyAvailable_quiet hs refill
  refine ⟨es ++ fs, by rw [htrace', htrace, List.append_assoc], ?_⟩
  rw [List.filterMap_append, List.filterMap_eq_nil_iff.mpr hfs, List.append_nil, hplay, hes]

theorem onReady_announces {r : Room} (h : r.Seats) (c : ConnId) (first : UInt8) :
    r.Announces (r.onReady c first) := by
  rcases onReady_cases h.isOpen c first with
    ⟨_, heq⟩ | ⟨_, _, _, heq⟩ | ⟨_, _, _, _, _, heq⟩ | ⟨_, _, _, _, hplay, heq⟩ <;> rw [heq]
  · exact .refl r
  · exact .of_eq (List.append_nil _).symm rfl rfl
  · exact .of_eq (List.append_nil _).symm rfl rfl
  · refine .of_ne (List.append_assoc ..) rfl ?_
    rw [hplay]
    simp

theorem onTakeTurn_announces {r : Room} (h : Playing r.lobby) (c : ConnId) (column : UInt8) :
    r.Announces (r.onTakeTurn c column) := by
  rcases onTakeTurn_cases h c column with
    ⟨_, heq⟩ | ⟨_, _, _, _, _, heq⟩ | ⟨_, _, _, _, _, _, heq⟩ |
      ⟨game, _, hgame, _, _, heq⟩ <;> rw [heq]
  · exact .of_eq rfl rfl rfl
  · exact .of_eq rfl rfl rfl
  · exact .of_eq (List.append_assoc ..) rfl rfl
  · refine .of_ne (List.append_assoc ..) rfl ?_
    rw [h.isPlaying hgame]
    simp [gameOver]

theorem ended_trace (r : Room) :
    r.ended.lobby.trace = r.lobby.trace ++
      match r.lobby.game with
      | none => []
      | some game => [.gameEnded (outcome game)] := by
  rw [ended]
  cases r.lobby.game with
  | none => exact (List.append_nil _).symm
  | some game => rfl

theorem ended_announces {r : Room} (h : r.lobby.isPlayingGame = r.lobby.game.isSome) :
    r.Announces r.ended := by
  have htrace := r.ended_trace
  rw [ended] at htrace ⊢
  cases hgame : r.lobby.game with
  | none => exact .refl r
  | some game =>
      rw [hgame] at htrace h
      refine .of_ne htrace rfl ?_
      rw [h]
      simp [gameOver]

theorem Moves.announces {r r' : Room} {e : RoomEvent} (h : r.Inv) (hm : r.Moves e r') :
    r.Announces r' := by
  cases hm with
  | idle _ _ _ => exact .refl r
  | outside _ _ _ _ => exact .refl r
  | @join c _ => exact (Announces.refl r).onLobbyAvailable h.seats (some c)
  | @ready c m first refill conn _ hi _ _ =>
      exact onReady_announces (h.modify (ready_wanders hi).seat).seats c first
  | @turn c m first refill conn _ hi _ _ _ =>
      exact onTakeTurn_announces (h.modify hi.keepsSeat).playing c _
  | @drop e c conn i refill hc _ hi _ _ _ =>
      have hleft : r.Announces (((r.modify c fun _ => conn.dropped).vacated c i).ended) :=
        ended_announces (r := (r.modify c fun _ => conn.dropped).vacated c i) h.playing.playing
      exact hleft.onLobbyAvailable (h.dropped hc hi).seats refill

/-- Beginnings and ends alternate, and while a game is on, its beginning is the last
thing that was announced. -/
theorem reachable_alternates {maxPlayers : UInt8} {r : Room}
    (hr : Reachable Room.step (started maxPlayers) r) :
    Alternates r.brackets r.lobby.isPlayingGame := by
  refine reaches_invariant (I := fun r => Alternates r.brackets r.lobby.isPlayingGame)
    .nil (fun r e r' hinv _ h _ hm => ?_) hr
  obtain ⟨es, htrace, hes⟩ := hm.announces hinv
  refine h.step ?_
  rw [brackets, brackets, htrace, List.filterMap_append, hes]

/-! ## Why a game ends -/

/-- The event reads a turn which the game in progress accepts for player `p`. -/
def Accepted (r : Room) (e : RoomEvent) (p : UInt8) (game game' : ValidGame) : Prop :=
  ∃ c m, e.message? = some (c, m) ∧ m.type = .takeTurn ∧ m.get 0 = p ∧ m.get 1 ≠ 255 ∧
    (r.conns c).id = p ∧ r.lobby.address ∈ (r.conns c).handlers ∧
    r.lobby.game = some game ∧ game.takeTurn p (m.get 1) = (game', .success)

/-- A player in a slot was dropped in this step. -/
def Leaves (r r' : Room) : Prop :=
  ∃ i c, r.Seated i c ∧ (r.conns c).isAlive = true ∧ (r'.conns c).isAlive = false

/-- The step ends the game, in the terms of the code: by a turn after which the
game has a winner or no room, or because a player leaves. -/
def Finishes (r : Room) (e : RoomEvent) (r' : Room) (winner : UInt8) : Prop :=
  (∃ p game game', r.Accepted e p game game' ∧
    (game'.hasWinner = true ∨ game'.boardFull = true) ∧ winner = outcome game') ∨
  (r.lobby.isPlayingGame = true ∧ r.Leaves r' ∧ winner = FourAcross.noWinner)

/-- The lobby is ready for the next game. -/
structure Clean (r : Room) : Prop where
  game : r.lobby.game = none
  isPlayingGame : r.lobby.isPlayingGame = false
  numReady : r.lobby.numReady = 0
  isReady : ∀ i c, r.Seated i c → (r.conns c).isReady = false


/-- The end of a game is the work of `onGameOver`, called in some state on the way
from `r` to `r'`; it leaves the lobby clean, and after it at most a slot is filled. -/
def EndsClean (r r' : Room) (winner : UInt8) : Prop :=
  ∃ (q : Room) (refill : Option ConnId), q.lobby.game.isSome = true ∧
    r.lobby.trace <+: q.lobby.trace ∧
    q.onGameOver.lobby.trace = q.lobby.trace ++ [.gameEnded winner] ∧ q.onGameOver.Clean ∧
    r' = q.onGameOver.onLobbyAvailable refill

theorem endsClean {r q : Room} (hq : q.Seats) (game : ValidGame)
    (hgame : q.lobby.game = some game) (htrace : r.lobby.trace <+: q.lobby.trace)
    (refill : Option ConnId) :
    r.EndsClean ((q.gameOver (outcome game)).onLobbyAvailable refill) (outcome game) := by
  have hclean : (q.gameOver (outcome game)).Clean :=
    ⟨rfl, rfl, rfl, fun _ _ hc => gameOver_isReady hq _ hc⟩
  refine ⟨q, refill, by rw [hgame]; rfl, htrace, ?_⟩
  rw [onGameOver_eq hgame]
  exact ⟨rfl, hclean, rfl⟩

theorem outcome_of_running {game : ValidGame} (h : game.hasWinner = false) :
    outcome game = FourAcross.noWinner := by
  rw [outcome, h]
  rfl

theorem dropped_isAlive {r : Room} {c : ConnId} (conn : Connection) (i : Nat)
    (refill : Option ConnId) :
    (((((r.modify c fun _ => conn.dropped).vacated c i).ended).onLobbyAvailable
      refill).conns c).isAlive = false := by
  rw [dropped_isAlive_eq, modify_conns_self, Connection.dropped_isAlive]

theorem not_accepted_of_silent {r : Room} {e : RoomEvent} (h : e.message? = none)
    {p : UInt8} {game game' : ValidGame} : ¬ r.Accepted e p game game' := by
  rintro ⟨c, m, he, _⟩
  rw [h] at he
  cases he

theorem dropped_gameEnded {r : Room} (h : r.Inv) {i : Nat} {c : ConnId} {conn : Connection}
    (hc : r.Seated i c) (hi : (r.conns c).Idles conn) (refill : Option ConnId)
    (winner : UInt8) {r' : Room} (heq : r' =
      (((r.modify c fun _ => conn.dropped).vacated c i).ended).onLobbyAvailable refill) :
    (.gameEnded winner ∈ r.emitted r' ↔
      r.lobby.isPlayingGame = true ∧ winner = FourAcross.noWinner) ∧
    (.gameEnded winner ∈ r.emitted r' → r.EndsClean r' winner) := by
  have hdead : ((r.modify c fun _ => conn.dropped).conns c).isAlive = false := by
    rw [modify_conns_self]
    rfl
  have hseats := ((h.modify (dropped_wanders hi).seat).seats.vacated hc hdead)
  obtain ⟨⟨fs, hfs, hquiet⟩, _⟩ := onLobbyAvailable_quiet (h.dropped hc hi).seats refill
  have hnot : ∀ w, .gameEnded w ∉ fs := by
    intro w hw
    cases hquiet _ hw
  rw [ended_trace, ← heq] at hfs
  cases hgame : r.lobby.game with
  | none =>
      have htrace : r'.lobby.trace = r.lobby.trace ++ fs := by
        rw [hfs]
        show r.lobby.trace ++ (match r.lobby.game with
          | none => []
          | some game => [.gameEnded (outcome game)]) ++ fs = _
        rw [hgame, List.append_nil]
      rw [emitted, htrace, List.drop_left, h.playing.not_playing hgame]
      exact ⟨iff_of_false (hnot winner) (by simp), fun hin => absurd hin (hnot winner)⟩
  | some game =>
      have houtcome := outcome_of_running (h.playing.running game hgame).1
      have htrace : r'.lobby.trace = r.lobby.trace ++ .gameEnded FourAcross.noWinner :: fs := by
        rw [hfs, ← houtcome, ← List.singleton_append, ← List.append_assoc]
        show r.lobby.trace ++ (match r.lobby.game with
          | none => []
          | some game => [.gameEnded (outcome game)]) ++ fs = _
        rw [hgame]
      have hin : .gameEnded winner ∈ r.emitted r' ↔ winner = FourAcross.noWinner := by
        rw [emitted, htrace, List.drop_left, List.mem_cons, Emission.gameEnded.injEq]
        exact or_iff_left (hnot winner)
      refine ⟨?_, fun hw => ?_⟩
      · rw [hin, h.playing.isPlaying hgame]
        exact (and_iff_right rfl).symm
      · have hended := endsClean (r := r) hseats game hgame List.prefix_rfl refill
        rw [hin.mp hw, ← houtcome, heq, ended, show
          ((r.modify c fun _ => conn.dropped).vacated c i).lobby.game = some game from hgame]
        exact hended

/-- An end is announced exactly when the game ends, with the winner it has, and
`onGameOver` leaves the lobby clean. -/
structure TellsEnd (r : Room) (e : RoomEvent) (r' : Room) (winner : UInt8) : Prop where
  finishes : .gameEnded winner ∈ r.emitted r' ↔ r.Finishes e r' winner
  clean : .gameEnded winner ∈ r.emitted r' → r.EndsClean r' winner

/-- A step that announces nothing and drops nobody, on an event that is no accepted
turn. -/
theorem TellsEnd.of_quiet {r r' : Room} {e : RoomEvent} {es : List Emission}
    (hleaves : ¬ r.Leaves r') (htrace : r'.lobby.trace = r.lobby.trace ++ es)
    (hes : ∀ w, .gameEnded w ∉ es) (hacc : ∀ p game game', ¬ r.Accepted e p game game')
    (winner : UInt8) : r.TellsEnd e r' winner := by
  have hnot : .gameEnded winner ∉ r.emitted r' := by
    rw [emitted, htrace, List.drop_left]
    exact hes winner
  refine ⟨iff_of_false hnot ?_, fun hin => absurd hin hnot⟩
  rintro (⟨p, game, game', h, _⟩ | ⟨_, h, _⟩)
  · exact hacc p game game' h
  · exact hleaves h

theorem turn_tellsEnd {r : Room} (h : r.Inv) {c : ConnId} {m : Message} {first : UInt8}
    {refill : Option ConnId} {conn : Connection} (hc : c ∈ r.lobby.handlers)
    (hi : (r.conns c).Idles conn) (htype : m.type = .takeTurn)
    (hid : m.get 0 = (r.conns c).id) (hcolumn : m.get 1 ≠ 255) {winner : UInt8} {r' : Room}
    (heq : r' = (r.modify c fun _ => conn).onTakeTurn c (m.get 1)) (hleaves : ¬ r.Leaves r') :
    r.TellsEnd (.read c (.message m) first refill) r' winner := by
  have hinv := h.modify hi.keepsSeat
  have hgetId : ((r.modify c fun _ => conn).conns c).getId = m.get 0 := by
    rw [modify_conns_self, hid]
    exact hi.id
  have hown : ∀ {p : UInt8} {game game' : ValidGame},
      r.Accepted (.read c (.message m) first refill) p game game' →
      r.lobby.game = some game ∧ game.takeTurn (m.get 0) (m.get 1) = (game', .success) := by
    rintro p game game' ⟨c', m', hm, _, rfl, _, _, _, hgame, hturn⟩
    cases hm
    exact ⟨hgame, hturn⟩
  rcases onTakeTurn_cases hinv.playing c (m.get 1) with
    ⟨hplay, hres⟩ | ⟨game, hgame, _, hnot, _, hres⟩ | ⟨game, game', hgame, hturn, hwin, hroom, hres⟩ |
      ⟨game, game', hgame, hturn, hover, hres⟩ <;> rw [hgetId] at *
  · refine .of_quiet hleaves (show _ = r.lobby.trace ++ [_] by rw [heq, hres]; rfl) (by simp)
      (fun p game game' hacc => ?_) winner
    have hnone := hinv.playing.not_game hplay
    exact absurd (hnone.symm.trans (hown hacc).1) (by simp)
  · refine .of_quiet hleaves (show _ = r.lobby.trace ++ [_] by rw [heq, hres]; rfl) (by simp)
      (fun p game₁ game' hacc => ?_) winner
    obtain ⟨hgame₁, hturn⟩ := hown hacc
    obtain rfl := Option.some.inj (hgame.symm.trans hgame₁)
    exact hnot (congrArg Prod.snd hturn)
  · have htrace : r'.lobby.trace = r.lobby.trace ++
        [.tookTurn (m.get 0) (m.get 1) .success, .takeTurn game'.getCurrentPlayer] := by
      rw [heq, hres]
      exact List.append_assoc ..
    have hnot : .gameEnded winner ∉ r.emitted r' := by
      rw [emitted, htrace, List.drop_left]
      simp
    refine ⟨iff_of_false hnot ?_, fun hin => absurd hin hnot⟩
    rintro (⟨p, game₁, game₂, hacc, hover, _⟩ | ⟨_, hleave, _⟩)
    · obtain ⟨hgame₁, hturn₁⟩ := hown hacc
      obtain rfl := Option.some.inj (hgame.symm.trans hgame₁)
      obtain rfl := congrArg Prod.fst (hturn.symm.trans hturn₁)
      simp only [hwin, hroom, Bool.false_eq_true, or_self] at hover
    · exact hleaves hleave
  · have htrace : r'.lobby.trace = r.lobby.trace ++
        [.tookTurn (m.get 0) (m.get 1) .success, .gameEnded (outcome game')] := by
      rw [heq, hres]
      exact List.append_assoc ..
    have hin : .gameEnded winner ∈ r.emitted r' ↔ winner = outcome game' := by
      rw [emitted, htrace, List.drop_left]
      simp
    refine ⟨hin.trans ⟨fun hw => ?_, ?_⟩, fun hw => ?_⟩
    · refine .inl ⟨m.get 0, game, game', ⟨c, m, rfl, htype, rfl, hcolumn, hid.symm, ?_, hgame,
        hturn⟩, hover, hw⟩
      exact (h.seats.mem_handlers c).mp hc
    · rintro (⟨p, game₁, game₂, hacc, _, hw⟩ | ⟨_, hleave, _⟩)
      · obtain ⟨hgame₁, hturn₁⟩ := hown hacc
        obtain rfl := Option.some.inj (hgame.symm.trans hgame₁)
        obtain rfl := congrArg Prod.fst (hturn.symm.trans hturn₁)
        exact hw
      · exact absurd hleave hleaves
    · have hseats := (hinv.seats.withGame (some game')).tookTurn (m.get 0) (m.get 1) .success
      have hended := endsClean (r := r) hseats game' rfl
        (List.prefix_append _ _) none
      rw [hin.mp hw, heq, hres]
      exact hended

theorem Moves.tellsEnd {r r' : Room} {e : RoomEvent} (h : r.Inv) (hm : r.Moves e r')
    (winner : UInt8) : r.TellsEnd e r' winner := by
  by_cases hleaves : r.Leaves r'
  · -- whatever the event, it drops somebody and does no more
    obtain ⟨i, c, hc, halive, hdead⟩ := hleaves
    obtain ⟨j, conn, refill, hj, hi, _, hsilent, heq⟩ :=
      hm.drops (h.seats.seated i c hc).1 halive hdead
    obtain ⟨hiff, hclean⟩ := dropped_gameEnded h hj hi refill winner heq
    refine ⟨hiff.trans ⟨fun hw => ?_, ?_⟩, hclean⟩
    · exact .inr ⟨hw.1, ⟨i, c, hc, halive, hdead⟩, hw.2⟩
    · rintro (⟨p, game, game', hacc, _⟩ | ⟨hplay, _, hw⟩)
      · exact absurd hacc (not_accepted_of_silent hsilent)
      · exact ⟨hplay, hw⟩
  · cases hm with
    | @idle e c conn _ _ hn =>
        refine .of_quiet hleaves (List.append_nil _).symm (by simp)
          (fun p game game' hacc => ?_) winner
        obtain ⟨d, m, he, htype, hid, hcolumn, hp, hin, _⟩ := hacc
        exact hn d m he (h.seats.attached d hin) ⟨hid.trans hp.symm, .inr ⟨htype, hcolumn⟩⟩
    | @outside e c conn hc _ hown _ =>
        refine .of_quiet hleaves (List.append_nil _).symm (by simp)
          (fun p game game' hacc => ?_) winner
        obtain ⟨d, m, he, _, _, _, _, hin, _⟩ := hacc
        exact hc (hown d m he ▸ h.seats.attached d hin)
    | @join c _ =>
        obtain ⟨⟨es, htrace, hes⟩, _⟩ := onLobbyAvailable_quiet h.seats (some c)
        refine .of_quiet hleaves htrace (fun w hw => ?_)
          (fun _ _ _ => not_accepted_of_silent rfl) winner
        cases hes _ hw
    | @ready c m first refill conn _ hi htype _ =>
        have hacc : ∀ p game game',
            ¬ r.Accepted (.read c (.message m) first refill) p game game' := by
          rintro p game game' ⟨d, m', he, hturn, _⟩
          cases he
          rw [htype] at hturn
          cases hturn
        rcases onReady_cases (h.modify (ready_wanders hi).seat).seats.isOpen c first with
          ⟨_, heq⟩ | ⟨_, _, _, heq⟩ | ⟨_, _, _, _, _, heq⟩ | ⟨_, _, _, _, _, heq⟩ <;>
          rw [heq] at hleaves ⊢
        · exact .of_quiet hleaves (List.append_nil _).symm (by simp) hacc winner
        · exact .of_quiet hleaves (List.append_nil _).symm (by simp) hacc winner
        · exact .of_quiet hleaves (List.append_nil _).symm (by simp) hacc winner
        · exact .of_quiet hleaves (List.append_assoc ..) (by simp) hacc winner
    | turn hc hi htype hid hcolumn =>
        exact turn_tellsEnd h hc hi htype hid hcolumn rfl hleaves
    | @drop e c conn i refill hc halive _ _ _ _ =>
        exact absurd ⟨i, c, hc, halive, dropped_isAlive conn i refill⟩ hleaves

/-! ## What the announcements say -/

/-- An end with a winner means that the turn made a line of the winner's; one without
means that it filled the board and nobody has a line, or that a player left. -/
structure Truthful (r : Room) (e : RoomEvent) (r' : Room) : Prop where
  line : ∀ p, p ≠ FourAcross.noWinner → (.gameEnded p ∈ r.emitted r' ↔
    ∃ game game', r.Accepted e p game game' ∧
      ¬ game.state.board.OwnsFour p ∧ game'.state.board.OwnsFour p)
  noLine : .gameEnded FourAcross.noWinner ∈ r.emitted r' ↔
    (∃ p game game', r.Accepted e p game game' ∧ game'.state.board.Filled ∧
      ∀ q, q ≠ FourAcross.noWinner → ¬ game'.state.board.OwnsFour q) ∨
    (r.lobby.isPlayingGame = true ∧ r.Leaves r')
  clean : ∀ winner, .gameEnded winner ∈ r.emitted r' → r.EndsClean r' winner

/-- The winner the code finds is the player with a line. -/
theorem outcome_eq_iff {game : ValidGame} {p : UInt8} (hp : p ≠ FourAcross.noWinner) :
    outcome game = p ↔ game.state.board.OwnsFour p := by
  rw [← game.reachable.winExact p hp, outcome]
  split
  · exact Iff.rfl
  · next hno =>
      rw [game.hasWinner_iff, not_not] at hno
      exact iff_of_false hp.symm fun h => hp (h.symm.trans hno)

theorem outcome_eq_noWinner_iff {game : ValidGame} :
    outcome game = FourAcross.noWinner ↔
      ∀ q, q ≠ FourAcross.noWinner → ¬ game.state.board.OwnsFour q := by
  constructor
  · intro h q hq hfour
    exact hq (((outcome_eq_iff hq).mpr hfour).symm.trans h)
  · intro h
    by_contra hne
    exact h _ hne ((outcome_eq_iff hne).mp rfl)

theorem outcome_ne_iff {game : ValidGame} :
    outcome game ≠ FourAcross.noWinner ↔ game.hasWinner = true := by
  rw [outcome]
  split
  · next h => exact iff_of_true (game.hasWinner_iff.mp h) h
  · next h => exact iff_of_false (fun hne => hne rfl) h

theorem outcome_of_accepted {r : Room} {e : RoomEvent} {p : UInt8} {game game' : ValidGame}
    (h : r.Accepted e p game game') (hwin : game'.hasWinner = true) : outcome game' = p := by
  obtain ⟨c, m, _, _, _, _, _, _, _, hturn⟩ := h
  rw [outcome, if_pos hwin]
  exact (ValidGame.getWinner_of_success hturn).resolve_right (game'.hasWinner_iff.mp hwin)

theorem Moves.truthful {r r' : Room} {e : RoomEvent} (h : r.Inv) (hm : r.Moves e r') :
    r.Truthful e r' := by
  refine ⟨fun p hp => ?_, ?_, fun winner => (hm.tellsEnd h winner).clean⟩
  · rw [(hm.tellsEnd h p).finishes]
    constructor
    · rintro (⟨p', game, game', hacc, _, hw⟩ | ⟨_, _, hw⟩)
      · have hwin := outcome_ne_iff.mp (hw ▸ hp)
        obtain rfl : p' = p := (outcome_of_accepted hacc hwin).symm.trans hw.symm
        refine ⟨game, game', hacc, fun hfour => ?_, (outcome_eq_iff hp).mp hw.symm⟩
        obtain ⟨c, m, _, _, _, _, _, _, hgame, _⟩ := hacc
        have hnone := outcome_of_running (h.playing.running game hgame).1
        exact hp (((outcome_eq_iff hp).mpr hfour).symm.trans hnone)
      · exact absurd hw hp
    · rintro ⟨game, game', hacc, _, hfour⟩
      have houtcome := (outcome_eq_iff hp).mpr hfour
      exact .inl ⟨p, game, game', hacc, .inl (outcome_ne_iff.mp (houtcome ▸ hp)), houtcome.symm⟩
  · rw [(hm.tellsEnd h _).finishes]
    constructor
    · rintro (⟨p, game, game', hacc, hover, hw⟩ | ⟨hplay, hleaves, _⟩)
      · have hno := hw.symm
        refine .inl ⟨p, game, game', hacc, ?_, outcome_eq_noWinner_iff.mp hno⟩
        exact game'.boardFull_iff.mp
          (hover.resolve_left fun hwin => outcome_ne_iff.mpr hwin hno)
      · exact .inr ⟨hplay, hleaves⟩
    · rintro (⟨p, game, game', hacc, hfilled, hnone⟩ | ⟨hplay, hleaves⟩)
      · exact .inl ⟨p, game, game', hacc, .inr (game'.boardFull_iff.mpr hfilled),
          (outcome_eq_noWinner_iff.mpr hnone).symm⟩
      · exact .inr ⟨hplay, hleaves, rfl⟩

/-- In every run the games begin and end by turns, the first announcement is a
beginning, and every step that announces an end tells the truth about it and leaves
the lobby clean. -/
theorem games_bracketed {maxPlayers : UInt8} {r : Room}
    (hr : Reachable Room.step (started maxPlayers) r) :
    r.brackets.IsChain (· ≠ ·) ∧ (∀ b ∈ r.brackets.head?, b = true) ∧
      ∀ e r', r.step e = some r' → r.Truthful e r' := by
  have halternates := reachable_alternates hr
  have hinv := reachable_inv hr
  exact ⟨halternates.chain, halternates.first, fun e r' hs => (step_moves hinv hs).truthful hinv⟩

/-- After the first player left, the second game is on. -/
theorem games_bracketed_again :
    ∃ r, run Room.step (started 2) replaced = some r ∧
      r.brackets = [true, false, true] ∧ r.brackets.IsChain (· ≠ ·) ∧
      ∀ e r', r.step e = some r' → r.Truthful e r' := by
  have hrun : (run Room.step (started 2) replaced).any (fun r =>
      decide (r.brackets = [true, false, true])) = true := by
    decide
  obtain ⟨r, hrun, hr⟩ := (Option.any_eq_true ..).mp hrun
  obtain ⟨hchain, _, htruth⟩ := games_bracketed (.of_run hrun)
  exact ⟨r, hrun, of_decide_eq_true hr, hchain, htruth⟩

end Room

end ConnectDisks.Net
