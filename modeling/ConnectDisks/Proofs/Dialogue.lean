import ConnectDisks.Net.Dialogue
import ConnectDisks.Proofs.Progress
import ConnectDisks.Proofs.Projection
import ConnectDisks.Proofs.Queue
import ConnectDisks.Proofs.Stream

/-!
# The server keeps to the order of its messages

Whatever the clients do, each of them is sent a word of `Stage.next`. No condition on
the runs is needed: a ready message that throws a game away during play changes what
the messages are about, but announces nothing.

As in `Stream`, the signals of the lobby are what everybody hears of it. `phase` is the
machine of these signals that remembers only whether a game is on; the methods of the
lobby keep to it (`Speaks`), and a connection that was added hears its part of a word of
`phase` as a word of `Stage.next` (`next_seenBy`).
-/

namespace ConnectDisks.Net

open ConnectDisks.Game Lib

/-- What a lobby may signal, by whether a game is on. -/
def phase (maxPlayers : UInt8) : Bool → Emission → Option Bool
  | false, .joined _ => some false
  | false, .tookTurn _ _ .error => some false
  | false, .gameStarted game _ =>
      if game.state.numPlayers = maxPlayers ∧ game.getNumColumns = Board.minColumns ∧
          game.getNumRows = Board.minRows ∧ IsPlayer maxPlayers game.getCurrentPlayer then
        some true
      else none
  | true, .takeTurn _ => some true
  | true, .tookTurn playerId column result =>
      if result ≠ .error ∧ result ≠ .gameFinished ∧
          (result = .success → IsPlayer maxPlayers playerId ∧ IsColumn column) then
        some true
      else none
  | true, .gameEnded winner => if winner.toNat ≤ maxPlayers.toNat then some false else none
  | _, _ => none

theorem isAnswer_of_ne {result : TurnResult} (herr : result ≠ .error)
    (hfin : result ≠ .gameFinished) : IsAnswer (turnResultByte result) := by
  cases result <;> first | decide | contradiction

/-- A connection hears what is allowed as something that is allowed. -/
theorem next_seenBy {maxPlayers id : UInt8} {on on' : Bool} {e : Emission} {c : ConnId}
    (h : phase maxPlayers on e = some on') (hquiet : e ≠ .joined c) :
    run (Stage.next maxPlayers) (.at_ on id) (e.seenBy c id).toList = some (.at_ on' id) := by
  unfold phase at h
  split at h
  · next d =>
      cases h
      have hd : d ≠ c := fun hd => hquiet (congrArg _ hd)
      simp [Emission.seenBy, hd, run]
  · next playerId column =>
      cases h
      rw [Emission.seenBy]
      split
      · rw [Option.toList_some, run_singleton]
        rfl
      · simp [run]
  · next game slots =>
      split at h
      · next hgame =>
          cases h
          exact (run_singleton ..).trans (if_pos hgame)
      · cases h
  · next playerId =>
      cases h
      rw [Emission.seenBy]
      split
      · next hid => exact (run_singleton ..).trans (if_pos ⟨hid, rfl⟩)
      · rfl
  · next playerId column result =>
      split at h
      · next hcond =>
          cases h
          obtain ⟨herr, hfin, hsucc⟩ := hcond
          rw [Emission.seenBy]
          split
          · refine (run_singleton ..).trans (if_pos ⟨isAnswer_of_ne herr hfin, fun heq => ?_⟩)
            exact (hsucc (turnResultByte_inj.mp heq)).2
          · next hid =>
              split
              · next hr =>
                  exact (run_singleton ..).trans
                    (if_pos ⟨(hsucc hr).1, hid, (hsucc hr).2⟩)
              · rfl
      · cases h
  · next winner =>
      split at h
      · next hle =>
          cases h
          exact (run_singleton ..).trans (if_pos hle)
      · cases h
  · cases h

theorem next_hears {maxPlayers id : UInt8} {on on' : Bool} {es : List Emission} {c : ConnId}
    (h : run (phase maxPlayers) on es = some on') (hquiet : .joined c ∉ es) :
    run (Stage.next maxPlayers) (.at_ on id) (es.filterMap (·.seenBy c id)) =
      some (.at_ on' id) := by
  induction es generalizing on with
  | nil =>
      injection h with h
      exact h ▸ rfl
  | cons e es ih =>
      obtain ⟨mid, hmid, hrest⟩ := Option.bind_eq_some_iff.mp h
      have hhead : run (Stage.next maxPlayers) (.at_ on id) (e.seenBy c id).toList =
          some (.at_ mid id) :=
        next_seenBy hmid fun he => hquiet (he ▸ List.mem_cons_self)
      have htail := ih hrest fun hin => hquiet (List.mem_cons_of_mem e hin)
      have hview : (e :: es).filterMap (·.seenBy c id) =
          (e.seenBy c id).toList ++ es.filterMap (·.seenBy c id) := by
        cases hv : e.seenBy c id <;> simp [hv]
      rw [hview, run_append, hhead]
      exact htail

namespace Room

/-- The game of the lobby is on the default board. -/
def Regular (l : GameLobby) : Prop :=
  ∀ game, l.game = some game →
    game.getNumColumns = Board.minColumns ∧ game.getNumRows = Board.minRows

/-- The methods that got from `r` to `r'` emitted `es`, and were allowed to. -/
structure Speaks (r r' : Room) (es : List Emission) : Prop where
  tells : r.Tells r' es
  run : Lib.run (phase r.lobby.maxPlayers) r.lobby.isPlayingGame es = some r'.lobby.isPlayingGame
  regular : Regular r'.lobby

theorem ValidGame.isPlayer (game : ValidGame) {n : UInt8} (h : game.state.numPlayers = n) :
    IsPlayer n game.getCurrentPlayer :=
  ⟨game.reachable.wf.current_pos, h ▸ game.reachable.wf.current_le⟩

theorem standard_allowed {n : UInt8} (htwo : 2 ≤ n.toNat) (first : UInt8)
    (slots : List (Option Bool)) :
    phase n false (.gameStarted (.standard n first) slots) = some true := by
  have hn := ValidGame.standard_numPlayers htwo first
  exact if_pos ⟨hn, rfl, rfl, ValidGame.isPlayer _ hn⟩

theorem onReady_speaks {r : Room} (h : r.Inv) (hreg : Regular r.lobby)
    (htwo : 2 ≤ r.lobby.maxPlayers.toNat) (c : ConnId) (first : UInt8) :
    ∃ es, r.Speaks (r.onReady c first) es := by
  have hstandard : ∀ l : GameLobby, l.game = some (.standard r.lobby.maxPlayers first) →
      Regular l := by
    intro l hl game hgame
    obtain rfl := Option.some.inj (hl.symm.trans hgame)
    exact ⟨rfl, rfl⟩
  rcases onReady_cases h.seats.isOpen c first with
    ⟨_, heq⟩ | ⟨i, _, _, heq⟩ | ⟨i, _, _, _, _, heq⟩ | ⟨i, _, _, hfull, hplay, heq⟩ <;> rw [heq]
  · exact ⟨[], .of_lobby rfl rfl rfl rfl, rfl, hreg⟩
  · exact ⟨[], r.counted_tells, rfl, hreg⟩
  · exact ⟨[], r.counted_tells.trans (withGame_tells _ _), rfl, hstandard _ rfl⟩
  · have hseats : r.counted.Seats := h.seats.withLobby rfl
    have hn : r.counted.lobby.numPlayers =
        (ValidGame.standard r.lobby.maxPlayers first).state.numPlayers := by
      rw [ValidGame.standard_numPlayers htwo first]
      exact beq_iff_eq.mp hfull
    obtain ⟨slots, htells⟩ := opened_tells hseats hn
    refine ⟨_, r.counted_tells.trans htells, ?_, hstandard _ rfl⟩
    show Lib.run _ r.lobby.isPlayingGame _ = some true
    simp only [hplay, List.nil_append, Lib.run, standard_allowed htwo first]
    rfl

theorem takeTurn_regular {game game' : ValidGame} {id column : UInt8} {result : TurnResult}
    (h : game.takeTurn id column = (game', result)) :
    game'.getNumColumns = game.getNumColumns ∧ game'.getNumRows = game.getNumRows := by
  have heq := game.takeTurn_eq id column
  rw [h] at heq
  exact FourAcross.takeTurn_dimensions game.reachable.wf heq

theorem not_gameFinished {game : ValidGame} (h : game.hasWinner = false) (player column : UInt8) :
    (game.takeTurn player column).2 ≠ .gameFinished := by
  intro hfin
  rcases game.takeTurn_cases player column with ⟨_, _, _, _, hiff, _⟩ | ⟨hsucc, _⟩
  · exact absurd ((hiff.mp hfin).symm.trans h) (by decide)
  · cases hsucc.symm.trans hfin

theorem success_allowed {game game' : ValidGame} {n id column : UInt8}
    (hn : game.state.numPlayers = n) (hcols : game.getNumColumns = Board.minColumns)
    (h : game.takeTurn id column = (game', .success)) :
    phase n true (.tookTurn id column .success) = some true := by
  have hacc := ValidGame.accepts_of_success h
  have hplayer := ValidGame.isPlayer game hn
  rw [show game.getCurrentPlayer = id from hacc.current] at hplayer
  have hcolumn : IsColumn column := by
    rw [IsColumn, ← hcols]
    exact hacc.inRange
  exact if_pos ⟨by simp, by simp, fun _ => ⟨hplayer, hcolumn⟩⟩

theorem outcome_allowed {game : ValidGame} {n : UInt8}
    (h : game.hasWinner = true → game.getWinner.toNat ≤ n.toNat) :
    phase n true (.gameEnded (outcome game)) = some false := by
  refine if_pos ?_
  rw [outcome]
  split
  · next hwin => exact h hwin
  · exact Nat.zero_le _

theorem onTakeTurn_speaks {r : Room} (h : r.Inv) (hreg : Regular r.lobby)
    (htwo : 2 ≤ r.lobby.maxPlayers.toNat) (c : ConnId) (column : UInt8) :
    ∃ es, r.Speaks (r.onTakeTurn c column) es := by
  rcases onTakeTurn_cases h.playing c column with
    ⟨hplay, heq⟩ | ⟨game, hgame, _, hsucc, herr, heq⟩ |
      ⟨game, game', hgame, hturn, _, _, heq⟩ | ⟨game, game', hgame, hturn, _, heq⟩ <;> rw [heq]
  · refine ⟨_, tookTurn_tells h.seats _ _ _, ?_, hreg⟩
    show Lib.run _ r.lobby.isPlayingGame _ = some r.lobby.isPlayingGame
    rw [hplay]
    rfl
  · refine ⟨_, tookTurn_tells h.seats _ _ _, ?_, hreg⟩
    show Lib.run _ r.lobby.isPlayingGame _ = some r.lobby.isPlayingGame
    have hfin := not_gameFinished (h.playing.running game hgame).1 (r.conns c).getId column
    rw [h.playing.isPlaying hgame]
    exact (run_singleton ..).trans (if_pos ⟨herr, hfin, fun hs => absurd hs hsucc⟩)
  · have hn := (h.playing.running game hgame).2.2 htwo
    obtain ⟨hcols, hrows⟩ := hreg game hgame
    obtain ⟨hcols', hrows'⟩ := takeTurn_regular hturn
    refine ⟨_, moved_tells h.seats _ _ _ _, ?_, fun g hg => ?_⟩
    · show Lib.run _ r.lobby.isPlayingGame _ = some r.lobby.isPlayingGame
      simp only [h.playing.isPlaying hgame, Lib.run, success_allowed hn hcols hturn]
      rfl
    · obtain rfl := Option.some.inj (show some game' = some g from hg)
      exact ⟨hcols'.trans hcols, hrows'.trans hrows⟩
  · have hn := (h.playing.running game hgame).2.2 htwo
    have hplayer := ValidGame.isPlayer game hn
    rw [show game.getCurrentPlayer = _ from (ValidGame.accepts_of_success hturn).current]
      at hplayer
    have hwin : game'.hasWinner = true → game'.getWinner.toNat ≤ r.lobby.maxPlayers.toNat := by
      intro hw
      rcases ValidGame.getWinner_of_success hturn with hid | hnone
      · rw [hid]
        exact hplayer.2
      · exact absurd hnone ((ValidGame.hasWinner_iff game').mp hw)
    refine ⟨_, finished_tells h.seats _ _ _ _, ?_, fun g hg => by cases hg⟩
    show Lib.run _ r.lobby.isPlayingGame _ = some false
    simp only [h.playing.isPlaying hgame, Lib.run, success_allowed hn (hreg game hgame).1 hturn, Option.bind_some, outcome_allowed hwin]

/-- Every event, brought to one form: one connection changes on its own, methods emit
what they may, and perhaps a player is added. -/
theorem moves_speaks {r r' : Room} {e : RoomEvent} (h : r.Inv) (hreg : Regular r.lobby)
    (htwo : 2 ≤ r.lobby.maxPlayers.toNat) (hm : r.Moves e r') :
    ∃ c conn es mid refill, (r.conns c).Wanders conn ∧
      (r.modify c fun _ => conn).Speaks mid es ∧ mid.Inv ∧ (∀ d ∈ refill, mid.Joinable d) ∧
      r' = mid.onLobbyAvailable refill := by
  have hsilent : ∀ r₁ : Room, Regular r₁.lobby → r₁.Speaks r₁ [] := fun r₁ hr₁ =>
    ⟨.of_lobby rfl rfl rfl rfl, rfl, hr₁⟩
  have hnobody : ∀ r₁ : Room, ∀ d ∈ (none : Option ConnId), r₁.Joinable d :=
    fun _ _ hd => by cases hd
  cases hm with
  | @idle e c conn hi _ _ =>
      exact ⟨c, conn, [], _, none, hi.wanders, hsilent _ hreg, h.modify hi.keepsSeat,
        hnobody _, rfl⟩
  | @outside e c conn _ hw _ _ =>
      exact ⟨c, conn, [], _, none, hw, hsilent _ hreg, h.modify hw.seat, hnobody _, rfl⟩
  | @join c hjoin =>
      have hsame : (r.modify c fun _ => r.conns c) = r := by
        rw [modify, Function.update_eq_self]
      refine ⟨c, r.conns c, [], r, some c, (Connection.Idles.refl _).wanders, ?_, h,
        fun d hd => Option.some.inj hd ▸ hjoin, rfl⟩
      rw [hsame]
      exact hsilent r hreg
  | @ready c m first refill conn _ hi _ _ =>
      have hw := ready_wanders hi
      have hinv := h.modify hw.seat
      obtain ⟨es, hspeaks⟩ := onReady_speaks hinv hreg htwo c first
      exact ⟨c, conn.readied, es, _, none, hw, hspeaks, hinv.onReady c first, hnobody _, rfl⟩
  | @turn c m first refill conn _ hi _ _ _ =>
      have hinv := h.modify hi.keepsSeat
      obtain ⟨es, hspeaks⟩ := onTakeTurn_speaks hinv hreg htwo c (m.get 1)
      exact ⟨c, conn, es, _, none, hi.wanders, hspeaks, hinv.onTakeTurn c _, hnobody _, rfl⟩
  | @drop e c conn i refill hc _ hi hjoin _ _ =>
      have hw := dropped_wanders hi
      have hinv := h.modify hw.seat
      have hdead : ((r.modify c fun _ => conn.dropped).conns c).isAlive = false := by
        rw [modify_conns_self]
        rfl
      have hseats : ((r.modify c fun _ => conn.dropped).vacated c i).Seats :=
        hinv.seats.vacated hc hdead
      obtain ⟨es, hspeaks⟩ : ∃ es, (r.modify c fun _ => conn.dropped).Speaks
          ((r.modify c fun _ => conn.dropped).vacated c i).ended es := by
        rw [ended]
        split
        · next hnone =>
            refine ⟨[], .of_lobby rfl rfl rfl rfl, rfl, fun g hg => ?_⟩
            cases hnone.symm.trans hg
        · next game hgame =>
            have hvacated : (r.modify c fun _ => conn.dropped).Tells
                ((r.modify c fun _ => conn.dropped).vacated c i) [] :=
              .of_lobby rfl rfl rfl rfl
            refine ⟨_, hvacated.trans (gameOver_tells hseats _), ?_, fun g hg => by cases hg⟩
            have hgame' : r.lobby.game = some game := hgame
            have hnot := (h.playing.running game hgame').1
            show Lib.run _ r.lobby.isPlayingGame _ = some false
            rw [h.playing.isPlaying hgame', List.nil_append, run_singleton]
            exact outcome_allowed fun hw => absurd (hnot.symm.trans hw) (by decide)
      exact ⟨c, conn.dropped, es, _, refill, hw, hspeaks, hinv.left hc hdead,
        fun d hd => (hjoin d hd).left h.seats hc, rfl⟩

/-! ## The words that are sent -/

structure Dialogue (r : Room) : Prop where
  regular : Regular r.lobby
  word : ∀ c, ∃ st, Lib.run (Stage.next r.lobby.maxPlayers) .waiting (r.conns c).sent = some st ∧
    ((r.conns c).isAlive = true → st = r.stage c)

/-- Pings leave the client where it is, and so do places while it waits. -/
theorem run_housekeeping {maxPlayers : UInt8} {st : Stage} {ms : List Message}
    (h : ∀ m ∈ ms, m.type = .ping ∨ (st = .waiting ∧ m.type = .inQueue)) :
    Lib.run (Stage.next maxPlayers) st ms = some st := by
  induction ms with
  | nil => rfl
  | cons m ms ih =>
      have hm : st.next maxPlayers m = some st := by
        rcases h m List.mem_cons_self with hm | ⟨rfl, hm⟩
        · cases st <;> simp [Stage.next, hm]
        · simp [Stage.next, hm]
      rw [Lib.run, hm]
      exact ih fun m' hm' => h m' (List.mem_cons_of_mem m hm')

theorem Dialogue.modify {r : Room} (h : r.Dialogue) {c : ConnId} {conn : Connection}
    (hw : (r.conns c).Wanders conn)
    (hplaces : c ∈ r.lobby.handlers ∨ (r.conns c).isAlive = false →
      conn.places = (r.conns c).places) :
    (r.modify c fun _ => conn).Dialogue := by
  refine ⟨h.regular, fun d => ?_⟩
  by_cases hd : d = c
  · subst hd
    obtain ⟨st, hrun, hst⟩ := h.word d
    obtain ⟨ms, hsent, hms⟩ := hw.sent
    have hpings : d ∈ r.lobby.handlers ∨ (r.conns d).isAlive = false →
        ∀ m ∈ ms, m.type = .ping := by
      intro hcase m hm
      have hsame := hplaces hcase
      rw [Connection.places, Connection.places, hsent, List.filterMap_append,
        List.append_right_eq_self, List.filterMap_eq_nil_iff] at hsame
      refine (hms m hm).resolve_right fun htype => ?_
      have := hsame m hm
      rw [Message.place?, if_pos htype] at this
      cases this
    have hkept : Lib.run (Stage.next r.lobby.maxPlayers) st ms = some st := by
      refine run_housekeeping fun m hm => ?_
      by_cases hcase : d ∈ r.lobby.handlers ∨ (r.conns d).isAlive = false
      · exact .inl (hpings hcase m hm)
      · obtain ⟨hout, halive⟩ := not_or.mp hcase
        have hwait : st = .waiting := by
          rw [hst (by simpa using halive), stage, if_neg hout]
        exact (hms m hm).imp_right fun htype => ⟨hwait, htype⟩
    refine ⟨st, ?_, fun halive => ?_⟩
    · rw [modify_conns_self, hsent, modify_lobby, run_append, hrun]
      exact hkept
    · rw [modify_conns_self] at halive
      rw [hst (hw.seat.isAlive halive), stage, stage, modify_conns_self, hw.seat.id]
      rfl
  · have hstage : (r.modify c fun _ => conn).stage d = r.stage d := by
      rw [stage, stage, modify_conns_of_ne r hd]
      rfl
    rw [modify_conns_of_ne r hd, hstage]
    exact h.word d

theorem Dialogue.speak {r r' : Room} {es : List Emission} (h : r.Dialogue)
    (hs : r.Speaks r' es) : r'.Dialogue := by
  have ht := hs.tells
  have hmax : r'.lobby.maxPlayers = r.lobby.maxPlayers := congrArg Prod.fst ht.within.fixed
  refine ⟨hs.regular, fun c => ?_⟩
  obtain ⟨st, hrun, hst⟩ := h.word c
  have hseat := Connection.KeepsSeat.of_seat (ht.within.seat c)
  rw [hmax]
  by_cases hc : c ∈ r.lobby.handlers
  · have hstage : r'.stage c = .at_ r'.lobby.isPlayingGame (r.conns c).id := by
      rw [stage, if_pos (ht.within.handlers ▸ hc), hseat.id]
    rw [ht.heard c hc, run_append, hrun]
    cases halive : (r.conns c).isAlive with
    | true =>
        refine ⟨.at_ r'.lobby.isPlayingGame (r.conns c).id, ?_, fun _ => hstage.symm⟩
        have hat : st = .at_ r.lobby.isPlayingGame (r.conns c).id := by
          rw [hst halive, stage, if_pos hc]
        rw [Connection.hears, if_pos halive, hat]
        exact next_hears hs.run (ht.quiet c)
    | false =>
        refine ⟨st, ?_, fun ha => ?_⟩
        · rw [Connection.hears, if_neg (by simp [halive])]
          rfl
        · exact absurd ((hseat.isAlive ha).symm.trans halive) (by decide)
  · have hstage : r'.stage c = r.stage c := by
      rw [stage, stage, if_neg hc, if_neg (by rwa [ht.within.handlers])]
    rw [ht.within.others c hc, hstage]
    exact ⟨st, hrun, hst⟩

theorem Dialogue.addPlayer {r : Room} (h : r.Dialogue) (hinv : r.Inv) {c : ConnId}
    (hjoin : r.Joinable c) : (r.addPlayer c).Dialogue := by
  rcases addPlayer_cases hinv.seats c with ⟨_, heq⟩ | ⟨hcan, i, _, hlt, heq⟩ <;> rw [heq]
  · exact h
  · have hout : c ∉ r.lobby.handlers := fun hc => hinv.seats.not_joinable hc hjoin
    obtain ⟨_, hplay, _⟩ := canAddPlayers_iff.mp hcan
    refine ⟨h.regular, fun d => ?_⟩
    obtain ⟨st, hrun, hst⟩ := h.word d
    show ∃ st', Lib.run (Stage.next r.lobby.maxPlayers) _ _ = some st' ∧ _
    by_cases hd : d = c
    · subst hd
      have hself := admitted_conns_self hjoin i
      have hstage : (r.admitted d i).stage d = .seated (UInt8.ofNat i + 1) := by
        have hin : d ∈ (r.admitted d i).lobby.handlers :=
          List.mem_append_right _ (List.mem_singleton_self d)
        rw [stage, if_pos hin, hself, Stage.at_,
          show (r.admitted d i).lobby.isPlayingGame = false from hplay]
        rfl
      have hplayer : IsPlayer r.lobby.maxPlayers (UInt8.ofNat i + 1) := by
        have hle := hinv.seats.maxPlayers_le
        have hlen := hinv.seats.length
        have hid : (UInt8.ofNat i + 1).toNat = i + 1 := by
          rw [UInt8.toNat_add, UInt8.toNat_ofNat_of_lt' (show i < 256 by omega)]
          exact Nat.mod_eq_of_lt (show i + 1 < 256 by omega)
        rw [IsPlayer, hid]
        omega
      rw [hstage, hself]
      cases halive : (r.conns d).isAlive with
      | true =>
          refine ⟨.seated (UInt8.ofNat i + 1), ?_, fun _ => rfl⟩
          have hwait : st = .waiting := by rw [hst halive, stage, if_neg hout]
          rw [if_pos rfl, run_append, hrun, hwait]
          exact (run_singleton ..).trans (if_pos hplayer)
      | false =>
          refine ⟨st, hrun, fun ha => ?_⟩
          exact absurd (ha.symm.trans halive) (by decide)
    · have hstage : (r.admitted c i).stage d = r.stage d := by
        have hiff : d ∈ (r.admitted c i).lobby.handlers ↔ d ∈ r.lobby.handlers := by
          show d ∈ r.lobby.handlers ++ [c] ↔ _
          simp [hd]
        rw [stage, stage, admitted_conns_of_ne r hd]
        exact if_congr hiff rfl rfl
      rw [admitted_conns_of_ne r hd, hstage]
      exact ⟨st, hrun, hst⟩

/-! ## Places are told to those who wait -/

end Room

theorem LobbyKeeps.roomComplete {γ : Type*} {view : Connection → γ} (h : LobbyKeeps view)
    {r : Room} (hinv : r.Seats) {c : ConnId} {out : Connection × Option Signal}
    (hseat : (r.conns c).KeepsSeat out.1) (first : UInt8) (refill : Option ConnId)
    (d : ConnId) :
    view ((r.complete c out first refill).conns d) =
      view ((r.modify c fun _ => out.1).conns d) := by
  obtain ⟨conn, signal⟩ := out
  by_cases hc : c ∈ r.lobby.handlers
  · cases signal with
    | none => rfl
    | some signal =>
        rw [Room.complete_of_mem hinv hc hseat]
        split
        · rw [h.refilled, h.handle]
        · exact h.handle _ c first signal d
  · rw [Room.complete_of_notMem hinv hc hseat]

namespace Room

theorem modify_places {r : Room} {c : ConnId} {conn : Connection}
    (h : conn.places = (r.conns c).places) (d : ConnId) :
    ((r.modify c fun _ => conn).conns d).places = (r.conns d).places := by
  by_cases hd : d = c
  · rw [hd, modify_conns_self, h]
  · rw [modify_conns_of_ne r hd]

theorem step_places {r r' : Room} {e : RoomEvent} (h : r.Inv) (hs : r.step e = some r')
    {c : ConnId} (hc : c ∈ r.lobby.handlers ∨ (r.conns c).isAlive = false) :
    (r'.conns c).places = (r.conns c).places := by
  cases e with
  | accept d =>
      obtain ⟨_, heq⟩ := Option.ite_none_right_eq_some.mp hs
      rw [← Option.some.inj heq]
      exact modify_places (Connection.onAccept_places _) c
  | notify d position =>
      obtain ⟨hjoin, heq⟩ := Option.ite_none_right_eq_some.mp hs
      rw [← Option.some.inj heq]
      by_cases hd : c = d
      · subst hd
        have hdead := hc.resolve_left fun hin => h.seats.not_joinable hin hjoin
        rw [modify_conns_self, Connection.notifyQueuePosition, Connection.sendMessage, if_pos]
        simpa [Connection.isAlive] using hdead
      · rw [modify_conns_of_ne r hd]
  | join d =>
      obtain ⟨_, heq⟩ := Option.ite_none_right_eq_some.mp hs
      rw [← Option.some.inj heq]
      exact lobbyKeeps_places.addPlayer r d c
  | read d result first refill =>
      obtain ⟨_, heq⟩ := Option.ite_none_right_eq_some.mp hs
      rw [← Option.some.inj heq]
      have hout := (Connection.onReadSocket_outcome _ result).of_idles
        (Connection.reads_idles (r.conns d) ((r.conns d).reads - 1))
      exact (lobbyKeeps_places.roomComplete h.seats hout.keepsSeat first refill c).trans
        (modify_places (Connection.onReadSocket_places
          { r.conns d with reads := (r.conns d).reads - 1 } result) c)
  | tick d error refill =>
      obtain ⟨_, heq⟩ := Option.ite_none_right_eq_some.mp hs
      rw [← Option.some.inj heq]
      have hout := (Connection.pingOnTimer_outcome _ error).of_idles
        (Connection.waits_idles (r.conns d) ((r.conns d).waits - 1))
      exact (lobbyKeeps_places.roomComplete h.seats hout.keepsSeat 0 refill c).trans
        (modify_places (Connection.pingOnTimer_places
          { r.conns d with waits := (r.conns d).waits - 1 } error) c)

theorem Tells.places {r r' : Room} {es : List Emission} (ht : r.Tells r' es) (c : ConnId) :
    (r'.conns c).places = (r.conns c).places := by
  by_cases hc : c ∈ r.lobby.handlers
  · have hnone : ((r.conns c).hears c es).filterMap Message.place? = [] := by
      refine List.filterMap_eq_nil_iff.mpr fun m hm => ?_
      rw [Connection.hears] at hm
      split at hm
      · obtain ⟨e, _, he⟩ := List.mem_filterMap.mp hm
        exact Message.place?_of_ne fun htype => seenBy_not_housekeeping he (.inr htype)
      · cases hm
    rw [Connection.places, ht.heard c hc, List.filterMap_append, hnone, List.append_nil,
      Connection.places]
  · rw [ht.within.others c hc]

theorem Dialogue.step {r r' : Room} {e : RoomEvent} (h : r.Dialogue) (hinv : r.Inv)
    (htwo : 2 ≤ r.lobby.maxPlayers.toNat) (hs : r.step e = some r') : r'.Dialogue := by
  obtain ⟨c, conn, es, mid, refill, hw, hspeaks, hmid, hjoin, rfl⟩ :=
    moves_speaks hinv h.regular htwo (step_moves hinv hs)
  have hplaces : c ∈ r.lobby.handlers ∨ (r.conns c).isAlive = false →
      conn.places = (r.conns c).places := by
    intro hc
    calc conn.places
        = ((r.modify c fun _ => conn).conns c).places := by rw [modify_conns_self]
      _ = (mid.conns c).places := (hspeaks.tells.places c).symm
      _ = ((mid.onLobbyAvailable refill).conns c).places :=
          (lobbyKeeps_places.refilled mid refill c).symm
      _ = (r.conns c).places := step_places hinv hs hc
  have hspoken := (h.modify hw hplaces).speak hspeaks
  cases refill with
  | none => exact hspoken
  | some d => exact hspoken.addPlayer hmid (hjoin d rfl)

theorem started_dialogue (maxPlayers : UInt8) : (started maxPlayers).Dialogue :=
  ⟨fun _ hgame => (nomatch hgame), fun _ => ⟨.waiting, rfl, fun _ => rfl⟩⟩

/-- A lobby keeps to the order of the messages in every run. -/
theorem reachable_dialogue {maxPlayers : UInt8} (htwo : 2 ≤ maxPlayers.toNat) {r : Room}
    (h : Reachable step (started maxPlayers) r) : r.Dialogue := by
  have hall : r.Inv ∧ r.lobby.maxPlayers = maxPlayers ∧ r.Dialogue := by
    refine h.invariant (I := fun r => r.Inv ∧ r.lobby.maxPlayers = maxPlayers ∧ r.Dialogue)
      ⟨started_inv maxPlayers, rfl, started_dialogue maxPlayers⟩ ?_
    rintro s e s' ⟨hinv, hmax, hd⟩ - hs
    refine ⟨hinv.step hs, ?_, hd.step hinv (hmax ▸ htwo) hs⟩
    exact (congrArg Prod.fst (moves_fixed hinv (step_moves hinv hs))).trans hmax
  exact hall.2.2

/-! ## Nobody is forgotten -/

theorem addPlayer_handlers {r : Room} (h : r.Seats) (c : ConnId) :
    r.lobby.handlers ⊆ (r.addPlayer c).lobby.handlers := by
  rcases addPlayer_cases h c with ⟨_, heq⟩ | ⟨_, i, _, _, heq⟩ <;> rw [heq]
  · exact List.Subset.refl _
  · exact List.subset_append_left ..

/-- What was sent stays sent, and whoever was added stays connected to the signals. -/
theorem step_grows {r r' : Room} {e : RoomEvent} (h : r.Inv) (hreg : Regular r.lobby)
    (htwo : 2 ≤ r.lobby.maxPlayers.toNat) (hs : r.step e = some r') :
    (∀ c, (r.conns c).sent <+: (r'.conns c).sent) ∧
      r.lobby.handlers ⊆ r'.lobby.handlers := by
  obtain ⟨c, conn, es, mid, refill, hw, hspeaks, hmid, hjoin, rfl⟩ :=
    moves_speaks h hreg htwo (step_moves h hs)
  have hsent := fun d => (modify_sent hw d).trans (hspeaks.tells.sent d)
  have hhandlers : r.lobby.handlers ⊆ mid.lobby.handlers := by
    rw [hspeaks.tells.within.handlers]
    exact List.Subset.refl _
  cases refill with
  | none => exact ⟨hsent, hhandlers⟩
  | some d =>
      exact ⟨fun d' => (hsent d').trans (addPlayer_sent hmid.seats (hjoin d rfl) d'),
        List.Subset.trans hhandlers (addPlayer_handlers hmid.seats d)⟩

theorem run_grows {maxPlayers : UInt8} (htwo : 2 ≤ maxPlayers.toNat) {r r' : Room}
    (h : Reachable step (started maxPlayers) r) {es : List RoomEvent}
    (hrun : Lib.run step r es = some r') :
    (∀ c, (r.conns c).sent <+: (r'.conns c).sent) ∧
      r.lobby.handlers ⊆ r'.lobby.handlers := by
  induction es generalizing r with
  | nil =>
      injection hrun with hrun
      subst hrun
      exact ⟨fun _ => List.prefix_rfl, List.Subset.refl _⟩
  | cons e es ih =>
      obtain ⟨mid, hmid, hrest⟩ := Option.bind_eq_some_iff.mp hrun
      have hgrows := step_grows (reachable_inv h) (reachable_dialogue htwo h).regular
        (reachable_maxPlayers h ▸ htwo) hmid
      have hrest' := ih (.step h trivial hmid) hrest
      exact ⟨fun c => (hgrows.1 c).trans (hrest'.1 c),
        List.Subset.trans hgrows.2 hrest'.2⟩

end Room

end ConnectDisks.Net
