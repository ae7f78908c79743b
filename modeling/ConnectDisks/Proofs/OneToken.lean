import ConnectDisks.Proofs.TokenStep

/-!
# One player has the turn

The run lemma of the token. What the players do are turns of their loops, what the
lobby does keeps the loops in order, and the lobby acts on nothing else, as long as
it acts on no message of a dropped connection (`NoLateMessage`). So in every run in
which it does not, the loops are in order in every state (`Kept.reaches`), and
while a game is on there is one token (`one_token`).

Without the condition there may be two (`two_tokens`).
-/

namespace ConnectDisks.Net

open ConnectDisks.Game Lib

namespace Table

/-- No message of a dropped connection is one that the lobby acts on: a ready message
that finds somebody with its id, or a turn during a game. -/
def NoLateMessage (t : Table) : TableEvent → Prop
  | .receive c _ => (t.room.conns c).isAlive = false → ∀ m ∈ (t.players c).outbox.head?,
      (m.type = .ready → t.room.findPlayer (t.room.conns c).id = none) ∧
      (m.type = .takeTurn → t.room.lobby.isPlayingGame = false)
  | _ => True

instance (t : Table) (e : TableEvent) : Decidable (t.NoLateMessage e) := by
  cases e <;> unfold NoLateMessage <;> infer_instance

/-- What holds in every state of every run without late messages. -/
structure Kept (maxPlayers : UInt8) (t : Table) : Prop where
  network : Reaches Network.step (Net.When Room.ReadyBetweenGames)
    (Network.started maxPlayers) t.network
  agreed : t.room.Agreed
  ordered : t.Ordered
  answers : Answers t.room

namespace Kept

variable {maxPlayers : UInt8} {t t' : Table}

theorem inv (h : Kept maxPlayers t) (htwo : 2 ≤ maxPlayers.toNat) : t.room.Inv :=
  Room.reachable_inv (Network.replayed htwo h.network).sender.reachable

theorem maxPlayers_eq (h : Kept maxPlayers t) (htwo : 2 ≤ maxPlayers.toNat) :
    t.room.lobby.maxPlayers = maxPlayers :=
  Room.reachable_maxPlayers (Network.replayed htwo h.network).sender.reachable

/-- The lobby heeds every message of a live player that matters to a loop, and no
message of a stranger matters. -/
theorem heeds (h : Kept maxPlayers t) {c : ConnId} {m : Message} {rest : List Message}
    (hbox : (t.players c).outbox = m :: rest) (hup : m.up ≠ .plain) :
    c ∈ t.room.lobby.handlers ∧
      ((t.room.conns c).isAlive = true → (t.room.conns c).Heeds m) := by
  have hm : m ∈ (t.players c).outbox := hbox ▸ List.mem_cons_self
  have hin : c ∈ t.room.lobby.handlers := by
    by_contra hout
    exact hup ((h.ordered.stranger c hout).2.plain.2.2 _ (List.mem_map_of_mem hm))
  refine ⟨hin, fun halive => ?_⟩
  obtain ⟨hid, hcolumn⟩ := h.ordered.signed c hin halive m hm hup
  refine ⟨hid, ?_⟩
  by_cases hready : m.type = .ready
  · exact .inl hready
  · have hturn : m.type = .takeTurn := by
      by_contra hturn
      exact hup (by rw [Message.up, if_neg hready, if_neg hturn])
    exact .inr ⟨hturn, hcolumn hturn⟩

theorem counts_waits (h : Kept maxPlayers t) (htwo : 2 ≤ maxPlayers.toNat) {c d : ConnId}
    {first : UInt8} {m : Message} {rest : List Message}
    (hbox : (t.players c).outbox = m :: rest) (hok : t.NoLateMessage (.receive c first))
    (hd : d ∈ t.room.counts (.read c (.message m) first none)) :
    t.room.lobby.game = none ∧ (t.room.conns d).isReady = false ∧ ∃ i, t.room.Seated i d := by
  have hinv := h.inv htwo
  simp only [Room.counts, RoomEvent.message?, Option.mem_def] at hd
  split at hd
  · next hcond =>
      obtain ⟨htype, _, hhandlers, hfound⟩ := hcond
      obtain rfl := Option.some.inj hd
      have hlate := fun hdead => (hok hdead m (by rw [hbox]; rfl)).1 htype
      have hup : (t.loop c).up = .ready :: rest.map Message.up := by
        rw [Ordered.loop_up hbox, Message.up_eq_ready.mpr htype]
      obtain ⟨hgame, _, hnot, _, hseat⟩ := h.ordered.waits hinv.seats hup
        (hinv.seats.attached c hhandlers) hlate (Option.isSome_iff_ne_none.mp hfound)
      exact ⟨hgame, hnot, hseat⟩
  · cases hd

theorem between (h : Kept maxPlayers t) (htwo : 2 ≤ maxPlayers.toNat) {c : ConnId}
    {first : UInt8} {m : Message} {rest : List Message}
    (hbox : (t.players c).outbox = m :: rest) (hok : t.NoLateMessage (.receive c first)) :
    t.room.ReadyBetweenGames (.read c (.message m) first none) := by
  intro d hd
  rw [(h.inv htwo).playing.playing, (h.counts_waits htwo hbox hok hd).1]
  rfl

theorem countsNew (h : Kept maxPlayers t) (htwo : 2 ≤ maxPlayers.toNat) {c : ConnId}
    {first : UInt8} {m : Message} {rest : List Message}
    (hbox : (t.players c).outbox = m :: rest) (hok : t.NoLateMessage (.receive c first)) :
    t.room.CountsNew (.read c (.message m) first none) := by
  intro d hd _
  obtain ⟨_, hnot, i, hi⟩ := h.counts_waits htwo hbox hok hd
  exact ⟨Room.mem_players_iff.mpr ⟨i, hi⟩, hnot⟩

theorem fresh (h : Kept maxPlayers t) (htwo : 2 ≤ maxPlayers.toNat) {c : ConnId}
    {first : UInt8} {m : Message} {rest : List Message}
    (hbox : (t.players c).outbox = m :: rest) (hok : t.NoLateMessage (.receive c first)) :
    t.room.CountsFresh (.read c (.message m) first none) :=
  (h.countsNew htwo hbox hok).fresh (h.inv htwo).seats h.agreed

theorem receive (h : Kept maxPlayers t) (htwo : 2 ≤ maxPlayers.toNat) {c : ConnId}
    {first : UInt8} {m : Message} {rest : List Message} {r : Room}
    (hbox : (t.players c).outbox = m :: rest) (hok : t.NoLateMessage (.receive c first))
    (hm : t.room.Moves (.read c (.message m) first none) r) :
    ({ t with room := r }.modify c fun p => { p with outbox := rest }).Ordered ∧
      Answers r := by
  have hinv := h.inv htwo
  have hhead : m ∈ (t.players c).outbox.head? := by rw [hbox]; rfl
  have hrest : ∀ m' ∈ rest, m' ∈ (t.players c).outbox := fun m' hm' =>
    hbox ▸ List.mem_cons_of_mem m hm'
  have hagreed := h.agreed.moves hinv (h.fresh htwo hbox hok) hm
  have hplain : m.up = .plain → Harmless (t.loop c) (rest.map Message.up) := fun hup =>
    .plain (by rw [Ordered.loop_up hbox, hup])
  cases hm with
  | @idle _ d conn hi hown hunheeded =>
      obtain rfl := hown c m rfl
      refine ⟨h.ordered.modify hinv.seats hi.wanders hi.isReady (fun _ => hi.isAlive) rfl rfl
        (fun d hd => modify_players_of_ne _ hd _) (modify_players_self ..) hrest
        fun hlive => hplain ?_, h.answers⟩
      by_contra hup
      obtain ⟨hin, hheeds⟩ := h.heeds hbox hup
      exact hunheeded c m rfl hin (hheeds (hlive.resolve_right (not_not_intro hin)))
  | @outside _ d conn hout hw hown hready =>
      obtain rfl := hown c m rfl
      have hup : m.up = .plain := by
        by_contra hup
        exact hout (h.heeds hbox hup).1
      refine ⟨h.ordered.modify hinv.seats hw (hready.resolve_right ?_)
        (fun hin => absurd hin hout) rfl rfl (fun d hd => modify_players_of_ne _ hd _)
        (modify_players_self ..) hrest fun _ => hplain hup, h.answers⟩
      rintro ⟨m', hm', htype⟩
      cases hm'
      rw [Message.up_eq_ready.mpr htype] at hup
      cases hup
  | @ready _ _ _ _ conn hc hi htype hid =>
      refine ⟨h.ordered.ready hinv ?_ hbox hc hi htype
        (fun hdead => (hok hdead m hhead).1 htype) hagreed, ?_⟩
      · rw [h.maxPlayers_eq htwo]
        exact htwo
      · exact Answers.onReady (r := t.room.modify c fun _ => conn.readied) h.answers
          (hinv.modify (Room.ready_wanders hi).seat).seats c first
  | turn hc hi htype hid hcol =>
      exact h.ordered.turn hinv hbox hc hi htype (fun hdead => (hok hdead m hhead).2 htype)
        h.answers
  | drop _ _ _ _ hsilent _ => cases hsilent

/-- The client of a live player that was asked something knows its id. -/
theorem identified (h : Kept maxPlayers t) (htwo : 2 ≤ maxPlayers.toNat) {c : ConnId}
    (hc : c ∈ t.room.lobby.handlers) (halive : (t.room.conns c).isAlive = true)
    (hasked : 0 < (t.loop c).prompts ∨ 0 < (t.loop c).due ∨
      ∃ ds, (t.loop c).down = .token :: ds) :
    (t.players c).client.playerId = (t.room.conns c).id := by
  rcases (Network.known htwo h.network (c := c) hc halive).1 with heq | ⟨m, hm, htype⟩
  · exact heq
  · obtain ⟨i, hi⟩ := (h.inv htwo).seats.alive c hc halive
    have hin : .hello ∈ (t.loop c).down :=
      List.mem_map.mpr ⟨m, hm, Message.down_eq_hello.mpr htype⟩
    obtain ⟨hprompts, hdue, hdown⟩ := (h.ordered.seated i c hi).hello halive hin
    rcases hasked with hp | hd | ⟨ds, hds⟩
    · omega
    · omega
    · exact absurd hds (hdown ds)

theorem deliver (h : Kept maxPlayers t) (htwo : 2 ≤ maxPlayers.toNat) {c : ConnId}
    {m : Message} {p : Player} (hnext : (Network.sent t.room c)[t.delivered c]? = some m)
    (hhandled : (t.players c).receive m = some p) : (t.received c p).Ordered := by
  obtain ⟨hlt, hget⟩ := List.getElem?_eq_some_iff.mp hnext
  have hflight : t.inFlight c = m :: (Network.sent t.room c).drop (t.delivered c + 1) := by
    rw [inFlight, ← hget]
    exact List.drop_eq_getElem_cons hlt
  have hdown : (t.loop c).down = m.down ::
      ((Network.sent t.room c).drop (t.delivered c + 1)).map Message.down := by
    rw [loop, hflight]
    rfl
  have hid : (t.room.conns c).isAlive = true ∨ c ∉ t.room.lobby.handlers →
      m.type = .takeTurn →
        m.get 0 = (t.players c).client.playerId ∧ m.get 1 = requestTurn := by
    intro hlive htype
    have htoken : m.down = .token := Message.down_eq_token.mpr (.inl htype)
    have hc : c ∈ t.room.lobby.handlers := by
      by_contra hout
      have hplain := (h.ordered.stranger c hout).2.plain.1 m.down
        (hdown ▸ List.mem_cons_self)
      rw [htoken] at hplain
      cases hplain
    have halive := hlive.resolve_right (not_not_intro hc)
    obtain ⟨hdata, hrequest⟩ := (Network.known htwo h.network (c := c) hc halive).2 m
      (by rw [show t.network.inFlight Network.sent c = t.inFlight c from rfl, hflight]
          exact List.mem_cons_self) htype
    rw [h.identified htwo hc halive (.inr (.inr ⟨_, htoken ▸ hdown⟩))]
    exact ⟨hdata, hrequest⟩
  refine h.ordered.turns rfl ?_ (fun d hd => ⟨modify_players_of_ne _ hd _,
    Function.update_of_ne hd ..⟩) (fun hlive => ?_) (fun i _ hP hturn => hP.turns hturn) ?_
  · show Function.update t.delivered c (t.delivered c + 1) c ≤ _
    rw [Function.update_self]
    exact hlt
  · exact deliver_turns hnext hhandled fun _ => hid hlive
  · intro _ halive m' hm' hup
    obtain ⟨_, _, replies, hreplies, hplain⟩ := Player.receive_handle hhandled
      (hid (.inl halive)) [] []
    rw [received, modify_players_self, if_pos halive, hreplies] at hm'
    exact .inl ((List.mem_append.mp hm').resolve_right fun hin => hup (hplain m' hin))

theorem user (h : Kept maxPlayers t) (htwo : 2 ≤ maxPlayers.toNat) {c : ConnId} {p : Player}
    {m : Message} (halive : (t.room.conns c).isAlive = true)
    (hbox : p.outbox = (t.players c).outbox ++ [m])
    (hturns : (t.loop c).Turns ((t.modify c fun _ => p).loop c))
    (hasked : 0 < (t.loop c).prompts ∨ 0 < (t.loop c).due)
    (hsigned : m.get 0 = (t.players c).client.playerId ∧
      (m.type = .takeTurn → m.get 1 ≠ 255)) : (t.modify c fun _ => p).Ordered := by
  refine h.ordered.turns rfl (h.ordered.delivered c)
    (fun d hd => ⟨modify_players_of_ne _ hd _, rfl⟩) (fun _ => hturns)
    (fun i _ hP hturn => hP.turns hturn) ?_
  intro hc _ m' hm' _
  rw [modify_players_self, hbox] at hm'
  rcases List.mem_append.mp hm' with hold | hnew
  · exact .inl hold
  · rw [List.mem_singleton.mp hnew, ← h.identified htwo hc halive (hasked.imp id .inl)]
    exact .inr hsigned

/-- Every event of a run without late messages keeps the loops in order. -/
theorem step (h : Kept maxPlayers t) (htwo : 2 ≤ maxPlayers.toNat) {e : TableEvent}
    (hok : t.NoLateMessage e) (hm : t.Moves e t') : Kept maxPlayers t' := by
  have hinv := h.inv htwo
  have hbetween : ∀ e' ∈ t.roomEvent e, t.room.ReadyBetweenGames e' := by
    intro e' he'
    cases hm with
    | room hsilent _ =>
        obtain rfl := Option.some.inj he'
        intro c hc
        rw [Room.counts, hsilent] at hc
        cases hc
    | receive hbox _ =>
        rw [roomEvent, hbox] at he'
        obtain rfl := Option.some.inj he'
        exact h.between htwo hbox hok
    | deliver _ _ => cases he'
    | sendTurn _ _ _ => cases he'
    | toggleReady _ _ => cases he'
  have hnetwork : Reaches Network.step (Net.When Room.ReadyBetweenGames)
      (Network.started maxPlayers) t'.network := by
    rcases step_network hm hbetween with heq | ⟨e', hok', hs⟩
    · rw [heq]
      exact h.network
    · exact .step h.network hok' hs
  cases hm with
  | @room e r hsilent hs =>
      have hmoves := Room.step_moves hinv hs
      have hfresh : t.room.CountsFresh e := fun c hc => by
        rw [Room.counts, hsilent] at hc
        cases hc
      exact ⟨hnetwork, h.agreed.moves hinv hfresh hmoves, h.ordered.room hinv hsilent hmoves,
        h.answers.room hinv hsilent hmoves⟩
  | receive hbox hs =>
      have hmoves := Room.step_moves hinv hs
      obtain ⟨hordered, hanswers⟩ := h.receive htwo hbox hok hmoves
      exact ⟨hnetwork, h.agreed.moves hinv (h.fresh htwo hbox hok) hmoves, hordered, hanswers⟩
  | deliver hnext hhandled => exact ⟨hnetwork, h.agreed, h.deliver htwo hnext hhandled, h.answers⟩
  | @sendTurn c column halive hprompted hcolumn =>
      refine ⟨hnetwork, h.agreed, h.user htwo halive rfl ?_ (.inl hprompted)
        ⟨rfl, fun _ => hcolumn⟩, h.answers⟩
      rw [loop_modify, List.map_append]
      exact .answer hprompted
  | @toggleReady c halive hdue =>
      refine ⟨hnetwork, h.agreed, h.user htwo halive rfl ?_ (.inr hdue)
        ⟨rfl, fun htype => by cases htype⟩, h.answers⟩
      rw [loop_modify, List.map_append]
      exact .ready hdue

theorem started (maxPlayers : UInt8) : Kept maxPlayers (Table.started maxPlayers) := by
  refine ⟨.refl, Room.started_agreed maxPlayers, ⟨fun _ => Nat.zero_le _, fun i c hc => ?_,
    fun c _ => ⟨rfl, ?_⟩, fun c hc => by cases hc⟩, fun _ _ hin => by cases hin⟩
  · have hlt := List.getElem?_eq_some_iff.mp hc
    simp [Table.started, Room.started, GameLobby.new, GameLobby.start,
      GameLobby.startLobby] at hlt
  · exact ⟨List.not_mem_nil, List.not_mem_nil, rfl, List.not_mem_nil, rfl⟩

theorem reaches (htwo : 2 ≤ maxPlayers.toNat)
    (ht : Reaches Table.step NoLateMessage (Table.started maxPlayers) t) :
    Kept maxPlayers t :=
  ht.invariant (started maxPlayers) fun _ _ _ h hok hs => h.step htwo hok (step_moves hs)

theorem current (h : Kept maxPlayers t) (htwo : 2 ≤ maxPlayers.toNat) {game : ValidGame}
    (hgame : t.room.lobby.game = some game) :
    ∃ i c, t.room.Seated i c ∧ (t.room.conns c).id = game.getCurrentPlayer := by
  have hinv := h.inv htwo
  have hplay : t.room.lobby.isPlayingGame = true := hinv.playing.isPlaying hgame
  have hnum := (hinv.playing.running game hgame).2.2 (h.maxPlayers_eq htwo ▸ htwo)
  have hpos := game.reachable.wf.current_pos
  have hle := game.reachable.wf.current_le
  have hslot : game.getCurrentPlayer.toNat - 1 < t.room.lobby.players.length := by
    rw [hinv.seats.length, ← hnum]
    exact Nat.lt_of_lt_of_le (Nat.sub_lt hpos Nat.one_pos) hle
  obtain ⟨c, hc⟩ := hinv.seats.isFull_iff.mp (hinv.playing.full hplay) _ hslot
  refine ⟨_, c, hc, UInt8.toNat_inj.mp ?_⟩
  rw [(hinv.seats.seated _ c hc).2]
  exact Nat.sub_add_cancel hpos

theorem tokens_eq (h : Kept maxPlayers t) {game : ValidGame}
    (hgame : t.room.lobby.game = some game) {i : Nat} {c : ConnId} (hc : t.room.Seated i c) :
    t.tokens c = if (t.room.conns c).id = game.getCurrentPlayer then 1 else 0 := by
  have hP := h.ordered.seated i c hc
  rw [hgame] at hP
  cases hP with
  | playing _ _ hh => rw [← loop_tokens, hh.tokens]

end Kept

/-- While a game is on, there is one token in the whole lobby, and it is the current
player's. -/
def OneToken (t : Table) : Prop :=
  t.room.lobby.isPlayingGame = true → ∃ game i c,
    t.room.lobby.game = some game ∧ t.room.Seated i c ∧
      (t.room.conns c).id = game.getCurrentPlayer ∧ t.tokens c = 1 ∧
        ∀ j d, t.room.Seated j d → d ≠ c → t.tokens d = 0

/-- In every state of every run in which the lobby acts on no message of a dropped
connection, one player has the turn. No turn was ever answered with `wrongPlayer`,
and whatever arrives is handled. -/
theorem one_token {maxPlayers : UInt8} {t : Table} (htwo : 2 ≤ maxPlayers.toNat)
    (ht : Reaches Table.step NoLateMessage (Table.started maxPlayers) t) :
    t.OneToken ∧ Answers t.room ∧
      ∀ c m, (t.inFlight c).head? = some m → ∃ p, (t.players c).receive m = some p := by
  have h := Kept.reaches htwo ht
  have hinv := h.inv htwo
  refine ⟨fun hplay => ?_, h.answers, fun c m hm => ?_⟩
  · obtain ⟨game, hgame⟩ := hinv.playing.exists_game hplay
    obtain ⟨i, c, hc, hcurrent⟩ := h.current htwo hgame
    refine ⟨game, i, c, hgame, hc, hcurrent, ?_, fun j d hd hne => ?_⟩
    · rw [h.tokens_eq hgame hc, if_pos hcurrent]
    · rw [h.tokens_eq hgame hd, if_neg]
      exact fun heq => hne (hinv.seats.occupant_inj hd hc (heq.trans hcurrent.symm))
  · obtain ⟨⟨_, hread⟩, _⟩ := Network.handled htwo h.network (c := c) hm
    exact Player.receive_of_client hread

/-- A client arrives, is told its id, and its user says that it is ready. -/
def arrival (c : ConnId) : List TableEvent :=
  [.room (.accept c), .room (.join c), .deliver c, .receive c 1, .deliver c, .toggleReady c,
    .receive c 1]

/-- Two players arrive, and the first answers the request for its turn. -/
def firstTurn : List TableEvent :=
  arrival 0 ++ arrival 1 ++ [.deliver 0, .deliver 0, .sendTurn 0 3, .receive 0 1]

theorem one_token_first :
    ∃ t, run step (started 2) firstTurn = some t ∧ t.room.lobby.isPlayingGame = true ∧
      t.room.Seated 1 1 ∧ t.tokens 1 = 1 ∧ t.OneToken ∧ Answers t.room ∧
        ∃ p, (t.players 1).receive (.gameStart 2 5 4 1) = some p := by
  have hrun : (run step (started 2) firstTurn).any (fun t =>
      decide (t.room.lobby.isPlayingGame = true ∧ t.room.lobby.players[1]? = some (some 1) ∧
        t.tokens 1 = 1 ∧ (t.inFlight 1).head? = some (.gameStart 2 5 4 1))) = true := by
    decide +kernel
  obtain ⟨t, hrun, ht⟩ := (Option.any_eq_true ..).mp hrun
  obtain ⟨hplay, hseated, htokens, hnext⟩ := of_decide_eq_true ht
  obtain ⟨hone, hanswers, hhandled⟩ :=
    one_token (t := t) (show 2 ≤ (2 : UInt8).toNat by decide)
      (.run .refl (by decide +kernel) hrun)
  exact ⟨t, hrun, hplay, hseated, htokens, hone, hanswers, hhandled 1 _ hnext⟩

/-- The first player's turn is under way when the player is dropped. A third client
gets its slot and its id, and a game starts in which that player is asked. Only then
is the old turn read. -/
def lateTurn : List TableEvent :=
  arrival 0 ++ arrival 1 ++ [.deliver 0, .deliver 0, .sendTurn 0 3] ++
    List.replicate 5 (.room (.tick 0 false none)) ++ arrival 2 ++
    [.deliver 1, .deliver 1, .toggleReady 1, .receive 1 1] ++ [.receive 0 1]

/-- The lobby accepts it, and both players in the slots have the turn. -/
theorem two_tokens :
    ¬ ∀ t, Reachable step (started 2) t → t.OneToken := by
  intro hall
  have hrun : (run step (started 2) lateTurn).any (fun t =>
      decide (t.room.lobby.isPlayingGame = true ∧
        t.room.lobby.players = [some 2, some 1] ∧ t.tokens 1 = 1 ∧ t.tokens 2 = 1)) =
      true := by
    decide +kernel
  obtain ⟨t, hrun, ht⟩ := (Option.any_eq_true ..).mp hrun
  obtain ⟨hplay, hplayers, hone, htwo⟩ := of_decide_eq_true ht
  obtain ⟨_, _, c, _, _, _, _, hothers⟩ := hall t (.of_run hrun) hplay
  have hfirst : t.room.Seated 0 2 := by rw [Room.Seated, hplayers]; rfl
  have hsecond : t.room.Seated 1 1 := by rw [Room.Seated, hplayers]; rfl
  have hnone : ∀ i d, t.room.Seated i d → t.tokens d = 1 → d = c := by
    intro i d hd htokens
    by_contra hne
    rw [hothers i d hd hne] at htokens
    cases htokens
  exact absurd ((hnone 0 2 hfirst htwo).trans (hnone 1 1 hsecond hone).symm) (by decide)

end Table

end ConnectDisks.Net
