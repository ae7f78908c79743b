import ConnectDisks.Lib.Progress
import ConnectDisks.Proofs.GamesEnd
import ConnectDisks.Proofs.OneToken
import ConnectDisks.Proofs.Operations
import ConnectDisks.Proofs.Readiness

/-!
# The table goes on

That one player has the turn says that nothing wrong happens. It does not say that
anything happens: the request could be lost, a refusal could leave the player without a
prompt, and the lobby could wait for a ready message nobody is going to send. None of
that is so. As long as the slots are taken by players that are connected, something is
left to do, a message to deliver or to read, or a question to answer, and whoever does
it brings the next game nearer to its start, or the game in progress nearer to its end
(`games_go_on`).

It takes players that choose columns with room sooner or later. So the steps that are
looked at are the `Sensible` ones: what the players do and what is done with their
messages, with no turn the game would refuse. What was sent before is as it is.

A step is nearer to the end by its rank. During a game, an accepted turn leaves fewer
cells. Between two accepted turns, a turn that is refused was in the outbox already, and
there are fewer of these. And between two refusals the messages get fewer: each one
delivered is a prompt or a reply, and each prompt is one message to the lobby. Between
games it is the same with missing players for the cells, and the old tokens for the
refused turns.

The lobby has to hear its players for that. A read that ends with nothing, or with an
error nobody knows, is the last one of its connection.
-/

namespace ConnectDisks.Net

open ConnectDisks.Game Lib

/-! ## What a message makes of a player -/

namespace Player

/-- What a player still causes if nobody sends it anything: a prompt, or a word that it
is ready, is a message sooner or later. -/
def work (p : Player) : ℕ := 2 * (p.prompts + p.readies) + p.outbox.length

variable {p p' : Player} {m : Message}

/-- Of the calls a message leads to, one at most is of any consequence. -/
theorem receive_reacts (h : p.receive m = some p') : ∃ client, p' = { p with client := client } ∨
    ∃ call, p' = react { p with client := client } call ∧
      (call = .handleTurnRequest → m.AsksForTurn) ∧
      ∀ m', call = .sendMessage m' → m'.up = .plain := by
  rw [receive] at h
  split at h
  case h_2 => cases h
  case h_1 client calls heq =>
    cases h
    refine ⟨client, ?_⟩
    rw [Client.handleRead] at heq
    split at heq
    · cases heq
      exact .inr ⟨.onConnect (m.get 0), rfl, by rintro ⟨⟩, by rintro _ ⟨⟩⟩
    · cases heq
      exact .inl rfl
    · cases heq
      refine .inr ⟨.sendMessage .pong, rfl, by rintro ⟨⟩, ?_⟩
      rintro _ ⟨⟩
      rfl
    · rw [Client.startGame] at heq
      split at heq <;> cases heq
      exact .inl rfl
    · cases heq
      exact .inr ⟨.onGameEnd (m.get 0), rfl, by rintro ⟨⟩, by rintro _ ⟨⟩⟩
    · next htype =>
        dsimp only at heq
        split at heq <;> cases heq
        · exact .inr ⟨.handleTurnRequest, rfl, fun _ => .inl htype, by rintro _ ⟨⟩⟩
        · exact .inl rfl
    · next htype =>
        rw [Client.checkTurnResult] at heq
        split at heq
        · split at heq <;> cases heq
          exact .inl rfl
        · next hsucc =>
            split at heq <;> cases heq
            · exact .inl rfl
            · next herr =>
                exact .inr ⟨.handleTurnRequest, rfl, fun _ => .inr ⟨htype, hsucc, herr⟩,
                  by rintro _ ⟨⟩⟩
    · rw [Client.takeOpponentTurn] at heq
      split at heq <;> cases heq
      exact .inl rfl
    · cases heq
      exact .inl rfl

theorem receive_work (h : p.receive m = some p') : p'.work ≤ p.work + 2 := by
  obtain ⟨client, rfl | ⟨call, rfl, -, -⟩⟩ := receive_reacts h
  · exact Nat.le_add_right _ _
  · cases call <;> simp only [react, work, List.length_append, List.length_singleton] <;> omega

theorem receive_prompts (h : p.receive m = some p') :
    p'.prompts ≤ p.prompts + if m.AsksForTurn then 1 else 0 := by
  obtain ⟨client, rfl | ⟨call, rfl, hasks, -⟩⟩ := receive_reacts h
  · exact Nat.le_add_right _ _
  · cases call with
    | handleTurnRequest =>
        rw [if_pos (hasks rfl)]
        exact Nat.le_refl _
    | onGameEnd _ => exact Nat.zero_le _
    | _ => exact Nat.le_add_right _ _

theorem receive_outbox (h : p.receive m = some p') :
    ∃ replies, p'.outbox = p.outbox ++ replies ∧ ∀ m' ∈ replies, m'.up = .plain := by
  have hnone : ∃ replies, p.outbox = p.outbox ++ replies ∧ ∀ m' ∈ replies, m'.up = .plain :=
    ⟨[], (List.append_nil _).symm, fun _ hm => by cases hm⟩
  obtain ⟨client, rfl | ⟨call, rfl, -, hplain⟩⟩ := receive_reacts h
  · exact hnone
  · cases call with
    | sendMessage m' =>
        refine ⟨[m'], rfl, fun m'' hm'' => ?_⟩
        rw [List.mem_singleton.mp hm'']
        exact hplain m' rfl
    | _ => exact hnone

end Player

/-! ## Runs in which the players are heard -/

namespace Room

theorem joins_joinable {r r' : Room} {e : RoomEvent} (hs : r.step e = some r') :
    ∀ d ∈ e.joins, r.Joinable d := by
  intro d hd
  cases e with
  | accept c => cases hd
  | notify c position => cases hd
  | join c =>
      obtain rfl := Option.some.inj hd
      exact (Option.ite_none_right_eq_some.mp hs).1
  | read c result first refill => exact (Option.ite_none_right_eq_some.mp hs).1.2 d hd
  | tick c error refill => exact (Option.ite_none_right_eq_some.mp hs).1.2 d hd

end Room

namespace Table

variable {maxPlayers : UInt8} {t t' : Table} {e : TableEvent} {c : ConnId}

/-- No late message, and the lobby goes on reading from its players. -/
def Orderly (t : Table) (e : TableEvent) : Prop :=
  t.NoLateMessage e ∧ ∀ e' ∈ t.roomEvent e, t.room.Attends e'

instance (t : Table) (e : TableEvent) : Decidable (t.Orderly e) := by
  unfold Orderly
  infer_instance

/-- What holds in every state of every run in which the players are heard. -/
structure Live (maxPlayers : UInt8) (t : Table) : Prop where
  kept : Kept maxPlayers t
  keptUp : t.room.KeptUp
  attended : t.room.Attended

theorem Kept.once (h : Kept maxPlayers t) (htwo : 2 ≤ maxPlayers.toNat)
    {first : UInt8} {m : Message} {rest : List Message}
    (hbox : (t.players c).outbox = m :: rest) (hok : t.NoLateMessage (.receive c first)) :
    t.room.CountsOnce (.read c (.message m) first none) :=
  ⟨h.countsNew htwo hbox hok, fun d hd => by cases hd⟩

/-- Whoever is added to the lobby has not said yet that it is ready. -/
theorem Kept.once_of_silent (h : Kept maxPlayers t) (htwo : 2 ≤ maxPlayers.toNat)
    {e : RoomEvent} {r : Room} (hsilent : e.message? = none) (hs : t.room.step e = some r) :
    t.room.CountsOnce e := by
  refine ⟨fun d hd => ?_, fun d hd => ?_⟩
  · rw [Room.counts, hsilent] at hd
    cases hd
  · have hout : d ∉ t.room.lobby.handlers := fun hin =>
      (h.inv htwo).seats.not_joinable hin (Room.joins_joinable hs d hd)
    exact (h.ordered.stranger d hout).1

theorem Live.step (h : Live maxPlayers t) (htwo : 2 ≤ maxPlayers.toNat) (hok : t.Orderly e)
    (hs : t.step e = some t') : Live maxPlayers t' := by
  have hm := step_moves hs
  have hinv := h.kept.inv htwo
  have hpos : 0 < t.room.lobby.maxPlayers.toNat := by
    rw [h.kept.maxPlayers_eq htwo]
    omega
  have hroom : ∀ {e' : RoomEvent} {r : Room}, e' ∈ t.roomEvent e → t.room.step e' = some r →
      t.room.CountsOnce e' → r.KeptUp ∧ r.Attended := fun hin hs honce =>
    ⟨h.keptUp.moves hinv hpos h.kept.agreed honce (Room.step_moves hinv hs),
      h.attended.step hinv (hok.2 _ hin) hs⟩
  have hkept := h.kept.step htwo hok.1 hm
  cases hm with
  | room hsilent hr =>
      obtain ⟨hup, hatt⟩ := hroom rfl hr (h.kept.once_of_silent htwo hsilent hr)
      exact ⟨hkept, hup, hatt⟩
  | receive hbox hr =>
      obtain ⟨hup, hatt⟩ := hroom (by rw [roomEvent, hbox]; rfl) hr (h.kept.once htwo hbox hok.1)
      exact ⟨hkept, hup, hatt⟩
  | deliver _ _ => exact ⟨hkept, h.keptUp, h.attended⟩
  | sendTurn _ _ _ => exact ⟨hkept, h.keptUp, h.attended⟩
  | toggleReady _ _ => exact ⟨hkept, h.keptUp, h.attended⟩

theorem Live.reaches (htwo : 2 ≤ maxPlayers.toNat)
    (ht : Reaches Table.step Orderly (Table.started maxPlayers) t) : Live maxPlayers t := by
  refine ht.invariant ⟨.started maxPlayers, Room.started_keptUp (by omega), fun c hc => ?_⟩
    fun _ _ _ h hok hs => h.step htwo hok hs
  cases hc

/-! ## Sensible steps -/

/-- In a slot, and connected. -/
def Present (t : Table) (c : ConnId) : Prop :=
  some c ∈ t.room.lobby.players ∧ (t.room.conns c).isAlive = true

/-- Something a player in the lobby does, or that is done with its messages. A turn is
chosen so that the game accepts it. -/
def Sensible (t : Table) : TableEvent → Prop
  | .room _ => False
  | .receive c _ => t.Present c
  | .deliver c => t.Present c
  | .sendTurn c column => t.Present c ∧ ∀ game ∈ t.room.lobby.game,
      (game.takeTurn (t.room.conns c).id column).2 = .success
  | .toggleReady c => t.Present c

/-- Every slot is taken by a player that is connected. -/
def Complete (t : Table) : Prop :=
  ∀ slot ∈ t.room.lobby.players, slot.any (fun c => (t.room.conns c).isAlive) = true

instance (t : Table) : Decidable t.Complete := by
  unfold Complete
  infer_instance

theorem Complete.present (h : t.Complete) {i : Nat} {c : ConnId} (hc : t.room.Seated i c) :
    t.Present c := by
  have hin := Room.mem_players_iff.mpr ⟨i, hc⟩
  exact ⟨hin, h _ hin⟩

theorem Present.mem (h : t.Present c) (hinv : t.room.Inv) : c ∈ t.room.lobby.handlers := by
  obtain ⟨i, hi⟩ := Room.mem_players_iff.mp h.1
  exact (hinv.seats.seated i c hi).1

theorem Sensible.orderly (h : t.Sensible e) : t.Orderly e := by
  cases e with
  | room e => exact h.elim
  | receive c first =>
      refine ⟨fun hdead => absurd (hdead.symm.trans h.2) (by decide), fun e' he' => ?_⟩
      obtain ⟨m, _, rfl⟩ := Option.map_eq_some_iff.mp he'
      exact ⟨fun d hd => (by cases hd), fun _ => trivial⟩
  | deliver c => exact ⟨trivial, fun e' he' => by cases he'⟩
  | sendTurn c column => exact ⟨trivial, fun e' he' => by cases he'⟩
  | toggleReady c => exact ⟨trivial, fun e' he' => by cases he'⟩

end Table

namespace Room

variable {r r' : Room} {c : ConnId} {m : Message} {first : UInt8}

theorem read_keeps (h : r.Inv) (hs : r.step (.read c (.message m) first none) = some r') :
    r'.lobby.players = r.lobby.players ∧ r'.lobby.handlers = r.lobby.handlers ∧
      ∀ d, (r'.conns d).isAlive = (r.conns d).isAlive := by
  have halive : ∀ d, (r'.conns d).isAlive = (r.conns d).isAlive := by
    intro d
    have hops := step_operations h hs d
    refine (congrArg Prod.fst hops).trans ?_
    rw [alone]
    split
    · next hd =>
        rw [hd]
        exact congrArg Prod.fst
          (Connection.onReadSocket_operations { r.conns c with reads := (r.conns c).reads - 1 }
            (.message m))
    · rfl
  have hm := step_moves h hs
  cases hm with
  | idle _ _ _ => exact ⟨rfl, rfl, halive⟩
  | outside _ _ _ _ => exact ⟨rfl, rfl, halive⟩
  | ready _ hi _ _ =>
      have hseats := (h.modify (ready_wanders hi).seat).seats
      exact ⟨onReady_players hseats c first, (onReady_within hseats c first).handlers, halive⟩
  | turn _ hi _ _ _ =>
      have hplaying := (h.modify hi.keepsSeat).playing
      exact ⟨onTakeTurn_players hplaying c (m.get 1), (onTakeTurn_within hplaying c _).handlers,
        halive⟩
  | drop _ _ _ _ hsilent _ => cases hsilent

end Room

namespace Table

variable {maxPlayers : UInt8} {t t' : Table} {e : TableEvent} {c : ConnId}

theorem Sensible.keeps (hinv : t.room.Inv) (hok : t.Sensible e) (hm : t.Moves e t') :
    t'.room.lobby.players = t.room.lobby.players ∧
      t'.room.lobby.handlers = t.room.lobby.handlers ∧
      ∀ d, (t'.room.conns d).isAlive = (t.room.conns d).isAlive := by
  cases hm with
  | room _ _ => exact hok.elim
  | receive _ hr => exact Room.read_keeps hinv hr
  | deliver _ _ => exact ⟨rfl, rfl, fun _ => rfl⟩
  | sendTurn _ _ _ => exact ⟨rfl, rfl, fun _ => rfl⟩
  | toggleReady _ _ => exact ⟨rfl, rfl, fun _ => rfl⟩

theorem Complete.step (h : t.Complete) (hinv : t.room.Inv) (hok : t.Sensible e)
    (hm : t.Moves e t') : t'.Complete := by
  obtain ⟨hplayers, _, halive⟩ := hok.keeps hinv hm
  intro slot hslot
  rw [hplayers] at hslot
  simp only [halive]
  exact h slot hslot

/-! ## What is left to do -/

/-- The cells that are free, or the players that are missing. -/
def left (t : Table) : ℕ :=
  match t.room.lobby.game with
  | some game => game.state.numCells - game.state.getNumTurns.toNat
  | none => t.room.lobby.maxPlayers.toNat - t.room.lobby.numReady.toNat

/-- A turn that the game would not accept from the player with this id. -/
def Refused (game : ValidGame) (id : UInt8) (m : Message) : Prop :=
  m.type = .takeTurn ∧ (game.takeTurn id (m.get 1)).2 ≠ .success

instance (game : ValidGame) (id : UInt8) (m : Message) : Decidable (Refused game id m) := by
  unfold Refused
  infer_instance

/-- What was sent for nothing: turns that will be refused, or that belong to a game that
is over. -/
def stale (t : Table) (c : ConnId) : ℕ :=
  match t.room.lobby.game with
  | some game => (t.players c).outbox.countP fun m => decide (Refused game (t.room.conns c).id m)
  | none => t.tokens c

/-- What is still to be done with messages. -/
def work (t : Table) (c : ConnId) : ℕ := 3 * (t.inFlight c).length + (t.players c).work

def rank (t : Table) : ℕ ×ₗ (ℕ ×ₗ ℕ) :=
  toLex (t.left, toLex ((t.room.lobby.handlers.map t.stale).sum,
    (t.room.lobby.handlers.map t.work).sum))

theorem rank_lt_of_left (h : t'.left < t.left) : t'.rank < t.rank := toLex_lt_of_lt _ _ h

theorem rank_lt_of_stale (hleft : t'.left ≤ t.left)
    (hhandlers : t'.room.lobby.handlers = t.room.lobby.handlers)
    (hc : c ∈ t.room.lobby.handlers)
    (hstale : ∀ d ∈ t.room.lobby.handlers,
      t'.stale d + (if d = c then 1 else 0) = t.stale d) : t'.rank < t.rank := by
  refine toLex_lt_of_le hleft (toLex_lt_of_lt _ _ ?_)
  rw [hhandlers]
  refine List.sum_lt_sum _ _ (fun d hd => ?_) ⟨c, hc, ?_⟩
  · rw [← hstale d hd]
    exact Nat.le_add_right _ _
  · rw [← hstale c hc, if_pos rfl]
    exact Nat.lt_succ_self _

theorem rank_lt_of_work (hleft : t'.left ≤ t.left)
    (hhandlers : t'.room.lobby.handlers = t.room.lobby.handlers)
    (hle : ∀ d, d ≠ c → t'.stale d = t.stale d ∧ t'.work d = t.work d)
    (hc : c ∈ t.room.lobby.handlers) (hstale : t'.stale c ≤ t.stale c)
    (hlt : t'.work c < t.work c) : t'.rank < t.rank := by
  have hsame : ∀ d, t'.stale d ≤ t.stale d ∧ t'.work d ≤ t.work d := by
    intro d
    by_cases hd : d = c
    · rw [hd]
      exact ⟨hstale, hlt.le⟩
    · exact ⟨(hle d hd).1.le, (hle d hd).2.le⟩
  refine toLex_lt_of_le hleft (toLex_lt_of_le ?_ ?_) <;> rw [hhandlers]
  · exact List.sum_le_sum fun d _ => (hsame d).1
  · exact List.sum_lt_sum _ _ (fun d _ => (hsame d).2) ⟨c, hc, hlt⟩

/-- A game and an id, the messages that are under way to a player and the player are all
that counts for it. -/
theorem weights_congr {d : ConnId} (hgame : t'.room.lobby.game = t.room.lobby.game)
    (hid : (t'.room.conns d).id = (t.room.conns d).id)
    (hsent : Network.sent t'.room d = Network.sent t.room d)
    (hdelivered : t'.delivered d = t.delivered d) (hplayer : t'.players d = t.players d) :
    t'.stale d = t.stale d ∧ t'.work d = t.work d := by
  have hflight : t'.inFlight d = t.inFlight d := by rw [inFlight, inFlight, hsent, hdelivered]
  rw [stale, stale, work, work, tokens, tokens, hgame, hid, hflight, hplayer]
  exact ⟨rfl, rfl⟩

theorem stale_le (hgame : t'.room.lobby.game = t.room.lobby.game)
    (hid : (t'.room.conns c).id = (t.room.conns c).id) (htokens : t'.tokens c ≤ t.tokens c)
    (hrefused : ∀ game ∈ t.room.lobby.game,
      (t'.players c).outbox.countP (fun m => decide (Refused game (t.room.conns c).id m)) ≤
        (t.players c).outbox.countP fun m => decide (Refused game (t.room.conns c).id m)) :
    t'.stale c ≤ t.stale c := by
  rw [stale, stale, hgame, hid]
  cases hg : t.room.lobby.game with
  | none => exact htokens
  | some game => exact hrefused game hg

/-! ## What the players do -/

theorem countP_plain {p : Message → Prop} [DecidablePred p] {ms : List Message}
    (h : ∀ m ∈ ms, m.up = .plain) (hp : ∀ m, p m → m.type = .takeTurn) :
    ms.countP (fun m => decide (p m)) = 0 := by
  refine List.countP_eq_zero.mpr fun m hm hpm => ?_
  have htoken := Message.up_eq_token.mpr (hp m (of_decide_eq_true hpm))
  rw [h m hm] at htoken
  cases htoken

theorem countP_replies {p : Message → Prop} [DecidablePred p] {ms replies : List Message}
    (h : ∀ m ∈ replies, m.up = .plain) (hp : ∀ m, p m → m.type = .takeTurn) :
    (ms ++ replies).countP (fun m => decide (p m)) = ms.countP fun m => decide (p m) := by
  rw [List.countP_append, countP_plain h hp, Nat.add_zero]

theorem inFlight_received {m : Message} (hnext : (Network.sent t.room c)[t.delivered c]? = some m)
    (p : Player) : t.inFlight c = m :: (t.received c p).inFlight c := by
  obtain ⟨hlt, hget⟩ := List.getElem?_eq_some_iff.mp hnext
  rw [inFlight, inFlight, received, modify_room]
  show _ = m :: (Network.sent t.room c).drop
    (Function.update t.delivered c (t.delivered c + 1) c)
  rw [Function.update_self, ← hget]
  exact List.drop_eq_getElem_cons hlt

theorem rank_lt_of_player (hroom : t'.room = t.room)
    (hothers : ∀ d, d ≠ c → t'.players d = t.players d ∧ t'.delivered d = t.delivered d)
    (hc : c ∈ t.room.lobby.handlers) (hstale : t'.stale c ≤ t.stale c)
    (hlt : t'.work c < t.work c) : t'.rank < t.rank := by
  refine rank_lt_of_work ?_ (by rw [hroom]) (fun d hd => ?_) hc hstale hlt
  · rw [left, left, hroom]
  · exact weights_congr (by rw [hroom]) (by rw [hroom]) (by rw [hroom]) (hothers d hd).2
      (hothers d hd).1

theorem rank_deliver {m : Message} {p : Player} (hc : c ∈ t.room.lobby.handlers)
    (halive : (t.room.conns c).isAlive = true)
    (hnext : (Network.sent t.room c)[t.delivered c]? = some m)
    (hhandled : (t.players c).receive m = some p) : (t.received c p).rank < t.rank := by
  have hflight := inFlight_received hnext p
  have hself : (t.received c p).players c = p := by
    rw [received, modify_players_self, if_pos halive]
  obtain ⟨replies, hreplies, hplain⟩ := Player.receive_outbox hhandled
  refine rank_lt_of_player rfl (fun d hd => ⟨modify_players_of_ne _ hd _,
    Function.update_of_ne hd ..⟩) hc (stale_le rfl rfl ?_ fun game _ => ?_) ?_
  · have hprompts := Player.receive_prompts hhandled
    rw [tokens, tokens, hflight, hself, hreplies, countP_replies hplain fun _ h => h,
      List.countP_cons]
    simp only [decide_eq_true_eq]
    omega
  · rw [hself, hreplies, countP_replies hplain fun _ h => h.1]
  · have hwork := Player.receive_work hhandled
    rw [work, work, hflight, hself, List.length_cons]
    omega

theorem rank_sendTurn {column : UInt8} (hc : c ∈ t.room.lobby.handlers)
    (hprompted : 0 < (t.players c).prompts)
    (hok : ∀ game ∈ t.room.lobby.game,
      (game.takeTurn (t.room.conns c).id column).2 = .success) :
    (t.modify c fun p => { p with
      prompts := p.prompts - 1
      outbox := p.outbox ++ [p.client.sendTurn column] }).rank < t.rank := by
  refine rank_lt_of_player rfl (fun d hd => ⟨modify_players_of_ne _ hd _, rfl⟩) hc
    (stale_le rfl rfl ?_ fun game hgame => ?_) ?_
  · rw [tokens, tokens, modify_players_self, List.countP_append]
    show (t.inFlight c).countP _ + _ + (_ + 1) ≤ _
    dsimp only
    omega
  · have haccepted : ¬ Refused game (t.room.conns c).id ((t.players c).client.sendTurn column) :=
      fun h => h.2 (hok game hgame)
    rw [modify_players_self, List.countP_append, List.countP_singleton,
      if_neg (by simpa using haccepted)]
    exact Nat.le_refl _
  · rw [work, work, modify_players_self, Player.work, Player.work, List.length_append]
    show 3 * (t.inFlight c).length + _ < _
    simp only [List.length_singleton]
    omega

theorem rank_toggleReady (hc : c ∈ t.room.lobby.handlers) (hdue : 0 < (t.players c).readies) :
    (t.modify c fun p => { p with
      readies := p.readies - 1
      outbox := p.outbox ++ [p.client.toggleReady] }).rank < t.rank := by
  have hplain : ∀ {p : Message → Prop} [DecidablePred p] (_ : ∀ m, p m → m.type = .takeTurn)
      (ms : List Message), (ms ++ [(t.players c).client.toggleReady]).countP
        (fun m => decide (p m)) = ms.countP fun m => decide (p m) := by
    intro p _ hp ms
    have hnot : ¬ p (t.players c).client.toggleReady := fun h => by cases hp _ h
    rw [List.countP_append, List.countP_singleton, if_neg (by simpa using hnot)]
    rfl
  refine rank_lt_of_player rfl (fun d hd => ⟨modify_players_of_ne _ hd _, rfl⟩) hc
    (stale_le rfl rfl ?_ fun game _ => ?_) ?_
  · rw [tokens, tokens, modify_players_self, hplain fun _ h => h]
    exact Nat.le_refl _
  · rw [modify_players_self, hplain fun _ h => h.1]
  · rw [work, work, modify_players_self, Player.work, Player.work, List.length_append]
    show 3 * (t.inFlight c).length + _ < _
    simp only [List.length_singleton]
    omega

end Table

/-! ## What the lobby reads -/

/-- A message that is neither a turn nor a ready message leads to nothing. -/
theorem Connection.onReadSocket_plain (c : Connection) {m : Message} (hm : m.up = .plain) :
    (c.onReadSocket (.message m)).2 = none ∧ (c.onReadSocket (.message m)).1.sent = c.sent := by
  have hwait : ∀ d : Connection, d.waitForMessages.sent = d.sent := by
    intro d
    rw [waitForMessages]
    split <;> rfl
  simp only [onReadSocket]
  split
  · next htype =>
      rw [Message.up_eq_ready.mpr htype] at hm
      cases hm
  · next htype =>
      rw [Message.up_eq_token.mpr htype] at hm
      cases hm
  · exact ⟨rfl, hwait _⟩
  · exact ⟨rfl, hwait _⟩

theorem Room.read_plain {r r' : Room} {c : ConnId} {m : Message} {first : UInt8}
    (hm : m.up = .plain) (hs : r.step (.read c (.message m) first none) = some r') :
    r'.lobby = r.lobby ∧
      ∀ d, (r'.conns d).id = (r.conns d).id ∧ (r'.conns d).sent = (r.conns d).sent := by
  obtain ⟨_, heq⟩ := Option.ite_none_right_eq_some.mp hs
  obtain ⟨hnone, hsent⟩ :=
    Connection.onReadSocket_plain { r.conns c with reads := (r.conns c).reads - 1 } hm
  have hid := ((Connection.onReadSocket_outcome _ (.message m)).of_idles
    (Connection.reads_idles (r.conns c) ((r.conns c).reads - 1))).keepsSeat.id
  have hroom : r' = r.modify c fun _ =>
      (Connection.onReadSocket { r.conns c with reads := (r.conns c).reads - 1 }
        (.message m)).1 := by
    rw [← Option.some.inj heq, complete, hnone]
    rfl
  rw [hroom]
  refine ⟨rfl, fun d => ?_⟩
  by_cases hd : d = c
  · rw [hd, modify_conns_self]
    exact ⟨hid, hsent⟩
  · rw [modify_conns_of_ne r hd]
    exact ⟨rfl, rfl⟩

namespace Table

variable {maxPlayers : UInt8} {t : Table} {c : ConnId} {first : UInt8} {m : Message}
  {rest : List Message} {r : Room}

/-- The lobby has read the first message of a player, and done what there is to do. -/
def read (t : Table) (c : ConnId) (rest : List Message) (r : Room) : Table :=
  { t with room := r }.modify c fun p => { p with outbox := rest }

@[simp] theorem read_room : (t.read c rest r).room = r := rfl

theorem read_players_self : (t.read c rest r).players c = { t.players c with outbox := rest } :=
  modify_players_self ..

theorem read_players_of_ne {d : ConnId} (h : d ≠ c) :
    (t.read c rest r).players d = t.players d :=
  modify_players_of_ne _ h _

/-- What the lobby sends while it reads is under way after everything else. -/
theorem read_inFlight {d : ConnId} {ms : List Message}
    (hle : t.delivered d ≤ (Network.sent t.room d).length)
    (hsent : (r.conns d).sent = (t.room.conns d).sent ++ ms) :
    (t.read c rest r).inFlight d = t.inFlight d ++ ms := by
  show (r.conns d).sent.drop (t.delivered d) = _
  rw [hsent]
  exact List.drop_append_of_le_length hle

theorem rank_plain (hc : c ∈ t.room.lobby.handlers) (hbox : (t.players c).outbox = m :: rest)
    (hm : m.up = .plain) (hr : t.room.step (.read c (.message m) first none) = some r) :
    (t.read c rest r).rank < t.rank := by
  obtain ⟨hlobby, hconns⟩ := Room.read_plain hm hr
  have hflight : (t.read c rest r).inFlight c = t.inFlight c := by
    show (r.conns c).sent.drop (t.delivered c) = _
    rw [(hconns c).2]
    rfl
  refine rank_lt_of_work ?_ (congrArg _ hlobby) (fun d hd => weights_congr (congrArg _ hlobby)
    (hconns d).1 (hconns d).2 rfl (read_players_of_ne hd)) hc
    (stale_le (congrArg _ hlobby) (hconns c).1 ?_ fun game _ => ?_) ?_
  · rw [left, left, read_room, hlobby]
  · rw [tokens, tokens, hflight, read_players_self, hbox, List.countP_cons]
    dsimp only
    omega
  · rw [read_players_self, hbox, List.countP_cons]
    exact Nat.le_add_right _ _
  · rw [work, work, hflight, read_players_self, Player.work, Player.work, hbox,
      List.length_cons]
    dsimp only
    omega

/-- A player is ready: one less is missing, or the game starts. -/
theorem Live.rank_ready (h : Live maxPlayers t) (htwo : 2 ≤ maxPlayers.toNat)
    (hpresent : t.Present c) (hbox : (t.players c).outbox = m :: rest) {conn : Connection}
    (hi : (t.room.conns c).Idles conn) (htype : m.type = .ready)
    (hr : r = (t.room.modify c fun _ => conn.readied).onReady c first) :
    r.lobby.isPlayingGame ≠ t.room.lobby.isPlayingGame ∨ (t.read c rest r).rank < t.rank := by
  have hinv := h.kept.inv htwo
  have hinv₁ := hinv.modify (Room.ready_wanders hi).seat
  obtain ⟨i, hi'⟩ := Room.mem_players_iff.mp hpresent.1
  have hfound := hinv.seats.findPlayer_of_seated hi'
  have hup : (t.loop c).up = .ready :: rest.map Message.up := by
    rw [Ordered.loop_up hbox, Message.up_eq_ready.mpr htype]
  obtain ⟨hgame, _⟩ := h.kept.ordered.waits hinv.seats hup (hpresent.mem hinv)
    (fun hdead => absurd (hdead.symm.trans hpresent.2) (by decide))
    (by rw [← Connection.getId, hfound]; simp)
  have hplay := hinv.playing.not_playing hgame
  rcases Room.onReady_cases hinv₁.seats.isOpen c first with
    ⟨hnone, _⟩ | ⟨_, _, _, heq⟩ | ⟨_, _, _, _, hon, _⟩ | ⟨_, _, _, _, _, heq⟩
  · rw [Room.modify_conns_self, show conn.readied.getId = (t.room.conns c).getId from hi.id,
      Room.modify_findPlayer (Room.ready_wanders hi).seat, hfound] at hnone
    cases hnone
  · have hcovered := h.kept.agreed.covered hplay
    have hmissing := h.keptUp.missing hplay
    have hnum : (t.room.lobby.numReady + 1).toNat = t.room.lobby.numReady.toNat + 1 :=
      Room.toNat_add_one (Nat.lt_of_le_of_lt hcovered hmissing) t.room.lobby.maxPlayers.toNat_lt
    refine .inr (rank_lt_of_left ?_)
    rw [left, left, read_room, hr, heq, hgame,
      show ((t.room.modify c fun _ => conn.readied).counted).lobby.game = none from hgame]
    show t.room.lobby.maxPlayers.toNat - (t.room.lobby.numReady + 1).toNat <
      t.room.lobby.maxPlayers.toNat - t.room.lobby.numReady.toNat
    omega
  · exact absurd (hplay.symm.trans hon) (by decide)
  · left
    rw [hr, heq, hplay, Room.opened_isPlayingGame]
    decide

theorem hears_error (conn : Connection) (c : ConnId) (playerId column : UInt8) :
    ∀ m ∈ conn.hears c [.tookTurn playerId column .error], m.down = .plain := by
  intro m hm
  cases halive : conn.isAlive with
  | false =>
      rw [hears_dead halive] at hm
      cases hm
  | true =>
      have hdown := List.mem_map_of_mem (f := Message.down) hm
      rw [hears_answered halive (by decide)] at hdown
      split at hdown
      · exact List.mem_singleton.mp hdown
      · cases hdown

/-- Whatever anybody is sent for such a turn, it asks for nothing. -/
theorem Live.read_error (h : Live maxPlayers t) (htwo : 2 ≤ maxPlayers.toNat)
    {conn : Connection} (hi : (t.room.conns c).Idles conn) {playerId column : UInt8}
    (hr : r = (t.room.modify c fun _ => conn).tookTurn playerId column .error)
    {d : ConnId} (hd : d ∈ t.room.lobby.handlers) :
    ((t.read c rest r).inFlight d).countP (fun m => decide m.AsksForTurn) =
      (t.inFlight d).countP fun m => decide m.AsksForTurn := by
  have hseats := ((h.kept.inv htwo).modify hi.keepsSeat).seats
  have ht := Room.tookTurn_tells hseats playerId column .error
  obtain ⟨ms, hms, hplain⟩ : ∃ ms, ((t.room.modify c fun _ => conn).conns d).sent =
      (t.room.conns d).sent ++ ms ∧ ∀ m ∈ ms, m.down = .plain := by
    by_cases hdc : d = c
    · obtain ⟨ms, hms, hkeeping⟩ := hi.sent
      rw [hdc, Room.modify_conns_self]
      exact ⟨ms, hms, fun m hm => (hkeeping m hm).down⟩
    · rw [Room.modify_conns_of_ne _ hdc]
      exact ⟨[], (List.append_nil _).symm, fun _ hm => by cases hm⟩
  have hheard : (r.conns d).sent = (t.room.conns d).sent ++ (ms ++
      ((t.room.modify c fun _ => conn).conns d).hears d [.tookTurn playerId column .error]) := by
    rw [hr, ht.heard d hd, hms, List.append_assoc]
  rw [read_inFlight (h.kept.ordered.delivered d) hheard, List.countP_append, Nat.add_eq_left,
    List.countP_eq_zero]
  intro m hm hasks
  have hdown := Message.down_eq_token.mpr (of_decide_eq_true hasks)
  rw [(List.mem_append.mp hm).elim (hplain m) (hears_error _ _ _ _ m)] at hdown
  cases hdown

theorem Live.rank_error (h : Live maxPlayers t) (htwo : 2 ≤ maxPlayers.toNat)
    (hc : c ∈ t.room.lobby.handlers) (hbox : (t.players c).outbox = m :: rest)
    {conn : Connection} (hi : (t.room.conns c).Idles conn) (htype : m.type = .takeTurn)
    (hgame : t.room.lobby.game = none) {playerId column : UInt8}
    (hr : r = (t.room.modify c fun _ => conn).tookTurn playerId column .error) :
    (t.read c rest r).rank < t.rank := by
  have hnone : r.lobby.game = none := by rw [hr]; exact hgame
  refine rank_lt_of_stale ?_ (by rw [read_room, hr]; rfl) hc fun d hd => ?_
  · rw [left, left, read_room, hnone, hgame, hr]
    exact Nat.le_refl _
  · rw [stale, stale, read_room, hnone, hgame]
    show (t.read c rest r).tokens d + _ = t.tokens d
    rw [tokens, tokens, h.read_error htwo hi hr hd]
    by_cases hdc : d = c
    · rw [if_pos hdc, hdc, read_players_self, hbox,
        List.countP_cons_of_pos (by simpa using htype), Nat.add_assoc]
    · rw [if_neg hdc, read_players_of_ne hdc]
      rfl

/-- The game does not accept the turn: one less of these is under way. -/
theorem rank_refused (hc : c ∈ t.room.lobby.handlers) (hbox : (t.players c).outbox = m :: rest)
    {conn : Connection} (hi : (t.room.conns c).Idles conn) {game : ValidGame}
    (hgame : t.room.lobby.game = some game) (hrefused : Refused game (t.room.conns c).id m)
    (hseats : (t.room.modify c fun _ => conn).Seats) {playerId column : UInt8}
    {result : TurnResult}
    (hr : r = (t.room.modify c fun _ => conn).tookTurn playerId column result) :
    (t.read c rest r).rank < t.rank := by
  have hsome : r.lobby.game = some game := by rw [hr]; exact hgame
  have hid : ∀ d, (r.conns d).id = (t.room.conns d).id := by
    intro d
    have hseat := (Room.tookTurn_tells hseats playerId column result).within.seat d
    rw [hr, (Connection.KeepsSeat.of_seat hseat).id]
    by_cases hd : d = c
    · rw [hd, Room.modify_conns_self]
      exact hi.id
    · rw [Room.modify_conns_of_ne _ hd]
  refine rank_lt_of_stale ?_ (by rw [read_room, hr]; rfl) hc fun d _ => ?_
  · rw [left, left, read_room, hsome, hgame]
  · rw [stale, stale, read_room, hsome, hgame, hid d]
    by_cases hdc : d = c
    · rw [if_pos hdc, hdc, read_players_self, hbox]
      exact (List.countP_cons_of_pos
        (p := fun m => decide (Refused game (t.room.conns c).id m)) (by simpa using hrefused)).symm
    · rw [if_neg hdc, read_players_of_ne hdc]
      rfl

theorem Live.rank_turn (h : Live maxPlayers t) (htwo : 2 ≤ maxPlayers.toNat)
    (hpresent : t.Present c) (hbox : (t.players c).outbox = m :: rest) {conn : Connection}
    (hi : (t.room.conns c).Idles conn) (htype : m.type = .takeTurn)
    (hr : r = (t.room.modify c fun _ => conn).onTakeTurn c (m.get 1)) :
    r.lobby.isPlayingGame ≠ t.room.lobby.isPlayingGame ∨ (t.read c rest r).rank < t.rank := by
  have hinv := h.kept.inv htwo
  have hinv₁ := hinv.modify hi.keepsSeat
  have hc := hpresent.mem hinv
  have hid : ((t.room.modify c fun _ => conn).conns c).getId = (t.room.conns c).id := by
    rw [Room.modify_conns_self]
    exact hi.id
  rcases Room.onTakeTurn_cases hinv₁.playing c (m.get 1) with
    ⟨hplay, heq⟩ | ⟨game, hgame, _, hsucc, _, heq⟩ | ⟨game, game', hgame, hturn, _, _, heq⟩ |
      ⟨game, game', hgame, _, _, heq⟩
  · exact .inr (h.rank_error htwo hc hbox hi htype (hinv.playing.not_game hplay) (hr.trans heq))
  · rw [hid] at hsucc
    exact .inr (rank_refused hc hbox hi hgame ⟨htype, hsucc⟩ hinv₁.seats (hr.trans heq))
  · have hnum := game.takeTurn_numTurns ((t.room.modify c fun _ => conn).conns c).getId (m.get 1)
    have hcells := Room.takeTurn_numCells game
      ((t.room.modify c fun _ => conn).conns c).getId (m.get 1)
    rw [hturn] at hnum hcells
    have hgame : t.room.lobby.game = some game := hgame
    have hlt := Room.numTurns_lt hinv.playing hgame
    refine .inr (rank_lt_of_left ?_)
    rw [left, left, read_room, hgame, hr, heq]
    show game'.state.numCells - game'.state.getNumTurns.toNat <
      game.state.numCells - game.state.getNumTurns.toNat
    rw [hnum, hcells, if_pos rfl]
    omega
  · left
    rw [hr, heq, hinv.playing.isPlaying (g := game) hgame]
    exact Bool.false_ne_true

/-- Every sensible step is one towards the next game, or towards the end of this one. -/
theorem Live.descends (h : Live maxPlayers t) (htwo : 2 ≤ maxPlayers.toNat) {e : TableEvent}
    {t' : Table} (hok : t.Sensible e) (hm : t.Moves e t') :
    t'.room.lobby.isPlayingGame ≠ t.room.lobby.isPlayingGame ∨ t'.rank < t.rank := by
  have hinv := h.kept.inv htwo
  cases hm with
  | room _ _ => exact hok.elim
  | @receive c first m rest r hbox hr =>
      show r.lobby.isPlayingGame ≠ _ ∨ (t.read c rest r).rank < t.rank
      by_cases hup : m.up = .plain
      · exact .inr (rank_plain (hok.mem hinv) hbox hup hr)
      · obtain ⟨hin, hheeds⟩ := h.kept.heeds hbox hup
        have hmoves := Room.step_moves hinv hr
        cases hmoves with
        | idle _ hown hunheeded => exact absurd (hheeds hok.2) (hunheeded c m rfl hin)
        | outside hout _ hown _ => exact absurd hin (hown c m rfl ▸ hout)
        | ready _ hi htype _ => exact h.rank_ready htwo hok hbox hi htype rfl
        | turn _ hi htype _ _ => exact h.rank_turn htwo hok hbox hi htype rfl
        | drop _ _ _ _ hsilent _ => cases hsilent
  | deliver hnext hhandled => exact .inr (rank_deliver (hok.mem hinv) hok.2 hnext hhandled)
  | sendTurn _ hprompted _ => exact .inr (rank_sendTurn (hok.1.mem hinv) hprompted hok.2)
  | toggleReady _ hdue => exact .inr (rank_toggleReady (hok.mem hinv) hdue)

/-! ## There is always something to do -/

theorem Live.receive_step (h : Live maxPlayers t) (htwo : 2 ≤ maxPlayers.toNat)
    (hpresent : t.Present c) (hbox : (t.players c).outbox ≠ []) (first : UInt8) :
    ∃ t', t.step (.receive c first) = some t' := by
  obtain ⟨m, rest, hbox⟩ := List.exists_cons_of_ne_nil hbox
  have hreads := h.attended c (hpresent.mem (h.kept.inv htwo)) hpresent.2
  rw [Table.step, hbox]
  dsimp only
  rw [Room.step, if_pos ⟨hreads, fun _ hd => by cases hd⟩]
  exact ⟨_, rfl⟩

theorem Kept.deliver_step (h : Kept maxPlayers t) (htwo : 2 ≤ maxPlayers.toNat)
    (hflight : t.inFlight c ≠ []) : ∃ t', t.step (.deliver c) = some t' := by
  obtain ⟨m, rest, heq⟩ := List.exists_cons_of_ne_nil hflight
  have hhead : (t.inFlight c).head? = some m := by rw [heq]; rfl
  obtain ⟨⟨_, hread⟩, _⟩ := Network.handled htwo h.network (c := c) (m := m) hhead
  obtain ⟨p, hp⟩ := Player.receive_of_client hread
  rw [inFlight, List.head?_drop] at hhead
  rw [Table.step, hhead, Option.bind_some, show (t.players c).receive m = some p from hp]
  exact ⟨_, rfl⟩

/-- The player whose turn it is has the token, and whatever it is can be moved along. -/
theorem Live.next_turn (h : Live maxPlayers t) (htwo : 2 ≤ maxPlayers.toNat)
    (hcomplete : t.Complete) {game : ValidGame} (hgame : t.room.lobby.game = some game) :
    ∃ e t', t.Sensible e ∧ t.step e = some t' := by
  have hinv := h.kept.inv htwo
  obtain ⟨i, c, hc, hcurrent⟩ := h.kept.current htwo hgame
  have hpresent := hcomplete.present hc
  have htokens := h.kept.tokens_eq hgame hc
  rw [if_pos hcurrent] at htokens
  by_cases hbox : (t.players c).outbox = []
  · by_cases hprompts : (t.players c).prompts = 0
    · have hflight : t.inFlight c ≠ [] := by
        intro hnil
        rw [tokens, hbox, hprompts, hnil] at htokens
        cases htokens
      obtain ⟨t', ht'⟩ := h.kept.deliver_step htwo hflight
      exact ⟨.deliver c, t', hpresent, ht'⟩
    · obtain ⟨column, game', hturn⟩ := (hinv.progresses hgame).continues
      have hcolumn : column ≠ 255 := by
        rintro rfl
        have hlt := (ValidGame.accepts_of_success hturn).inRange
        have hle := game.state.board.numColumns.toNat_lt
        have hmax : (255 : UInt8).toNat = 255 := rfl
        omega
      refine ⟨.sendTurn c column, _, ⟨hpresent, fun game₁ hgame₁ => ?_⟩,
        if_pos ⟨hpresent.2, Nat.pos_of_ne_zero hprompts, hcolumn⟩⟩
      rw [hgame] at hgame₁
      obtain rfl := Option.some.inj hgame₁
      rw [hcurrent, hturn]
  · obtain ⟨t', ht'⟩ := h.receive_step htwo hpresent hbox 1
    exact ⟨.receive c 1, t', hpresent, ht'⟩

/-- A player that is not ready yet owes the lobby the word, and that can be moved along. -/
theorem Live.next_ready (h : Live maxPlayers t) (htwo : 2 ≤ maxPlayers.toNat)
    (hcomplete : t.Complete) (hgame : t.room.lobby.game = none) :
    ∃ e t', t.Sensible e ∧ t.step e = some t' := by
  have hinv := h.kept.inv htwo
  have hmissing := h.keptUp.missing (hinv.playing.not_playing hgame)
  obtain ⟨c, hc, hnot⟩ : ∃ c, some c ∈ t.room.lobby.players ∧
      (t.room.conns c).isReady = false := by
    by_contra hall
    push Not at hall
    refine absurd ?_ (Nat.ne_of_lt hmissing)
    rw [← hinv.seats.length, Room.readyCount, List.countP_eq_length]
    intro slot hslot
    obtain ⟨c, rfl, _⟩ := (Option.any_eq_true ..).mp (hcomplete slot hslot)
    exact Bool.not_eq_false _ ▸ hall c hslot
  obtain ⟨i, hi⟩ := Room.mem_players_iff.mp hc
  have hpresent := hcomplete.present hi
  have hwaits : (t.loop c).Waits := by
    have hphase := h.kept.ordered.seated i c hi
    rw [hgame] at hphase
    cases hphase with
    | ready _ hready _ => exact absurd (hnot.symm.trans hready) (by decide)
    | waiting _ hwaits => exact hwaits hpresent.2
  have hdeliver : (t.loop c).down ≠ [] → ∃ e t', t.Sensible e ∧ t.step e = some t' := by
    intro hdown
    obtain ⟨t', ht'⟩ := h.kept.deliver_step (c := c) htwo fun hnil =>
      hdown (by rw [loop, hnil]; rfl)
    exact ⟨.deliver c, t', hpresent, ht'⟩
  cases hwaits with
  | greeting hdown _ _ _ _ _ => exact hdeliver (by rw [hdown]; simp)
  | ending hdown _ _ _ _ _ => exact hdeliver (by rw [hdown]; simp)
  | owing _ _ hdue _ =>
      refine ⟨.toggleReady c, _, hpresent, if_pos ⟨hpresent.2, ?_⟩⟩
      rw [show (t.players c).readies = 1 from hdue]
      exact Nat.one_pos
  | saying _ _ _ hup _ _ =>
      have hbox : (t.players c).outbox ≠ [] := by
        intro hnil
        rw [loop, hnil] at hup
        exact absurd hup (by simp)
      obtain ⟨t', ht'⟩ := h.receive_step htwo hpresent hbox 1
      exact ⟨.receive c 1, t', hpresent, ht'⟩

/-- As long as nobody goes away and the lobby hears its players, games are started and come
to an end for ever: there is always something sensible to do, and in whatever order it is
done, no game lasts, and no time between two games. -/
theorem games_go_on (htwo : 2 ≤ maxPlayers.toNat)
    (ht : Reaches step Orderly (started maxPlayers) t) (hcomplete : t.Complete) :
    (∀ t', Reaches step Sensible t t' → ∃ e t'', t'.Sensible e ∧ t'.step e = some t'') ∧
    ∀ f : ℕ → Table, f 0 = t → Endless step Sensible f → ∀ n, ∃ m, n ≤ m ∧
      (f m).room.lobby.isPlayingGame ≠ (f n).room.lobby.isPlayingGame := by
  have hlive : ∀ t', Reaches step Sensible t t' → Live maxPlayers t' ∧ t'.Complete := by
    intro t' ht'
    refine ht'.invariant (I := fun s => Live maxPlayers s ∧ s.Complete)
      ⟨Live.reaches htwo ht, hcomplete⟩ fun s e s' h hok hs => ?_
    exact ⟨h.1.step htwo hok.orderly hs, h.2.step (h.1.kept.inv htwo) hok (step_moves hs)⟩
  constructor
  · intro t' ht'
    obtain ⟨h, hcomplete'⟩ := hlive t' ht'
    cases hgame : t'.room.lobby.game with
    | none => exact h.next_ready htwo hcomplete' hgame
    | some game => exact h.next_turn htwo hcomplete' hgame
  · rintro f rfl hf n
    refine hf.changes (fun s => s.room.lobby.isPlayingGame) rank ?_ n
    intro k e hok hs
    exact (hlive _ (hf.reaches k)).1.descends htwo hok (step_moves hs)

/-- The game of the first two players can go on, and if it does it comes to its end. -/
theorem games_go_on_two : ∃ t, run step (started 2) (arrival 0 ++ arrival 1) = some t ∧
    t.room.lobby.isPlayingGame = true ∧ ∃ f : ℕ → Table, f 0 = t ∧ Endless step Sensible f ∧
      ∃ m, (f m).room.lobby.isPlayingGame = false := by
  have hrun : (run step (started 2) (arrival 0 ++ arrival 1)).any (fun t =>
      decide (t.room.lobby.isPlayingGame = true ∧ t.Complete)) = true := by
    decide +kernel
  obtain ⟨t, hs, ht⟩ := (Option.any_eq_true ..).mp hrun
  obtain ⟨hplay, hcomplete⟩ := of_decide_eq_true ht
  obtain ⟨hnext, hends⟩ := games_go_on (t := t) (show 2 ≤ (2 : UInt8).toNat by decide)
    (.run .refl (by decide +kernel) hs) hcomplete
  obtain ⟨f, rfl, hf⟩ := exists_endless hnext
  obtain ⟨m, _, hm⟩ := hends f rfl hf 0
  rw [hplay] at hm
  exact ⟨f 0, hs, hplay, f, rfl, hf, m, Bool.not_eq_true _ ▸ hm⟩

end Table

end ConnectDisks.Net
