import ConnectDisks.Lib.Question
import ConnectDisks.Proofs.TableProgress

/-!
# Who is asked knows the game

A request for a turn is a question, and it stands until the game is over. What a client
plays again on its copy of the game is news to it. The lobby has news for a player only when
a game starts or a turn is accepted, and then no question stands with anybody: there was one
token, and it was with the lobby (`Kept.unasked_of_start`, `Kept.unasked_of_turn`). So what
is under way to a player is calm in every run without late messages (`Kept.settled_step`), and
whoever is prompted has the lobby's game before him (`Kept.asked_sees`).
-/

namespace ConnectDisks.Net

open ConnectDisks.Game Lib

/-! ## Messages as remarks -/

def Message.remark (m : Message) : Remark :=
  if m.type = .gameEnd then .ending
  else if m.AsksForTurn then .question
  else if m.type = .gameStart ∨ m.type = .update ∨
      m.type = .turnResult ∧ m.get 0 = turnResultByte .success then .news
  else .nothing

theorem Message.remark_question {m : Message} : m.remark = .question ↔ m.AsksForTurn := by
  by_cases h : m.AsksForTurn
  · have htype : m.type ≠ .gameEnd := by rcases h with h | h <;> simp [h]
    simp [remark, h, htype]
  · simp only [remark, h, if_false, iff_false]
    grind

theorem Message.remark_ending {m : Message} : m.remark = .ending ↔ m.type = .gameEnd := by
  rw [remark]
  grind

theorem Message.Housekeeping.remark {m : Message} (h : m.Housekeeping) :
    m.remark = .nothing := by
  rcases h with h | h <;> simp [Message.remark, AsksForTurn, h]

/-- What every client is told of, to change its game. -/
def Emission.IsNews : Emission → Prop
  | .gameStarted _ _ => True
  | .tookTurn _ _ .success => True
  | _ => False

theorem seenBy_news {c : ConnId} {id : UInt8} {e : Emission} {m : Message}
    (h : e.seenBy c id = some m) : m.remark = .news ↔ e.IsNews := by
  cases e with
  | joined d =>
      rw [Emission.seenBy] at h
      split at h <;> cases h
      exact ⟨fun h => (by cases h), False.elim⟩
  | gameStarted game slots =>
      cases h
      exact ⟨fun _ => trivial, fun _ => rfl⟩
  | gameEnded winner =>
      cases h
      exact ⟨fun h => (by cases h), False.elim⟩
  | takeTurn playerId =>
      rw [Emission.seenBy] at h
      split at h <;> cases h
      exact ⟨fun h => (by cases h), False.elim⟩
  | tookTurn playerId column result =>
      rw [Emission.seenBy] at h
      split at h
      · cases h
        cases result <;> first
          | exact ⟨fun _ => trivial, fun _ => rfl⟩
          | exact ⟨fun h => (by cases h), False.elim⟩
      · split at h
        · next hr =>
            cases h
            cases hr
            exact ⟨fun _ => trivial, fun _ => rfl⟩
        · cases h

theorem seenBy_of_news (c : ConnId) (id : UInt8) {e : Emission} (he : e.IsNews) :
    ∃ m, e.seenBy c id = some m ∧ m.remark = .news := by
  have hsome : ∃ m, e.seenBy c id = some m := by
    cases e with
    | gameStarted game slots => exact ⟨_, rfl⟩
    | tookTurn playerId column result =>
        cases result with
        | success =>
            obtain ⟨m, hm, _⟩ := Table.seenBy_success c id playerId column
            exact ⟨m, hm⟩
        | _ => exact he.elim
    | _ => exact he.elim
  obtain ⟨m, hm⟩ := hsome
  exact ⟨m, hm, (seenBy_news hm).mpr he⟩

theorem hears_no_news {conn : Connection} {c : ConnId} {es : List Emission}
    (hes : ∀ e ∈ es, ¬e.IsNews) : ∀ m ∈ conn.hears c es, m.remark ≠ .news := by
  intro m hm hnews
  rw [Connection.hears] at hm
  split at hm
  · obtain ⟨e, he, hseen⟩ := List.mem_filterMap.mp hm
    exact hes e he ((seenBy_news hseen).mp hnews)
  · cases hm

namespace Client

variable {cl cl' : Client} {m : Message}

theorem handleRead_still {calls : List Call} (h : cl.handleRead m = .ok (cl', calls))
    (hm : m.remark ≠ .news) : cl'.game = cl.game := by
  rw [handleRead] at h
  split at h
  · cases h
    rfl
  · cases h
    rfl
  · cases h
    rfl
  · next htype => exact absurd (by simp [Message.remark, Message.AsksForTurn, htype]) hm
  · cases h
    rfl
  · dsimp only at h
    split at h <;> cases h <;> rfl
  · next htype =>
      rw [checkTurnResult] at h
      split at h
      · next hsucc =>
          exact absurd (by simp [Message.remark, Message.AsksForTurn, htype, hsucc]) hm
      · split at h <;> cases h <;> rfl
  · next htype => exact absurd (by simp [Message.remark, Message.AsksForTurn, htype]) hm
  · cases h
    rfl

theorem receive_still {ms : List Message} (h : run receive cl ms = some cl')
    (hms : ∀ m ∈ ms, m.remark ≠ .news) : cl'.game = cl.game := by
  induction ms generalizing cl with
  | nil =>
      cases h
      rfl
  | cons m ms ih =>
      obtain ⟨mid, hmid, hrest⟩ := Option.bind_eq_some_iff.mp h
      obtain ⟨calls, hread⟩ := receive_eq_some hmid
      rw [ih hrest fun m' hm' => hms m' (List.mem_cons_of_mem m hm')]
      exact handleRead_still hread (hms m List.mem_cons_self)

end Client

namespace Player

/-- A user that is prompted once the message is received was asked, and is still, or is
asked by the message. -/
theorem receive_leaves {p p' : Player} {m : Message} (h : p.receive m = some p')
    (hasked : 0 < p'.prompts) : m.remark.leaves (decide (0 < p.prompts)) = true := by
  by_cases hasks : m.AsksForTurn
  · rw [Message.remark_question.mpr hasks]
    rfl
  · have hprompts := receive_prompts h
    rw [if_neg hasks, Nat.add_zero] at hprompts
    rw [decide_eq_true (Nat.lt_of_lt_of_le hasked hprompts)]
    cases hremark : m.remark with
    | ending =>
        rw [receive, Client.handleRead, Message.remark_ending.mp hremark] at h
        cases h
        exact absurd hasked (Nat.lt_irrefl 0)
    | _ => rfl

end Player

/-! ## What the lobby has to say -/

namespace Room

variable {r r' r₁ : Room} {es : List Emission}

/-- The methods that got from `r` to `r'` had no news for anybody. -/
def Still (r r' : Room) : Prop :=
  ∀ d, ∃ ms, (r'.conns d).sent = (r.conns d).sent ++ ms ∧ ∀ m ∈ ms, m.remark ≠ .news

theorem Still.refl (r : Room) : r.Still r :=
  fun _ => ⟨[], (List.append_nil _).symm, fun _ hm => by cases hm⟩

theorem Still.trans (h : r.Still r₁) (h' : r₁.Still r') : r.Still r' := by
  intro d
  obtain ⟨ms, hsent, hms⟩ := h d
  obtain ⟨ms', hsent', hms'⟩ := h' d
  refine ⟨ms ++ ms', by rw [hsent', hsent, List.append_assoc], fun m hm => ?_⟩
  exact (List.mem_append.mp hm).elim (hms m) (hms' m)

theorem Still.modify {c : ConnId} {conn : Connection} (hw : (r.conns c).Wanders conn) :
    r.Still (r.modify c fun _ => conn) := by
  intro d
  by_cases hd : d = c
  · obtain ⟨ms, hsent, hms⟩ := hw.sent
    refine ⟨ms, by rw [hd, modify_conns_self, hsent], fun m hm hnews => ?_⟩
    rw [(hms m hm).remark] at hnews
    cases hnews
  · rw [modify_conns_of_ne r hd]
    exact Still.refl r d

theorem Tells.still (h : r.Tells r' es) (hes : ∀ e ∈ es, ¬e.IsNews) : r.Still r' := by
  intro d
  by_cases hd : d ∈ r.lobby.handlers
  · exact ⟨_, h.heard d hd, hears_no_news hes⟩
  · rw [h.within.others d hd]
    exact Still.refl r d

theorem Still.addPlayer (hs : r.Seats) {c : ConnId} (hjoin : r.Joinable c) :
    r.Still (r.addPlayer c) := by
  rcases addPlayer_cases hs c with ⟨_, heq⟩ | ⟨_, i, _, _, heq⟩ <;> rw [heq]
  · exact .refl r
  · intro d
    by_cases hd : d = c
    · rw [hd, admitted_conns_self hjoin]
      dsimp only
      split
      · refine ⟨_, rfl, fun m hm hnews => ?_⟩
        rw [List.mem_singleton.mp hm] at hnews
        cases hnews
      · exact ⟨[], (List.append_nil _).symm, fun _ hm => by cases hm⟩
    · rw [admitted_conns_of_ne r hd]
      exact Still.refl r d

theorem Still.ended (hs : r.Seats) : r.Still r.ended := by
  rw [Room.ended]
  split
  · exact .refl r
  · exact (gameOver_tells hs _).still fun e he => List.mem_singleton.mp he ▸ id

theorem Moves.still (hinv : r.Inv) {e : RoomEvent} (hsilent : e.message? = none)
    (hm : r.Moves e r') : r.Still r' := by
  cases hm with
  | idle hi _ _ => exact .modify hi.wanders
  | outside _ hw _ _ => exact .modify hw
  | join hjoin => exact .addPlayer hinv.seats hjoin
  | ready _ _ _ _ => cases hsilent
  | turn _ _ _ _ _ => cases hsilent
  | @drop e c conn i refill hc _ hi hjoin _ _ =>
      have hw := dropped_wanders hi
      have hdead : ((r.modify c fun _ => conn.dropped).conns c).isAlive = false := by
        rw [modify_conns_self]
        rfl
      have hvacated := (hinv.modify hw.seat).seats.vacated hc hdead
      have hvacates : (r.modify c fun _ => conn.dropped).Still
          ((r.modify c fun _ => conn.dropped).vacated c i) := Still.refl _
      have hstill := ((Still.modify hw).trans hvacates).trans (.ended hvacated)
      cases refill with
      | none => exact hstill
      | some d =>
          exact hstill.trans
            (.addPlayer (hinv.dropped hc hi).seats ((hjoin d rfl).left hinv.seats hc))

theorem Tells.news {e : Emission} (h : r.Tells r' (e :: es)) (he : e.IsNews)
    (hes : ∀ e ∈ es, ¬e.IsNews) (d : ConnId) :
    (r'.conns d).sent = (r.conns d).sent ∨
      (d ∈ r.lobby.handlers ∧ (r.conns d).isAlive = true ∧ ∃ m ms,
        (r'.conns d).sent = (r.conns d).sent ++ m :: ms ∧ ∀ m ∈ ms, m.remark ≠ .news) := by
  by_cases hd : d ∈ r.lobby.handlers
  · have hheard := h.heard d hd
    cases halive : (r.conns d).isAlive with
    | false =>
        rw [Table.hears_dead halive, List.append_nil] at hheard
        exact .inl hheard
    | true =>
        obtain ⟨m, hm, _⟩ := seenBy_of_news d (r.conns d).id he
        have hrest : ∀ m ∈ (r.conns d).hears d es, m.remark ≠ .news := hears_no_news hes
        rw [Connection.hears, if_pos halive] at hrest
        rw [Connection.hears, if_pos halive, List.filterMap_cons_some hm] at hheard
        exact .inr ⟨hd, rfl, m, _, hheard, hrest⟩
  · rw [h.within.others d hd]
    exact .inl rfl

end Room

namespace Table

variable {maxPlayers : UInt8} {t t' : Table} {c d : ConnId} {m : Message} {rest : List Message}

/-- Nobody asks the player anything, and nobody is about to. -/
def Unasked (t : Table) (d : ConnId) : Prop :=
  (t.players d).prompts = 0 ∧ ∀ m ∈ t.inFlight d, ¬m.AsksForTurn

/-- What is under way to each player is calm. -/
def Settled (t : Table) : Prop :=
  ∀ c, Calm (decide (0 < (t.players c).prompts)) ((t.inFlight c).map Message.remark)

/-- The player may be sent this: no news, or one piece of news if it is asked nothing. -/
def Welcomes (t : Table) (d : ConnId) (ms : List Message) : Prop :=
  (∀ m ∈ ms, m.remark ≠ .news) ∨ t.Unasked d ∧ ∃ before m after, ms = before ++ m :: after ∧
    (∀ m ∈ before, m.remark = .nothing) ∧ ∀ m ∈ after, m.remark ≠ .news

theorem no_news_map {ms : List Message} (h : ∀ m ∈ ms, m.remark ≠ .news) :
    Remark.news ∉ ms.map Message.remark := by
  intro hin
  obtain ⟨m, hm, heq⟩ := List.mem_map.mp hin
  exact h m hm heq

theorem Settled.push (h : t.Settled) {ms : List Message}
    (hflight : t'.inFlight d = t.inFlight d ++ ms)
    (hprompts : (t'.players d).prompts = (t.players d).prompts) (hms : t.Welcomes d ms) :
    Calm (decide (0 < (t'.players d).prompts)) ((t'.inFlight d).map Message.remark) := by
  rw [hflight, hprompts, List.map_append]
  refine calm_append.mpr ⟨h d, ?_⟩
  rcases hms with hnone | ⟨⟨hzero, hquiet⟩, before, m, after, rfl, hbefore, hafter⟩
  · exact calm_of_no_news (no_news_map hnone) _
  · have hquestion : Remark.question ∉ (t.inFlight d).map Message.remark := by
      intro hin
      obtain ⟨m', hm', heq⟩ := List.mem_map.mp hin
      exact hquiet m' hm' (Message.remark_question.mp heq)
    rw [hzero, show decide (0 < 0) = false from rfl, standing_of_no_question hquestion,
      List.map_append]
    refine calm_news (fun x hx => ?_) (no_news_map hafter)
    obtain ⟨m', hm', rfl⟩ := List.mem_map.mp hx
    exact hbefore m' hm'

theorem unasked_of_plain (hdown : ∀ x ∈ (t.loop d).down, x = .plain)
    (hprompts : (t.loop d).prompts = 0) : t.Unasked d := by
  refine ⟨hprompts, fun m hm hasks => ?_⟩
  have hplain := hdown m.down (List.mem_map_of_mem hm)
  rw [Message.down_eq_token.mpr hasks] at hplain
  cases hplain

/-- The sender's own connection may have sent something before the news. -/
theorem welcomes_news {r : Room} {conn : Connection} (hw : (t.room.conns c).Wanders conn)
    {e : Emission} {es : List Emission}
    (ht : (t.room.modify c fun _ => conn).Tells r (e :: es)) (he : e.IsNews)
    (hes : ∀ e ∈ es, ¬e.IsNews)
    (hunasked : d ∈ t.room.lobby.handlers →
      ((t.room.modify c fun _ => conn).conns d).isAlive = true → t.Unasked d) :
    ∃ ms, (r.conns d).sent = (t.room.conns d).sent ++ ms ∧ t.Welcomes d ms := by
  obtain ⟨before, hbefore, hnothing⟩ : ∃ before,
      ((t.room.modify c fun _ => conn).conns d).sent = (t.room.conns d).sent ++ before ∧
        ∀ m ∈ before, m.remark = .nothing := by
    by_cases hdc : d = c
    · obtain ⟨ms, hsent, hms⟩ := hw.sent
      exact ⟨ms, by rw [hdc, Room.modify_conns_self, hsent], fun m hm => (hms m hm).remark⟩
    · rw [Room.modify_conns_of_ne _ hdc]
      exact ⟨[], (List.append_nil _).symm, fun _ hm => by cases hm⟩
  rcases ht.news he hes d with hsame | ⟨hd, halive, m, after, hsent, hafter⟩
  · refine ⟨before, hsame.trans hbefore, .inl fun m hm hnews => ?_⟩
    rw [hnothing m hm] at hnews
    cases hnews
  · refine ⟨before ++ m :: after, by rw [hsent, hbefore, List.append_assoc], .inr
      ⟨hunasked hd halive, before, m, after, rfl, hnothing, hafter⟩⟩

theorem welcomes_still {r : Room} (h : t.room.Still r) (d : ConnId) :
    ∃ ms, (r.conns d).sent = (t.room.conns d).sent ++ ms ∧ t.Welcomes d ms := by
  obtain ⟨ms, hsent, hms⟩ := h d
  exact ⟨ms, hsent, .inl hms⟩

namespace Kept

/-- While a turn of the current game is under way, nobody is asked for one. -/
theorem unasked_of_turn (h : Kept maxPlayers t) (htwo : 2 ≤ maxPlayers.toNat)
    (hbox : (t.players c).outbox = m :: rest) (htype : m.type = .takeTurn)
    {game : ValidGame} (hgame : t.room.lobby.game = some game) {i j : Nat}
    (hc : t.room.Seated i c) (hd : t.room.Seated j d) : t.Unasked d := by
  have htokens := h.tokens_eq hgame hc
  rw [tokens, hbox, List.countP_cons_of_pos (by simpa using htype)] at htokens
  have hcurrent : (t.room.conns c).id = game.getCurrentPlayer := by
    by_contra hne
    rw [if_neg hne] at htokens
    omega
  rw [if_pos hcurrent] at htokens
  have hnone : (t.players d).prompts = 0 ∧
      (t.inFlight d).countP (fun m => decide m.AsksForTurn) = 0 := by
    by_cases hdc : d = c
    · rw [hdc]
      omega
    · have hother := h.tokens_eq hgame hd
      rw [if_neg fun heq => hdc ((h.inv htwo).seats.occupant_inj hd hc
        (heq.trans hcurrent.symm)), tokens] at hother
      omega
  refine ⟨hnone.1, fun m hm hasks => ?_⟩
  exact List.countP_eq_zero.mp hnone.2 m hm (decide_eq_true hasks)

/-- When the last player says that it is ready, nobody is asked for a turn. -/
theorem unasked_of_start (h : Kept maxPlayers t)
    (hbox : (t.players c).outbox = m :: rest) (htype : m.type = .ready)
    (hgame : t.room.lobby.game = none) (halive : (t.room.conns d).isAlive = true) {j : Nat}
    (hd : t.room.Seated j d) (hready : d ≠ c → (t.room.conns d).isReady = true) :
    t.Unasked d := by
  have hphase := h.ordered.seated j d hd
  rw [hgame] at hphase
  cases hphase with
  | ready _ _ hholds =>
      obtain ⟨hdown, hprompts, _⟩ := hholds.plain
      exact unasked_of_plain hdown hprompts
  | waiting hnot hwaits =>
      have hdc : d = c := by
        by_contra hdc
        exact absurd (hnot.symm.trans (hready hdc)) (by decide)
      have hup : (t.loop d).up = .ready :: rest.map Message.up := by
        rw [hdc, Ordered.loop_up hbox, Message.up_eq_ready.mpr htype]
      obtain ⟨hdown, hprompts, _⟩ := ((hwaits halive).pop_ready hup).plain
      exact unasked_of_plain (t := t) hdown hprompts

theorem welcomes_ready (h : Kept maxPlayers t) (htwo : 2 ≤ maxPlayers.toNat) {first : UInt8}
    (hbox : (t.players c).outbox = m :: rest) (htype : m.type = .ready) {conn : Connection}
    (hi : (t.room.conns c).Idles conn) {r : Room}
    (hr : r = (t.room.modify c fun _ => conn.readied).onReady c first) (hagreed : r.Agreed)
    (d : ConnId) :
    ∃ ms, (r.conns d).sent = (t.room.conns d).sent ++ ms ∧ t.Welcomes d ms := by
  have hinv := h.inv htwo
  have hw := Room.ready_wanders hi
  have hinv₁ := hinv.modify hw.seat
  have hsame := Room.Still.modify hw
  rcases Room.onReady_cases hinv₁.seats.isOpen c first with
    ⟨_, heq⟩ | ⟨_, _, _, heq⟩ | ⟨_, _, _, _, _, heq⟩ | ⟨_, _, _, hfull, hplay, heq⟩ <;>
    obtain rfl := hr.trans heq
  · exact welcomes_still hsame d
  · exact welcomes_still (hsame.trans (Room.Still.refl _)) d
  · exact welcomes_still (hsame.trans (Room.Still.refl _)) d
  · have hgame : t.room.lobby.game = none := hinv.playing.not_game hplay
    have hnum := (beq_iff_eq.mp hfull).trans (ValidGame.standard_numPlayers
      (show 2 ≤ t.room.lobby.maxPlayers.toNat from (h.maxPlayers_eq htwo).symm ▸ htwo)
      first).symm
    obtain ⟨slots, ht⟩ := Room.opened_tells (r := (t.room.modify c fun _ => conn.readied).counted)
      (hinv₁.seats.withLobby rfl) hnum
    have ht' := (Room.counted_tells (t.room.modify c fun _ => conn.readied)).trans ht
    refine welcomes_news hw ht' trivial (fun e he => List.mem_singleton.mp he ▸ id) ?_
    intro hd halive
    obtain ⟨j, hj⟩ := hinv₁.seats.alive d hd halive
    refine h.unasked_of_start hbox htype hgame ?_ hj fun hdc => ?_
    · by_cases hdc : d = c
      · subst hdc
        rw [Room.modify_conns_self] at halive
        exact hw.seat.isAlive halive
      · rwa [Room.modify_conns_of_ne _ hdc] at halive
    · have hready := opened_all_ready hagreed (i := j) (c := d) hj
      change ((t.room.modify c fun _ => conn.readied).conns d).isReady = true at hready
      rwa [Room.modify_conns_of_ne _ hdc] at hready

theorem welcomes_turn (h : Kept maxPlayers t) (htwo : 2 ≤ maxPlayers.toNat)
    (hbox : (t.players c).outbox = m :: rest) (htype : m.type = .takeTurn)
    (hlate : (t.room.conns c).isAlive = false → t.room.lobby.isPlayingGame = false)
    (hc : c ∈ t.room.lobby.handlers) {conn : Connection}
    (hi : (t.room.conns c).Idles conn) {r : Room}
    (hr : r = (t.room.modify c fun _ => conn).onTakeTurn c (m.get 1)) (d : ConnId) :
    ∃ ms, (r.conns d).sent = (t.room.conns d).sent ++ ms ∧ t.Welcomes d ms := by
  have hinv := h.inv htwo
  have hw := hi.wanders
  have hinv₁ := hinv.modify hw.seat
  have hsame := Room.Still.modify hw
  have hunasked : ∀ {game : ValidGame}, t.room.lobby.game = some game →
      d ∈ t.room.lobby.handlers →
      ((t.room.modify c fun _ => conn).conns d).isAlive = true → t.Unasked d := by
    intro game hgame hd halive
    obtain ⟨j, hj⟩ := hinv₁.seats.alive d hd halive
    have hlive : (t.room.conns c).isAlive = true := by
      by_contra hdead
      have hplay := hlate (Bool.eq_false_iff.mpr hdead)
      exact absurd (hplay.symm.trans (hinv.playing.isPlaying hgame)) (by decide)
    obtain ⟨i, hseat⟩ := hinv.seats.alive c hc hlive
    exact h.unasked_of_turn htwo hbox htype hgame hseat hj
  rcases Room.onTakeTurn_cases hinv₁.playing c (m.get 1) with
    ⟨_, heq⟩ | ⟨game, _, _, hsucc, _, heq⟩ | ⟨_, game, hgame, _, _, _, heq⟩ |
      ⟨_, game, hgame, _, _, heq⟩ <;> obtain rfl := hr.trans heq
  · refine welcomes_still (hsame.trans ((Room.tookTurn_tells hinv₁.seats _ _ _).still ?_)) d
    exact fun e he => List.mem_singleton.mp he ▸ id
  · refine welcomes_still (hsame.trans ((Room.tookTurn_tells hinv₁.seats _ _ _).still ?_)) d
    intro e he hnews
    rw [List.mem_singleton.mp he] at hnews
    cases hresult : (game.takeTurn ((t.room.modify c fun _ => conn).conns c).getId
        (m.get 1)).2 with
    | success => exact hsucc hresult
    | _ => rw [hresult] at hnews; exact hnews
  · refine welcomes_news hw (Room.moved_tells hinv₁.seats _ _ _ _) trivial ?_ (hunasked hgame)
    exact fun e he => List.mem_singleton.mp he ▸ id
  · refine welcomes_news hw (Room.finished_tells hinv₁.seats _ _ _ _) trivial ?_ (hunasked hgame)
    exact fun e he => List.mem_singleton.mp he ▸ id

/-- Whatever the lobby does about a message, nobody gets news while it is asked. -/
theorem welcomes (h : Kept maxPlayers t) (htwo : 2 ≤ maxPlayers.toNat) {first : UInt8}
    (hbox : (t.players c).outbox = m :: rest) (hok : t.NoLateMessage (.receive c first))
    {r : Room} (hm : t.room.Moves (.read c (.message m) first none) r) (d : ConnId) :
    ∃ ms, (r.conns d).sent = (t.room.conns d).sent ++ ms ∧ t.Welcomes d ms := by
  have hagreed := h.agreed.moves (h.inv htwo) (h.fresh htwo hbox hok) hm
  cases hm with
  | idle hi _ _ => exact welcomes_still (.modify hi.wanders) d
  | outside _ hw _ _ => exact welcomes_still (.modify hw) d
  | drop _ _ _ _ hsilent _ => cases hsilent
  | ready _ hi htype _ => exact h.welcomes_ready htwo hbox htype hi rfl hagreed d
  | turn hc hi htype _ _ =>
      exact h.welcomes_turn htwo hbox htype
        (fun hdead => (hok hdead m (by rw [hbox]; rfl)).2 htype) hc hi rfl d

/-- Every step of a run without late messages leaves what is under way calm. -/
theorem settled_step (h : Kept maxPlayers t) (htwo : 2 ≤ maxPlayers.toNat) (hs : t.Settled)
    {e : TableEvent} (hok : t.NoLateMessage e) (hm : t.Moves e t') : t'.Settled := by
  have hinv := h.inv htwo
  intro d
  cases hm with
  | @room e r hsilent hstep =>
      obtain ⟨ms, hsent, hms⟩ := (Room.step_moves hinv hstep).still hinv hsilent d
      refine hs.push ?_ rfl (.inl hms)
      exact (congrArg (·.drop (t.delivered d)) hsent).trans
        (List.drop_append_of_le_length (h.ordered.delivered d))
  | @receive c first m rest r hbox hstep =>
      obtain ⟨ms, hsent, hms⟩ := h.welcomes htwo hbox hok (Room.step_moves hinv hstep) d
      refine hs.push (read_inFlight (h.ordered.delivered d) hsent) ?_ hms
      by_cases hdc : d = c
      · rw [hdc, modify_players_self]
      · rw [modify_players_of_ne _ hdc]
  | @deliver c m p hnext hhandled =>
      by_cases hdc : d = c
      · subst hdc
        have hcalm := hs d
        rw [inFlight_received hnext p] at hcalm
        obtain ⟨_, hrest⟩ := hcalm
        have hprompts : ((t.received d p).players d).prompts = p.prompts := by
          rw [received, modify_players_self]
          split <;> rfl
        rw [hprompts]
        refine hrest.mono fun hasked => ?_
        exact Player.receive_leaves hhandled (of_decide_eq_true hasked)
      · rw [received, modify_players_of_ne _ hdc]
        have hflight : (t.received c p).inFlight d = t.inFlight d := by
          show (Network.sent t.room d).drop (Function.update t.delivered c _ d) = _
          rw [Function.update_of_ne hdc]
          rfl
        exact hflight ▸ hs d
  | @sendTurn c column halive hprompted hcolumn =>
      refine (hs d).mono fun hasked => ?_
      by_cases hdc : d = c
      · subst hdc
        exact decide_eq_true hprompted
      · rwa [modify_players_of_ne _ hdc] at hasked
  | @toggleReady c halive hdue =>
      refine (hs d).mono fun hasked => ?_
      by_cases hdc : d = c
      · subst hdc
        rwa [modify_players_self] at hasked
      · rwa [modify_players_of_ne _ hdc] at hasked

/-- A player that is prompted knows its id and has the lobby's game. -/
theorem asked_sees (h : Kept maxPlayers t) (htwo : 2 ≤ maxPlayers.toNat) (hs : t.Settled)
    (halive : (t.room.conns c).isAlive = true) (hasked : 0 < (t.players c).prompts)
    {game : ValidGame} (hgame : t.room.lobby.game = some game) :
    (t.players c).client.game = some game ∧
      (t.players c).client.playerId = game.getCurrentPlayer ∧
      ∀ m ∈ t.inFlight c, m.remark ≠ .news := by
  have hinv := h.inv htwo
  have hc : c ∈ t.room.lobby.handlers := by
    by_contra hout
    have hzero := (h.ordered.stranger c hout).2.plain.2.1
    exact absurd hzero (Nat.ne_of_gt hasked)
  obtain ⟨i, hseat⟩ := hinv.seats.alive c hc halive
  have htokens := h.tokens_eq hgame hseat
  have hcurrent : (t.room.conns c).id = game.getCurrentPlayer := by
    by_contra hne
    rw [if_neg hne, tokens] at htokens
    omega
  have hid := h.identified htwo hc halive (.inl hasked)
  have hquiet : ∀ m ∈ t.inFlight c, m.remark ≠ .news := by
    have hphase := h.ordered.seated i c hseat
    rw [hgame] at hphase
    have hcalm := hs c
    rw [decide_eq_true hasked] at hcalm
    cases hphase with
    | playing _ _ hholds =>
        intro m hm hnews
        refine hcalm.no_news (fun hin => ?_) (List.mem_map.mpr ⟨m, hm, hnews⟩)
        obtain ⟨m', hm', hending⟩ := List.mem_map.mp hin
        refine hholds.done (List.mem_map.mpr ⟨m', hm', ?_⟩)
        simp [Message.down, Message.remark_ending.mp hending]
  have hrep := Network.replayed htwo h.network
  obtain ⟨cl, hrun, hfollows⟩ :=
    (Room.reaches_heard htwo hrep.sender).follow_all (c := c) hc halive
  have hall := (hrep.inFlight c).trans (Client.receive_of_follow hrun)
  refine ⟨?_, hid.trans hcurrent, hquiet⟩
  calc (t.players c).client.game
    _ = cl.game := (Client.receive_still hall hquiet).symm
    _ = some game := hfollows.game.trans (hfollows.current game hgame)

end Kept

end Table

end ConnectDisks.Net
