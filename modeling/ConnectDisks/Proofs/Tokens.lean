import ConnectDisks.Proofs.TableStep

/-!
# The turn token

While a lobby plays, one of its players has the turn: a request to it is under
way, or its user is prompted, or its answer is under way, or the refusal of its
answer. That is one token on one of the loops, and none on the others.

`Phase` says what a player's loop looks like. During a game it holds the token or
none. Between games a player that is not ready has a loop that waits: whatever was
under way when the last game ended is ahead of the ready message the player still
owes. When the lobby has read that message the loop is empty, and a game starts
only when it has read everybody's.

A dropped connection keeps its id while its slot gets a new player, and the read
it had started may still complete. If that is a turn or a ready message that
counts, a loop gets a token it did not ask for. So the runs are those in which it is
not (`NoLateMessage`).
-/

namespace ConnectDisks.Net

open ConnectDisks.Game Lib

namespace Table

/-- The requests for a turn that are under way to a player, prompt its user, or are
under way from it as answers. -/
def tokens (t : Table) (c : ConnId) : Nat :=
  (t.inFlight c).countP (fun m => decide m.AsksForTurn) + (t.players c).prompts +
    (t.players c).outbox.countP (fun m => decide (m.type = .takeTurn))

theorem loop_tokens (t : Table) (c : ConnId) : (t.loop c).tokens = t.tokens c := by
  have hdown : ∀ ms : List Message, (ms.map Message.down).count .token =
      ms.countP fun m => decide m.AsksForTurn := by
    intro ms
    rw [List.count, List.countP_map]
    refine List.countP_congr fun m _ => ?_
    simp [Message.down_eq_token]
  have hup : ∀ ms : List Message, (ms.map Message.up).count .token =
      ms.countP fun m => decide (m.type = .takeTurn) := by
    intro ms
    rw [List.count, List.countP_map]
    refine List.countP_congr fun m _ => ?_
    simp [Message.up_eq_token]
  rw [Loop.tokens, tokens, loop, hdown, hup]

/-! ## Arrangements -/

/-- Every loop of a player in a slot is as `P` says, and nothing is under way on
the loop of anybody who was not added yet. What live players send carries their
id. -/
structure Arranged (P : ConnId → Connection → Loop → Prop) (t : Table) : Prop where
  delivered : ∀ c, t.delivered c ≤ (Network.sent t.room c).length
  seated : ∀ i c, t.room.Seated i c → P c (t.room.conns c) (t.loop c)
  stranger : ∀ c ∉ t.room.lobby.handlers,
    (t.room.conns c).isReady = false ∧ (t.loop c).Holds 0
  signed : ∀ c ∈ t.room.lobby.handlers, (t.room.conns c).isAlive = true →
    ∀ m ∈ (t.players c).outbox, m.up ≠ .plain →
      m.get 0 = (t.room.conns c).id ∧ (m.type = .takeTurn → m.get 1 ≠ 255)

namespace Arranged

variable {P Q : ConnId → Connection → Loop → Prop} {t : Table}

/-- One connection changes on its own, and some of its player's messages are read. -/
theorem put {t' : Table} (h : t.Arranged P) {c : ConnId}
    {conn : Connection} {rest : List Message} (hw : (t.room.conns c).Wanders conn)
    (hroom : t'.room = t.room.modify c fun _ => conn) (hdelivered : t'.delivered = t.delivered)
    (hothers : ∀ d, d ≠ c → t'.players d = t.players d)
    (hself : t'.players c = { t.players c with outbox := rest })
    (hrest : ∀ m ∈ rest, m ∈ (t.players c).outbox)
    (hP : ∀ i d, d ≠ c → t.room.Seated i d → P d (t.room.conns d) (t.loop d) →
      Q d (t.room.conns d) (t.loop d))
    (hc : ∀ i, t.room.Seated i c → P c (t.room.conns c) (t.loop c) →
      ∀ ds : List Down, (∀ d ∈ ds, d = .plain) →
        Q c conn (((t.loop c).unread (rest.map Message.up)).push ds))
    (hout : c ∉ t.room.lobby.handlers →
      conn.isReady = false ∧ ((t.loop c).unread (rest.map Message.up)).Holds 0) :
    t'.Arranged Q := by
  obtain ⟨ms, hsent, hms⟩ := hw.sent
  have hplain : ∀ d ∈ ms.map Message.down, d = .plain := by
    intro d hd
    obtain ⟨m, hm, rfl⟩ := List.mem_map.mp hd
    exact (hms m hm).down
  have hconn : t'.room.conns c = conn := by rw [hroom, Room.modify_conns_self]
  have hconns : ∀ d, d ≠ c → t'.room.conns d = t.room.conns d := fun d hd => by
    rw [hroom, Room.modify_conns_of_ne _ hd]
  have hsent' : Network.sent t'.room c = Network.sent t.room c ++ ms := by
    rw [Network.sent, Network.sent, hconn, hsent]
  have hloop : t'.loop c =
      ((t.loop c).unread (rest.map Message.up)).push (ms.map Message.down) := by
    rw [loop, loop, Loop.unread, Loop.push, inFlight, inFlight, hself, hsent', hdelivered,
      List.drop_append_of_le_length (h.delivered c), List.map_append]
  have hloops : ∀ d, d ≠ c → t'.loop d = t.loop d := fun d hd =>
    loop_congr (by rw [Network.sent, Network.sent, hconns d hd]) (by rw [hdelivered])
      (hothers d hd)
  have hlobby : t'.room.lobby = t.room.lobby := by rw [hroom, Room.modify_lobby]
  have hseated : ∀ i d, t'.room.Seated i d ↔ t.room.Seated i d := fun i d => by
    rw [Room.Seated, Room.Seated, hlobby]
  refine ⟨fun d => ?_, fun i d hd => ?_, fun d hd => ?_, fun d hd halive m hm hup => ?_⟩
  · by_cases hdc : d = c
    · subst hdc
      rw [hsent', hdelivered, List.length_append]
      exact Nat.le_add_right_of_le (h.delivered d)
    · rw [Network.sent, hconns d hdc, hdelivered]
      exact h.delivered d
  · have hd' := (hseated i d).mp hd
    by_cases hdc : d = c
    · subst hdc
      rw [hconn, hloop]
      exact hc i hd' (h.seated i d hd') _ hplain
    · rw [hconns d hdc, hloops d hdc]
      exact hP i d hdc hd' (h.seated i d hd')
  · rw [hlobby] at hd
    by_cases hdc : d = c
    · subst hdc
      obtain ⟨hready, hholds⟩ := hout hd
      rw [hconn, hloop]
      exact ⟨hready, hholds.push_plain hplain⟩
    · rw [hconns d hdc, hloops d hdc]
      exact h.stranger d hd
  · rw [hlobby] at hd
    by_cases hdc : d = c
    · subst hdc
      rw [hconn] at halive ⊢
      rw [hself] at hm
      rw [hw.seat.id]
      exact h.signed d hd (hw.seat.isAlive halive) m (hrest m hm) hup
    · rw [hconns d hdc] at halive ⊢
      rw [hothers d hdc] at hm
      exact h.signed d hd halive m hm hup

theorem tells (h : t.Arranged P) (hs : t.room.Seats) {r : Room} {es : List Emission}
    (ht : t.room.Tells r es)
    (hsub : ∀ i d, r.Seated i d → t.room.Seated i d)
    (hP : ∀ i d, r.Seated i d → P d (t.room.conns d) (t.loop d) →
      Q d (r.conns d) ((t.loop d).push
        (((t.room.conns d).hears d es).map Message.down))) :
    ({ t with room := r } : Table).Arranged Q := by
  have hsent : ∀ d ∈ t.room.lobby.handlers, Network.sent r d =
      Network.sent t.room d ++ (t.room.conns d).hears d es := ht.heard
  have hseat : ∀ d, (r.conns d).id = (t.room.conns d).id ∧
      (r.conns d).isAlive = (t.room.conns d).isAlive := fun d =>
    ⟨congrArg (fun p => p.2.1) (ht.within.seat d), congrArg (fun p => p.2.2.2) (ht.within.seat d)⟩
  refine ⟨fun d => ?_, fun i d hd => ?_, fun d hd => ?_, fun d hd halive m hm hup => ?_⟩
  · exact Nat.le_trans (h.delivered d) (ht.sent d).length_le
  · have hd' := hsub i d hd
    have hin := (hs.seated i d hd').1
    have hloop : ({ t with room := r } : Table).loop d =
        (t.loop d).push (((t.room.conns d).hears d es).map Message.down) :=
      loop_push (h.delivered d) (hsent d hin) rfl rfl
    rw [hloop]
    exact hP i d hd (h.seated i d hd')
  · change d ∉ r.lobby.handlers at hd
    rw [ht.within.handlers] at hd
    have hsame := ht.within.others d hd
    have hloop : ({ t with room := r } : Table).loop d = t.loop d :=
      loop_congr (by rw [Network.sent, Network.sent, hsame]) rfl rfl
    rw [hloop, hsame]
    exact h.stranger d hd
  · change d ∈ r.lobby.handlers at hd
    rw [ht.within.handlers] at hd
    change (r.conns d).isAlive = true at halive
    show m.get 0 = (r.conns d).id ∧ _
    rw [(hseat d).2] at halive
    rw [(hseat d).1]
    exact h.signed d hd halive m hm hup

theorem turns {t' : Table} (h : t.Arranged P) {c : ConnId}
    (hroom : t'.room = t.room)
    (hdelivered : t'.delivered c ≤ (Network.sent t.room c).length)
    (hothers : ∀ d, d ≠ c → t'.players d = t.players d ∧ t'.delivered d = t.delivered d)
    (hturn : (t.room.conns c).isAlive = true ∨ c ∉ t.room.lobby.handlers →
      (t.loop c).Turns (t'.loop c))
    (hP : ∀ i, t.room.Seated i c → P c (t.room.conns c) (t.loop c) →
      ((t.room.conns c).isAlive = true → (t.loop c).Turns (t'.loop c)) →
        P c (t.room.conns c) (t'.loop c))
    (hsigned : c ∈ t.room.lobby.handlers → (t.room.conns c).isAlive = true →
      ∀ m ∈ (t'.players c).outbox, m.up ≠ .plain → m ∈ (t.players c).outbox ∨
        m.get 0 = (t.room.conns c).id ∧ (m.type = .takeTurn → m.get 1 ≠ 255)) :
    t'.Arranged P := by
  have hloops : ∀ d, d ≠ c → t'.loop d = t.loop d := fun d hd =>
    loop_congr (by rw [hroom]) (hothers d hd).2 (hothers d hd).1
  refine ⟨fun d => ?_, fun i d hd => ?_, fun d hd => ?_, fun d hd halive m hm hup => ?_⟩
  · by_cases hdc : d = c
    · rw [hdc, hroom]
      exact hdelivered
    · rw [hroom, (hothers d hdc).2]
      exact h.delivered d
  · rw [hroom] at hd ⊢
    by_cases hdc : d = c
    · subst hdc
      exact hP i hd (h.seated i d hd) fun halive => hturn (.inl halive)
    · rw [hloops d hdc]
      exact h.seated i d hd
  · rw [hroom] at hd ⊢
    by_cases hdc : d = c
    · subst hdc
      exact ⟨(h.stranger d hd).1, (h.stranger d hd).2.turns (hturn (.inr hd))⟩
    · rw [hloops d hdc]
      exact h.stranger d hd
  · rw [hroom] at hd halive ⊢
    by_cases hdc : d = c
    · subst hdc
      rcases hsigned hd halive m hm hup with hold | hnew
      · exact h.signed d hd halive m hold hup
      · exact hnew
    · rw [(hothers d hdc).1] at hm
      exact h.signed d hd halive m hm hup

end Arranged

/-! ## Phases -/

/-- What the loop of a player in a slot looks like, by the lobby's game. A player
that is not ready may have been dead when it was added. -/
inductive Phase (conn : Connection) (l : Loop) : Option ValidGame → Prop
  | playing {game : ValidGame} (alive : conn.isAlive = true) (ready : conn.isReady = true)
      (holds : l.Holds (if conn.id = game.getCurrentPlayer then 1 else 0)) :
      Phase conn l (some game)
  | ready (alive : conn.isAlive = true) (ready : conn.isReady = true) (holds : l.Holds 0) :
      Phase conn l none
  | waiting (ready : conn.isReady = false) (waits : conn.isAlive = true → l.Waits) :
      Phase conn l none

/-- A player whose loop is empty, about to be asked or not. -/
structure Quiet (conn : Connection) (l : Loop) : Prop where
  alive : conn.isAlive = true
  ready : conn.isReady = true
  holds : l.Holds 0

def Ordered (t : Table) : Prop :=
  t.Arranged fun _ conn l => Phase conn l t.room.lobby.game

namespace Phase

variable {conn conn' : Connection} {l l' : Loop} {game : Option ValidGame}

theorem push (h : Phase conn l game) (hid : conn'.id = conn.id)
    (halive : conn'.isAlive = conn.isAlive) (hready : conn'.isReady = conn.isReady)
    {ds : List Down} (hds : ∀ d ∈ ds, d = .plain) : Phase conn' (l.push ds) game := by
  cases h with
  | playing ha hr hh => exact .playing (halive ▸ ha) (hready ▸ hr) (hid ▸ hh.push_plain hds)
  | ready ha hr hh => exact .ready (halive ▸ ha) (hready ▸ hr) (hh.push_plain hds)
  | waiting hr hw => exact .waiting (hready ▸ hr) fun ha => (hw (halive ▸ ha)).push hds

theorem turns (h : Phase conn l game) (ht : conn.isAlive = true → l.Turns l') :
    Phase conn l' game := by
  cases h with
  | playing ha hr hh => exact .playing ha hr (hh.turns (ht ha))
  | ready ha hr hh => exact .ready ha hr (hh.turns (ht ha))
  | waiting hr hw => exact .waiting hr fun ha => (hw ha).turns (ht ha)

theorem hello (h : Phase conn l game) (halive : conn.isAlive = true)
    (hin : .hello ∈ l.down) :
    l.prompts = 0 ∧ l.due = 0 ∧ ∀ ds, l.down ≠ .token :: ds := by
  cases h with
  | playing _ _ hh => exact absurd hin hh.hello
  | ready _ _ hh => exact absurd hin hh.hello
  | waiting _ hw => exact (hw halive).hello hin

end Phase

/-- Reading these messages is harmless: none was a token or a ready message. -/
structure Harmless (l : Loop) (us : List Up) : Prop where
  holds : ∀ n, l.Holds n → (l.unread us).Holds n
  waits : l.Waits → (l.unread us).Waits

theorem Harmless.refl (l : Loop) : Harmless l l.up := ⟨fun _ h => h, fun h => h⟩

theorem Harmless.plain {l : Loop} {us : List Up} (h : l.up = .plain :: us) : Harmless l us :=
  ⟨fun _ hh => hh.pop_plain h, fun hw => hw.pop h (by decide)⟩

namespace Ordered

variable {t : Table}

theorem modify {t' : Table} (h : t.Ordered) (hs : t.room.Seats) {c : ConnId}
    {conn : Connection} {rest : List Message} (hw : (t.room.conns c).Wanders conn)
    (hready : conn.isReady = (t.room.conns c).isReady)
    (halive : c ∈ t.room.lobby.handlers → conn.isAlive = (t.room.conns c).isAlive)
    (hroom : t'.room = t.room.modify c fun _ => conn) (hdelivered : t'.delivered = t.delivered)
    (hothers : ∀ d, d ≠ c → t'.players d = t.players d)
    (hself : t'.players c = { t.players c with outbox := rest })
    (hrest : ∀ m ∈ rest, m ∈ (t.players c).outbox)
    (hread : (t.room.conns c).isAlive = true ∨ c ∉ t.room.lobby.handlers →
      Harmless (t.loop c) (rest.map Message.up)) : t'.Ordered := by
  have hgame : t'.room.lobby.game = t.room.lobby.game := by rw [hroom, Room.modify_lobby]
  rw [Ordered, hgame]
  refine h.put hw hroom hdelivered hothers hself hrest (fun _ _ _ _ hP => hP) ?_ ?_
  · intro i hi hP ds hds
    refine Phase.push ?_ hw.seat.id (halive (hs.seated i c hi).1) hready hds
    generalize t.room.lobby.game = game at hP ⊢
    cases hP with
    | playing ha hr hh => exact .playing ha hr ((hread (.inl ha)).holds _ hh)
    | ready ha hr hh => exact .ready ha hr ((hread (.inl ha)).holds _ hh)
    | waiting hr hwaits =>
        exact .waiting hr fun ha => (hread (.inl ha)).waits (hwaits ha)
  · intro hc
    obtain ⟨hnot, hholds⟩ := h.stranger c hc
    exact ⟨hready.trans hnot, (hread (.inr hc)).holds _ hholds⟩

/-- A player joins: its loop waits from the greeting on. -/
theorem addPlayer (h : t.Ordered) (hinv : t.room.Inv) {c : ConnId}
    (hjoin : t.room.Joinable c) :
    ({ t with room := t.room.addPlayer c } : Table).Ordered := by
  rcases Room.addPlayer_cases hinv.seats c with ⟨_, heq⟩ | ⟨hcan, i, _, hlt, heq⟩ <;> rw [heq]
  · exact h
  · have hnot : c ∉ t.room.lobby.handlers := fun hc => hinv.seats.not_joinable hc hjoin
    have hself := Room.admitted_conns_self hjoin i
    have hne : ∀ {d}, d ∈ t.room.lobby.handlers → d ≠ c := fun hd heq => hnot (heq ▸ hd)
    obtain ⟨hnotready, hholds⟩ := h.stranger c hnot
    obtain ⟨_, hplay, _⟩ := Room.canAddPlayers_iff.mp hcan
    have hgame : t.room.lobby.game = none := hinv.playing.not_game hplay
    have hloops : ∀ d, d ≠ c →
        ({ t with room := t.room.admitted c i } : Table).loop d = t.loop d := fun d hd =>
      loop_congr (by rw [Network.sent, Network.sent, Room.admitted_conns_of_ne _ hd]) rfl rfl
    refine ⟨fun d => ?_, fun j d hd => ?_, fun d hd => ?_, fun d hd halive m hm hup => ?_⟩
    · refine Nat.le_trans (h.delivered d) (List.IsPrefix.length_le ?_)
      have hsent := Room.addPlayer_sent hinv.seats hjoin d
      rwa [heq] at hsent
    · rcases (Room.admitted_seated c hlt).mp hd with ⟨_, rfl⟩ | ⟨_, hd'⟩
      · show Phase ((t.room.admitted d i).conns d) _ t.room.lobby.game
        rw [hgame]
        refine .waiting ?_ fun halive => ?_
        · rw [hself]
          exact hnotready
        · have halive' : (t.room.conns d).isAlive = true := by
            rw [hself] at halive
            exact halive
          have hsent : Network.sent (t.room.admitted d i) d =
              Network.sent t.room d ++ [.connected (UInt8.ofNat i + 1)] := by
            rw [Network.sent, hself]
            exact if_pos halive'
          have hloop : ({ t with room := t.room.admitted d i } : Table).loop d =
              (t.loop d).push ([Message.connected (UInt8.ofNat i + 1)].map Message.down) :=
            loop_push (h.delivered d) hsent rfl rfl
          rw [hloop]
          exact hholds.greet
      · have hdc := hne (hinv.seats.seated j d hd').1
        show Phase ((t.room.admitted c i).conns d) _ t.room.lobby.game
        rw [Room.admitted_conns_of_ne _ hdc, hloops d hdc]
        exact h.seated j d hd'
    · rcases not_or.mp (mt List.mem_append.mpr hd) with ⟨hd, hdc⟩
      have hdc : d ≠ c := by simpa using hdc
      show ((t.room.admitted c i).conns d).isReady = false ∧ _
      rw [Room.admitted_conns_of_ne _ hdc, hloops d hdc]
      exact h.stranger d hd
    · rcases List.mem_append.mp hd with hd | hd
      · change ((t.room.admitted c i).conns d).isAlive = true at halive
        show m.get 0 = ((t.room.admitted c i).conns d).id ∧ _
        rw [Room.admitted_conns_of_ne _ (hne hd)] at halive ⊢
        exact h.signed d hd halive m hm hup
      · rw [List.mem_singleton.mp hd] at hm
        exact absurd (hholds.plain.2.2 _ (List.mem_map_of_mem hm)) hup

end Ordered

/-! ## What the emissions are on a loop -/

theorem down_turnResult {result : TurnResult} {column : UInt8} :
    (Message.turnResult result column).down =
      if result = .success ∨ result = .error then .plain else .token := by
  cases result <;> rfl

theorem hears_asked {conn : Connection} {c : ConnId} (halive : conn.isAlive = true)
    {e : Emission} {m : Message} (he : e.seenBy c conn.id = some m) (hm : m.down = .plain)
    (playerId : UInt8) :
    (conn.hears c [e, .takeTurn playerId]).map Message.down =
      .plain :: if playerId = conn.id then [.token] else [] := by
  rw [Connection.hears, if_pos halive, List.filterMap_cons_some he, List.map_cons, hm]
  by_cases hp : playerId = conn.id
  · simp only [Emission.seenBy, List.filterMap_cons, hp, if_true]
    rfl
  · simp [Emission.seenBy, hp]

theorem seenBy_success (c : ConnId) (id playerId column : UInt8) :
    ∃ m, (Emission.tookTurn playerId column .success).seenBy c id = some m ∧
      m.down = .plain := by
  rw [Emission.seenBy]
  split
  · exact ⟨_, rfl, rfl⟩
  · exact ⟨_, if_pos rfl, rfl⟩

/-- A turn that was not accepted is answered to its player alone. -/
theorem hears_answered {conn : Connection} {c : ConnId} (halive : conn.isAlive = true)
    {playerId column : UInt8} {result : TurnResult} (hr : result ≠ .success) :
    (conn.hears c [.tookTurn playerId column result]).map Message.down =
      if playerId = conn.id then [if result = .error then .plain else .token] else [] := by
  rw [Connection.hears, if_pos halive]
  by_cases hp : playerId = conn.id
  · simp [Emission.seenBy, hp, down_turnResult, hr]
  · simp [Emission.seenBy, hp, hr]

theorem hears_dead {conn : Connection} {c : ConnId} (halive : conn.isAlive = false)
    (es : List Emission) : conn.hears c es = [] := by
  rw [Connection.hears, if_neg (by simp [halive])]

theorem hears_success (conn : Connection) (c : ConnId) (playerId column : UInt8) :
    ∀ d ∈ (conn.hears c [.tookTurn playerId column .success]).map Message.down,
      d = .plain := by
  cases halive : conn.isAlive with
  | false =>
      rw [hears_dead halive]
      exact fun _ hd => absurd hd List.not_mem_nil
  | true =>
      obtain ⟨m, hm, hplain⟩ := seenBy_success c conn.id playerId column
      rw [Connection.hears, if_pos halive, List.filterMap_cons_some hm]
      intro d hd
      rw [List.mem_singleton.mp hd]
      exact hplain

theorem holds_asked {l : Loop} (h : l.Holds 0) (id playerId : UInt8) :
    (l.push (.plain :: if playerId = id then [.token] else [])).Holds
      (if id = playerId then 1 else 0) := by
  by_cases hp : playerId = id
  · rw [if_pos hp, if_pos hp.symm]
    exact h.push (by simp) (by simp)
  · rw [if_neg hp, if_neg (Ne.symm hp)]
    exact h.push (by simp) (by simp)

/-! ## The lobby's methods -/

section Methods

variable {t : Table}

/-- A game starts among players that are ready, and the first is asked. -/
theorem opened_ordered (h : t.Arranged fun _ => Quiet) (hs : t.room.Seats) {game : ValidGame}
    (hn : t.room.lobby.numPlayers = game.state.numPlayers) :
    ({ t with room := t.room.opened game } : Table).Ordered := by
  obtain ⟨slots, ht⟩ := Room.opened_tells hs hn
  refine h.tells hs ht (fun _ _ hd => hd) fun i d hd hq => ?_
  have hseat := Connection.KeepsSeat.of_seat (ht.within.seat d)
  show Phase ((t.room.opened game).conns d) _ (some game)
  refine .playing ?_ ?_ ?_
  · exact (Connection.KeepsSeat.of_seat (ht.within.seat d).symm).isAlive hq.alive
  · rw [Room.opened, Room.takeTurn,
      Room.emit_isReady _ _ fun c => c.onTurn_isReady _, Room.gameStarted,
      Room.emit_isReady _ _ fun c => c.onGameStart_isReady _ _]
    exact hq.ready
  · rw [hears_asked hq.alive (e := .gameStarted game slots) rfl rfl, hseat.id]
    exact holds_asked hq.holds _ _

theorem error_ordered (h : t.Ordered) (hs : t.room.Seats) (playerId column : UInt8) :
    ({ t with room := t.room.tookTurn playerId column .error } : Table).Ordered := by
  have ht := Room.tookTurn_tells hs playerId column .error
  refine h.tells hs ht (fun _ _ hd => hd) fun i d hd hP => ?_
  have hseat := ht.within.seat d
  refine hP.push (congrArg (fun p => p.2.1) hseat) (congrArg (fun p => p.2.2.2) hseat) ?_ ?_
  · exact Room.emit_isReady _ _ (fun c => c.onUpdate_isReady _ _ _) d
  · cases halive : (t.room.conns d).isAlive with
    | false => rw [hears_dead halive]; exact fun _ hd => by cases hd
    | true =>
        rw [hears_answered halive (by decide)]
        split <;> simp

theorem refused_ordered (h : t.Arranged fun _ => Quiet) (hs : t.room.Seats)
    {game : ValidGame} (hgame : t.room.lobby.game = some game) {column : UInt8}
    {result : TurnResult} (hsucc : result ≠ .success) (herr : result ≠ .error) :
    ({ t with room := t.room.tookTurn game.getCurrentPlayer column result } : Table).Ordered := by
  have ht := Room.tookTurn_tells hs game.getCurrentPlayer column result
  refine h.tells hs ht (fun _ _ hd => hd) fun i d hd hq => ?_
  show Phase _ _ t.room.lobby.game
  rw [hgame]
  have hid : ((t.room.tookTurn game.getCurrentPlayer column result).conns d).id =
      (t.room.conns d).id := congrArg (fun p => p.2.1) (ht.within.seat d)
  refine .playing ?_ ?_ ?_
  · exact (Connection.KeepsSeat.of_seat (ht.within.seat d).symm).isAlive hq.alive
  · exact (Room.emit_isReady _ _ (fun c => c.onUpdate_isReady _ _ _) d).trans hq.ready
  · rw [hears_answered hq.alive hsucc, if_neg herr, hid]
    by_cases hp : game.getCurrentPlayer = (t.room.conns d).id
    · rw [if_pos hp, if_pos hp.symm]
      exact hq.holds.push (by simp) (by simp)
    · rw [if_neg hp, if_neg (Ne.symm hp), Loop.push_nil]
      exact hq.holds

theorem moved_ordered (h : t.Arranged fun _ => Quiet) (hs : t.room.Seats)
    (game : ValidGame) (playerId column : UInt8) :
    ({ t with room := ((t.room.withGame (some game)).tookTurn playerId column
      .success).takeTurn game.getCurrentPlayer } : Table).Ordered := by
  have ht := Room.moved_tells hs (some game) playerId column game.getCurrentPlayer
  refine h.tells hs ht (fun _ _ hd => hd) fun i d hd hq => ?_
  have hseat := ht.within.seat d
  show Phase _ _ (some game)
  refine .playing ?_ ?_ ?_
  · exact (Connection.KeepsSeat.of_seat hseat.symm).isAlive hq.alive
  · rw [Room.takeTurn, Room.emit_isReady _ _ fun c => c.onTurn_isReady _, Room.tookTurn,
      Room.emit_isReady _ _ fun c => c.onUpdate_isReady _ _ _]
    exact hq.ready
  · obtain ⟨m, hm, hplain⟩ := seenBy_success d (t.room.conns d).id playerId column
    rw [hears_asked hq.alive hm hplain, (Connection.KeepsSeat.of_seat hseat).id]
    exact holds_asked hq.holds _ _

/-- The game ends: whatever is under way is void, and everybody waits. -/
theorem gameOver_ordered {P : ConnId → Connection → Loop → Prop} (h : t.Arranged P)
    (hs : t.room.Seats) (winner : UInt8)
    (hP : ∀ i c, t.room.Seated i c → P c (t.room.conns c) (t.loop c) →
      (t.room.conns c).isAlive = true → ∃ n, (t.loop c).Holds n) :
    ({ t with room := t.room.gameOver winner } : Table).Ordered := by
  have ht := Room.gameOver_tells hs winner
  refine h.tells hs ht (fun _ _ hd => hd) fun i d hd hPd => ?_
  refine .waiting (Room.gameOver_isReady hs winner hd) fun halive => ?_
  have halive' : (t.room.conns d).isAlive = true :=
    (Connection.KeepsSeat.of_seat (ht.within.seat d)).isAlive halive
  obtain ⟨n, hholds⟩ := hP i d hd hPd halive'
  have hears : ((t.room.conns d).hears d [.gameEnded winner]).map Message.down = [.done] := by
    rw [Connection.hears, if_pos halive']
    rfl
  rw [hears]
  exact hholds.push_done

end Methods

end Table

end ConnectDisks.Net
