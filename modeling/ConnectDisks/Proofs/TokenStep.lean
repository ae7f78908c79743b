import ConnectDisks.Proofs.Tokens

/-!
# What the lobby does to the loops

Of the events of the lobby two carry the argument that the loops stay in order. A
ready message that starts a game was the last one missing, so all the loops are
empty when the first player is asked (`Ordered.ready`). And a turn that is read
during a game brings the token back to the lobby: it was the current player's,
since no other loop had one (`Ordered.turn`). That is also why no turn is answered
with `wrongPlayer`.
-/

namespace ConnectDisks.Net

open ConnectDisks.Game Lib

namespace Table

/-- No turn was ever answered with `wrongPlayer`. -/
def Answers (r : Room) : Prop :=
  ∀ playerId column, .tookTurn playerId column .wrongPlayer ∉ r.lobby.trace

theorem Answers.mono {r r' : Room} (h : Answers r)
    (htrace : ∀ playerId column, .tookTurn playerId column .wrongPlayer ∈ r'.lobby.trace →
      .tookTurn playerId column .wrongPlayer ∈ r.lobby.trace) : Answers r' :=
  fun playerId column hin => h playerId column (htrace playerId column hin)

theorem Answers.tells {r r' : Room} (h : Answers r) {es : List Emission} (ht : r.Tells r' es)
    (hes : ∀ playerId column, .tookTurn playerId column .wrongPlayer ∉ es) : Answers r' := by
  refine h.mono fun playerId column hin => ?_
  rw [ht.trace] at hin
  exact (List.mem_append.mp hin).resolve_right (hes playerId column)

theorem Answers.addPlayer {r : Room} (h : Answers r) (hs : r.Seats) (c : ConnId) :
    Answers (r.addPlayer c) := by
  rcases Room.addPlayer_cases hs c with ⟨_, heq⟩ | ⟨_, i, _, _, heq⟩ <;> rw [heq]
  · exact h
  · exact h.mono fun _ _ hin => by simpa [Room.admitted] using hin

theorem Answers.ended {r : Room} (h : Answers r) : Answers r.ended := by
  rw [Room.ended]
  split
  · exact h
  · exact h.mono fun _ _ hin => by simpa [Room.gameOver, Room.gameEnded] using hin

theorem Answers.onReady {r : Room} (h : Answers r) (hs : r.Seats) (c : ConnId)
    (first : UInt8) : Answers (r.onReady c first) := by
  rcases Room.onReady_cases hs.isOpen c first with
    ⟨_, heq⟩ | ⟨_, _, _, heq⟩ | ⟨_, _, _, _, _, heq⟩ | ⟨_, _, _, _, _, heq⟩ <;> rw [heq]
  · exact h
  · exact h
  · exact h
  · refine h.mono fun _ _ hin => ?_
    simpa [Room.opened, Room.takeTurn, Room.gameStarted, Room.counted] using hin

theorem Answers.room {r r' : Room} (h : Answers r) (hinv : r.Inv) {e : RoomEvent}
    (hsilent : e.message? = none) (hm : r.Moves e r') : Answers r' := by
  cases hm with
  | idle _ _ _ => exact h
  | outside _ _ _ _ => exact h
  | join _ => exact h.addPlayer hinv.seats _
  | ready _ _ _ _ => cases hsilent
  | turn _ _ _ _ _ => cases hsilent
  | @drop e c conn i refill hc _ hi _ _ _ =>
      have hleft : Answers ((r.modify c fun _ => conn.dropped).vacated c i).ended :=
        Answers.ended (r := (r.modify c fun _ => conn.dropped).vacated c i) h
      cases refill with
      | none => exact hleft
      | some d => exact hleft.addPlayer (hinv.dropped hc hi).seats d

theorem opened_all_ready {r : Room} {game : ValidGame} (h : (r.opened game).Agreed) {i : Nat}
    {c : ConnId} (hc : r.Seated i c) : (r.conns c).isReady = true := by
  have hin : .gameStarted game r.slots ∈ (r.opened game).lobby.trace := by
    simp [Room.opened, Room.takeTurn, Room.gameStarted, Room.slots]
  have hslot : r.slots[i]? = some (some (r.conns c).isReady) := by
    rw [Room.slots, List.getElem?_map, show r.lobby.players[i]? = some (some c) from hc]
    rfl
  rw [h.starts _ _ hin, List.getElem?_replicate] at hslot
  split at hslot
  · exact (Option.some.inj (Option.some.inj hslot)).symm
  · cases hslot

namespace Ordered

variable {t : Table}

/-- What is read off a loop is the first message of the outbox. -/
theorem loop_up {c : ConnId} {m : Message} {rest : List Message}
    (hbox : (t.players c).outbox = m :: rest) :
    (t.loop c).up = m.up :: rest.map Message.up := by
  rw [loop, hbox]
  rfl

theorem ended (h : t.Ordered) (hs : t.room.Seats) :
    ({ t with room := t.room.ended } : Table).Ordered := by
  rw [Room.ended]
  split
  · exact h
  · next game hgame =>
      refine gameOver_ordered h hs _ fun i c _ hP _ => ?_
      rw [hgame] at hP
      cases hP with
      | playing _ _ hh => exact ⟨_, hh⟩

theorem drop (h : t.Ordered) (hinv : t.room.Inv) {c : ConnId} {conn : Connection} {i : Nat}
    {refill : Option ConnId} (hc : t.room.Seated i c) (hi : (t.room.conns c).Idles conn)
    (hjoin : ∀ d ∈ refill, t.room.Joinable d) :
    ({ t with room := (((t.room.modify c fun _ => conn.dropped).vacated c
      i).ended).onLobbyAvailable refill } : Table).Ordered := by
  have hw := Room.dropped_wanders hi
  have hin := (hinv.seats.seated i c hc).1
  have hdead : ((t.room.modify c fun _ => conn.dropped).conns c).isAlive = false := by
    rw [Room.modify_conns_self]
    rfl
  have hinv₁ := hinv.modify hw.seat
  have hvacant := hinv₁.seats.vacated hc hdead
  have h₁ : ({ t with room := t.room.modify c fun _ => conn.dropped } : Table).Arranged
      fun d conn l => d ≠ c → Phase conn l t.room.lobby.game :=
    h.put hw rfl rfl (fun _ _ => rfl) rfl (fun _ hm => hm) (fun _ _ _ _ hP _ => hP)
      (fun _ _ _ _ _ hne => absurd rfl hne) (fun hout => absurd hin hout)
  have h₂ : ({ t with room := (t.room.modify c fun _ => conn.dropped).vacated c i } :
      Table).Ordered := by
    have hseated := fun {j d} => Room.vacated_seated (r := t.room.modify c fun _ => conn.dropped)
      c (Room.Seats.seated_lt hc) (j := j) (d := d)
    refine h₁.tells hinv₁.seats (.of_lobby rfl rfl rfl rfl)
      (fun j d hd => (hseated.mp hd).2) fun j d hd hP => ?_
    obtain ⟨hji, hd'⟩ := hseated.mp hd
    have hdc : d ≠ c := by
      rintro rfl
      exact hji ((hinv₁.seats.seated_inj hd' hc).mp rfl)
    exact (hP hdc).push rfl rfl rfl (by simp)
  have h₃ := h₂.ended hvacant
  cases refill with
  | none => exact h₃
  | some d => exact h₃.addPlayer (hinv.dropped hc hi) ((hjoin d rfl).left hinv.seats hc)

theorem room (h : t.Ordered) (hinv : t.room.Inv) {e : RoomEvent} {r : Room}
    (hsilent : e.message? = none) (hm : t.room.Moves e r) :
    ({ t with room := r } : Table).Ordered := by
  cases hm with
  | idle hi _ _ =>
      exact h.modify hinv.seats hi.wanders hi.isReady (fun _ => hi.isAlive) rfl rfl
        (fun _ _ => rfl) rfl (fun _ hm => hm) fun _ => Harmless.refl _
  | @outside e c conn hc hw _ hready =>
      refine h.modify hinv.seats hw (hready.resolve_right ?_) (fun hin => absurd hin hc) rfl rfl
        (fun _ _ => rfl) rfl (fun _ hm => hm) fun _ => Harmless.refl _
      rintro ⟨m, he, _⟩
      rw [hsilent] at he
      cases he
  | join hjoin => exact h.addPlayer hinv hjoin
  | ready _ _ _ _ => cases hsilent
  | turn _ _ _ _ _ => cases hsilent
  | drop hc _ hi hjoin _ _ => exact h.drop hinv hc hi hjoin

/-- A ready message that finds somebody comes from a player of the lobby that was
not ready, between games. -/
theorem waits (h : t.Ordered) (hs : t.room.Seats) {c : ConnId} {us : List Up}
    (hup : (t.loop c).up = .ready :: us) (hc : c ∈ t.room.lobby.handlers)
    (hlate : (t.room.conns c).isAlive = false →
      t.room.findPlayer (t.room.conns c).id = none)
    (hfound : t.room.findPlayer (t.room.conns c).id ≠ none) :
    t.room.lobby.game = none ∧ (t.room.conns c).isAlive = true ∧
      (t.room.conns c).isReady = false ∧ (t.loop c).Waits ∧ ∃ i, t.room.Seated i c := by
  have halive : (t.room.conns c).isAlive = true := by
    by_contra hdead
    exact hfound (hlate (Bool.eq_false_iff.mpr hdead))
  obtain ⟨i, hi⟩ := hs.alive c hc halive
  have hphase := h.seated i c hi
  generalize t.room.lobby.game = game at hphase ⊢
  cases hphase with
  | playing _ _ hh => exact absurd hup hh.not_ready
  | ready _ _ hh => exact absurd hup hh.not_ready
  | waiting hnot hwaits => exact ⟨rfl, halive, hnot, hwaits halive, i, hi⟩

theorem ready (h : t.Ordered) (hinv : t.room.Inv) (htwo : 2 ≤ t.room.lobby.maxPlayers.toNat)
    {c : ConnId} {first : UInt8} {m : Message} {rest : List Message} {conn : Connection}
    (hbox : (t.players c).outbox = m :: rest) (hc : c ∈ t.room.lobby.handlers)
    (hi : (t.room.conns c).Idles conn) (htype : m.type = .ready)
    (hlate : (t.room.conns c).isAlive = false →
      t.room.findPlayer (t.room.conns c).id = none)
    (hagreed : ((t.room.modify c fun _ => conn.readied).onReady c first).Agreed) :
    ({ t with room := (t.room.modify c fun _ => conn.readied).onReady c first }.modify c
      fun p => { p with outbox := rest }).Ordered := by
  have hw := Room.ready_wanders hi
  have hinv₁ := hinv.modify hw.seat
  have hup : (t.loop c).up = .ready :: rest.map Message.up := by
    rw [loop_up hbox, Message.up_eq_ready.mpr htype]
  have hrest : ∀ m' ∈ rest, m' ∈ (t.players c).outbox := fun m' hm' =>
    hbox ▸ List.mem_cons_of_mem m hm'
  have hwaits := h.waits hinv.seats hup hc hlate
  have h₁ : ({ t with room := t.room.modify c fun _ => conn.readied }.modify c
      fun p => { p with outbox := rest }).Ordered := by
    refine h.put hw rfl rfl (fun d hd => modify_players_of_ne _ hd _) (modify_players_self ..)
      hrest (fun _ _ _ _ hP => hP) ?_ fun hout => absurd hc hout
    intro i hseat _ ds hds
    have hfound := hinv.seats.findPlayer_of_seated hseat
    rw [Connection.getId] at hfound
    obtain ⟨hgame, halive, _, hwaits, _⟩ := hwaits (by rw [hfound]; simp)
    show Phase _ _ t.room.lobby.game
    rw [hgame]
    exact .ready (hi.isAlive.trans halive) rfl ((hwaits.pop_ready hup).push_plain hds)
  rcases Room.onReady_cases hinv₁.seats.isOpen c first with
    ⟨_, heq⟩ | ⟨i, _, _, heq⟩ | ⟨i, hfound, _, _, hplay, _⟩ | ⟨i, _, _, hfull, hplay, heq⟩
  · rw [heq]
    exact h₁
  · rw [heq]
    exact h₁.tells hinv₁.seats (Room.counted_tells _) (fun _ _ hd => hd) fun _ _ _ hP =>
      hP.push rfl rfl rfl (by simp)
  · rw [Room.modify_conns_self, show conn.readied.getId = (t.room.conns c).id from hi.id,
      Room.modify_findPlayer hw.seat] at hfound
    have hnone := (hwaits (by rw [hfound]; simp)).1
    exact absurd ((hinv.playing.not_playing hnone).symm.trans hplay) (by decide)
  · rw [heq] at hagreed ⊢
    have hgame : t.room.lobby.game = none := hinv.playing.not_game hplay
    have hquiet : ({ t with room := (t.room.modify c fun _ => conn.readied).counted }.modify c
        fun p => { p with outbox := rest }).Arranged fun _ => Quiet := by
      refine h₁.tells hinv₁.seats (Room.counted_tells _) (fun _ _ hd => hd)
        fun j d hd hP => ?_
      have hready := opened_all_ready hagreed hd
      change Phase _ _ t.room.lobby.game at hP
      rw [hgame] at hP
      cases hP with
      | ready ha hr hh => exact ⟨ha, hr, hh.push_plain (by simp)⟩
      | waiting hr _ => exact absurd (hr.symm.trans hready) (by decide)
    refine opened_ordered hquiet (hinv₁.seats.withLobby rfl) ?_
    exact (beq_iff_eq.mp hfull).trans (ValidGame.standard_numPlayers htwo first).symm

/-- A turn is read while nobody plays: the game it was meant for is over. -/
theorem turn_between (h : t.Ordered) {c : ConnId} {us : List Message}
    {conn : Connection} (hup : (t.loop c).up = .token :: us.map Message.up)
    (hrest : ∀ m ∈ us, m ∈ (t.players c).outbox) (hc : c ∈ t.room.lobby.handlers)
    (hi : (t.room.conns c).Idles conn) (hgame : t.room.lobby.game = none) :
    ({ t with room := t.room.modify c fun _ => conn }.modify c
      fun p => { p with outbox := us }).Ordered := by
  refine h.put hi.wanders rfl rfl (fun d hd => modify_players_of_ne _ hd _)
    (modify_players_self ..) hrest (fun _ _ _ _ hP => hP) ?_ fun hout => absurd hc hout
  intro i _ hP ds hds
  show Phase _ _ t.room.lobby.game
  rw [hgame] at hP ⊢
  cases hP with
  | ready _ _ hh =>
      obtain ⟨k, hk, _⟩ := hh.pop_token hup
      cases hk
  | waiting hnot hwaits =>
      refine .waiting (hi.isReady.trans hnot) fun halive => ?_
      exact ((hwaits (hi.isAlive ▸ halive)).pop hup (by decide)).push hds

/-- A turn is read during a game: it was the current player's, and it was the only
token. -/
theorem turn_during (h : t.Ordered) (hinv : t.room.Inv) {c : ConnId} {us : List Message}
    {conn : Connection} (hup : (t.loop c).up = .token :: us.map Message.up)
    (hrest : ∀ m ∈ us, m ∈ (t.players c).outbox) (hc : c ∈ t.room.lobby.handlers)
    (hi : (t.room.conns c).Idles conn) {game : ValidGame} (hgame : t.room.lobby.game = some game)
    (halive : (t.room.conns c).isAlive = true) :
    (t.room.conns c).id = game.getCurrentPlayer ∧
      ({ t with room := t.room.modify c fun _ => conn }.modify c
        fun p => { p with outbox := us }).Arranged fun _ => Quiet := by
  have hphase : ∀ i d, t.room.Seated i d → (t.room.conns d).isAlive = true ∧
      (t.room.conns d).isReady = true ∧
      (t.loop d).Holds (if (t.room.conns d).id = game.getCurrentPlayer then 1 else 0) := by
    intro i d hd
    have hP := h.seated i d hd
    rw [hgame] at hP
    cases hP with
    | playing ha hr hh => exact ⟨ha, hr, hh⟩
  obtain ⟨i, hseat⟩ := hinv.seats.alive c hc halive
  obtain ⟨k, hk, hpopped⟩ := (hphase i c hseat).2.2.pop_token hup
  have hcurrent : (t.room.conns c).id = game.getCurrentPlayer := by
    by_contra hne
    rw [if_neg hne] at hk
    cases hk
  rw [if_pos hcurrent] at hk
  obtain rfl : k = 0 := by omega
  refine ⟨hcurrent, h.put hi.wanders rfl rfl (fun d hd => modify_players_of_ne _ hd _)
    (modify_players_self ..) hrest ?_ ?_ fun hout => absurd hc hout⟩
  · intro j d hdc hd _
    obtain ⟨ha, hr, hh⟩ := hphase j d hd
    refine ⟨ha, hr, ?_⟩
    rwa [if_neg] at hh
    exact fun heq => hdc (hinv.seats.occupant_inj hd hseat (heq.trans hcurrent.symm))
  · intro j hj _ ds hds
    exact ⟨hi.isAlive.trans halive, hi.isReady.trans (hphase j c hj).2.1,
      hpopped.push_plain hds⟩

theorem turn (h : t.Ordered) (hinv : t.room.Inv) {c : ConnId} {column : UInt8} {m : Message}
    {rest : List Message} {conn : Connection}
    (hbox : (t.players c).outbox = m :: rest) (hc : c ∈ t.room.lobby.handlers)
    (hi : (t.room.conns c).Idles conn) (htype : m.type = .takeTurn)
    (hlate : (t.room.conns c).isAlive = false → t.room.lobby.isPlayingGame = false)
    (hans : Answers t.room) :
    ({ t with room := (t.room.modify c fun _ => conn).onTakeTurn c column }.modify c
      fun p => { p with outbox := rest }).Ordered ∧
    Answers ((t.room.modify c fun _ => conn).onTakeTurn c column) := by
  have hinv₁ := hinv.modify hi.keepsSeat
  have hup : (t.loop c).up = .token :: rest.map Message.up := by
    rw [loop_up hbox, Message.up_eq_token.mpr htype]
  have hrest : ∀ m' ∈ rest, m' ∈ (t.players c).outbox := fun m' hm' =>
    hbox ▸ List.mem_cons_of_mem m hm'
  have hans₁ : Answers (t.room.modify c fun _ => conn) := hans
  have hid : ((t.room.modify c fun _ => conn).conns c).getId = (t.room.conns c).id := by
    rw [Room.modify_conns_self]
    exact hi.id
  have hduring : ∀ {game : ValidGame}, t.room.lobby.game = some game →
      (t.room.conns c).id = game.getCurrentPlayer ∧
      ({ t with room := t.room.modify c fun _ => conn }.modify c
        fun p => { p with outbox := rest }).Arranged fun _ => Quiet := by
    intro game hgame
    refine h.turn_during hinv hup hrest hc hi hgame ?_
    by_contra hdead
    have hplay := hlate (Bool.eq_false_iff.mpr hdead)
    exact absurd (hplay.symm.trans (hinv.playing.isPlaying hgame)) (by decide)
  rcases Room.onTakeTurn_cases hinv₁.playing c column with
    ⟨hplay, heq⟩ | ⟨game, hgame, _, hsucc, herr, heq⟩ |
      ⟨game, game', hgame, hturn, _, _, heq⟩ | ⟨game, game', hgame, hturn, _, heq⟩ <;>
    rw [heq]
  · have hnone : t.room.lobby.game = none := hinv.playing.not_game hplay
    refine ⟨error_ordered (h.turn_between hup hrest hc hi hnone) hinv₁.seats _ _, ?_⟩
    exact hans₁.tells (Room.tookTurn_tells hinv₁.seats _ _ _) (by simp)
  · obtain ⟨hcurrent, hquiet⟩ := hduring hgame
    rw [hid, hcurrent] at hsucc herr ⊢
    refine ⟨refused_ordered hquiet hinv₁.seats hgame hsucc herr,
      hans₁.tells (Room.tookTurn_tells hinv₁.seats _ _ _) ?_⟩
    intro playerId column' hin
    simp only [List.mem_singleton, Emission.tookTurn.injEq] at hin
    rcases game.takeTurn_cases game.getCurrentPlayer column with
      ⟨_, _, _, _, _, hwrong⟩ | ⟨hsuccess, _⟩
    · exact (hwrong.mp hin.2.2.symm).2 rfl
    · exact hsucc hsuccess
  · have hquiet := (hduring hgame).2
    refine ⟨moved_ordered hquiet hinv₁.seats game' _ _, ?_⟩
    exact hans₁.tells (Room.moved_tells hinv₁.seats _ _ _ _) (by simp)
  · have hquiet := (hduring hgame).2
    have hseats := hinv₁.seats.withGame (some game')
    have ht := Room.accepted_tells hinv₁.seats (some game')
      ((t.room.modify c fun _ => conn).conns c).getId column
    have hempty := hquiet.tells (Q := fun _ _ l => l.Holds 0) hinv₁.seats ht
      (fun _ _ hd => hd) fun i d _ hq => hq.holds.push_plain (hears_success _ _ _ _)
    refine ⟨gameOver_ordered hempty (hseats.tookTurn _ _ _) _ fun _ _ _ hh _ => ⟨0, hh⟩, ?_⟩
    exact hans₁.tells (Room.finished_tells hinv₁.seats _ _ _ _) (by simp)

end Ordered

end Table

end ConnectDisks.Net
