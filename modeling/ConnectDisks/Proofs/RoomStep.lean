import ConnectDisks.Proofs.RoomInv

/-!
# What one event does to a lobby

`Moves` lists everything an event can do to a room in which the representation
invariant holds; `step_moves` says the list is complete. From here on no proof
about the lobby unfolds `Room.step`.

Where an event reads a message the list is exact: the room idles only if the
message is not one its connection heeds. That is what lets a later proof count
the messages that were acted on.
-/

namespace ConnectDisks.Net

open ConnectDisks.Game Lib

/-- The message an event reads, and on which connection. -/
def RoomEvent.message? : RoomEvent → Option (ConnId × Message)
  | .read c (.message m) _ _ => some (c, m)
  | _ => none

/-- The connections an event adds to the lobby if it can. -/
def RoomEvent.joins : RoomEvent → Option ConnId
  | .join c => some c
  | .read _ _ _ refill => refill
  | .tick _ _ refill => refill
  | _ => none

/-- What may happen to a connection that is not in the lobby: it may turn ready
or be dropped, and be told its place in the queue. -/
structure Connection.Wanders (c c' : Connection) : Prop where
  seat : c.KeepsSeat c'
  sent : ∃ ms, c'.sent = c.sent ++ ms ∧ ∀ m ∈ ms, m.Housekeeping

theorem Connection.Idles.keepsSeat {c c' : Connection} (h : c.Idles c') : c.KeepsSeat c' :=
  .of_seat h.seat

theorem Connection.Idles.wanders {c c' : Connection} (h : c.Idles c') : c.Wanders c' :=
  ⟨h.keepsSeat, h.sent⟩

namespace Room

@[simp] theorem modify_lobby (r : Room) (c : ConnId) (f : Connection → Connection) :
    (r.modify c f).lobby = r.lobby := rfl

@[simp] theorem modify_conns_self (r : Room) (c : ConnId) (f : Connection → Connection) :
    (r.modify c f).conns c = f (r.conns c) :=
  Function.update_self ..

theorem modify_conns_of_ne (r : Room) {c d : ConnId} (h : d ≠ c)
    (f : Connection → Connection) : (r.modify c f).conns d = r.conns d :=
  Function.update_of_ne h ..

inductive Moves (r : Room) : RoomEvent → Room → Prop
  | idle {e : RoomEvent} {c : ConnId} {conn : Connection}
      (idles : (r.conns c).Idles conn)
      (own : ∀ d m, e.message? = some (d, m) → d = c)
      (unheeded : ∀ d m, e.message? = some (d, m) → d ∈ r.lobby.handlers →
        ¬ (r.conns d).Heeds m) :
      Moves r e (r.modify c fun _ => conn)
  | outside {e : RoomEvent} {c : ConnId} {conn : Connection} (out : c ∉ r.lobby.handlers)
      (wanders : (r.conns c).Wanders conn)
      (own : ∀ d m, e.message? = some (d, m) → d = c)
      (ready : conn.isReady = (r.conns c).isReady ∨
        ∃ m, e.message? = some (c, m) ∧ m.type = .ready) :
      Moves r e (r.modify c fun _ => conn)
  | join {c : ConnId} (joinable : r.Joinable c) : Moves r (.join c) (r.addPlayer c)
  | ready {c : ConnId} {m : Message} {first : UInt8} {refill : Option ConnId}
      {conn : Connection} (mem : c ∈ r.lobby.handlers) (idles : (r.conns c).Idles conn)
      (type : m.type = .ready) (id : m.get 0 = (r.conns c).id) :
      Moves r (.read c (.message m) first refill)
        ((r.modify c fun _ => conn.readied).onReady c first)
  | turn {c : ConnId} {m : Message} {first : UInt8} {refill : Option ConnId}
      {conn : Connection} (mem : c ∈ r.lobby.handlers) (idles : (r.conns c).Idles conn)
      (type : m.type = .takeTurn) (id : m.get 0 = (r.conns c).id)
      (column : m.get 1 ≠ 255) :
      Moves r (.read c (.message m) first refill)
        ((r.modify c fun _ => conn).onTakeTurn c (m.get 1))
  | drop {e : RoomEvent} {c : ConnId} {conn : Connection} {i : Nat}
      {refill : Option ConnId} (seated : r.Seated i c)
      (alive : (r.conns c).isAlive = true) (idles : (r.conns c).Idles conn)
      (joinable : ∀ d ∈ refill, r.Joinable d) (silent : e.message? = none)
      (joins : e.joins = refill) :
      Moves r e
        ((((r.modify c fun _ => conn.dropped).vacated c
          i).ended).onLobbyAvailable refill)

/-! ## The parts keep the invariant -/

theorem Inv.modify {r : Room} (h : r.Inv) {c : ConnId} {conn : Connection}
    (hseat : (r.conns c).KeepsSeat conn) : (r.modify c fun _ => conn).Inv := by
  refine ⟨h.seats.congr_all rfl fun d => ?_, h.playing⟩
  by_cases hd : d = c
  · rw [hd, modify_conns_self]
    exact hseat
  · rw [modify_conns_of_ne r hd]
    exact .refl _

theorem modify_findPlayer {r : Room} {c : ConnId} {conn : Connection}
    (hseat : (r.conns c).KeepsSeat conn) (id : UInt8) :
    (r.modify c fun _ => conn).findPlayer id = r.findPlayer id := by
  refine findPlayer_congr ?_ (fun d => ?_) id
  · rfl
  · by_cases hd : d = c
    · rw [hd, modify_conns_self, hseat.id]
    · rw [modify_conns_of_ne r hd]

theorem Inv.addPlayer {r : Room} (h : r.Inv) {c : ConnId} (hjoin : r.Joinable c) :
    (r.addPlayer c).Inv := by
  rcases addPlayer_cases h.seats c with ⟨_, heq⟩ | ⟨hcan, i, hnull, hlt, heq⟩ <;> rw [heq]
  · exact h
  · refine ⟨h.seats.admitted hjoin hnull hlt, ?_⟩
    obtain ⟨_, hplay, _⟩ := canAddPlayers_iff.mp hcan
    exact .of_not hplay (h.playing.not_game hplay) h.playing.defined

theorem Inv.onReady {r : Room} (h : r.Inv) (c : ConnId) (first : UInt8) :
    (r.onReady c first).Inv := by
  have hcounted : r.counted.Seats := h.seats.withLobby rfl
  have hnum : 2 ≤ r.lobby.maxPlayers.toNat → _ := fun htwo =>
    ValidGame.standard_numPlayers htwo first
  rcases onReady_cases h.seats.isOpen c first with
    ⟨_, heq⟩ | ⟨i, _, _, heq⟩ | ⟨i, _, _, hfull, hplay, heq⟩ | ⟨i, _, _, hfull, hplay, heq⟩ <;>
    rw [heq]
  · exact h
  · exact ⟨hcounted, h.playing.congr rfl rfl rfl rfl rfl⟩
  · refine ⟨hcounted.withLobby rfl, ?_⟩
    exact .of_game hplay rfl hfull (ValidGame.standard_hasWinner _ _)
      (ValidGame.standard_boardFull _ _) hnum h.playing.defined
  · refine ⟨hcounted.opened _, ?_⟩
    exact .of_game rfl rfl hfull (ValidGame.standard_hasWinner _ _)
      (ValidGame.standard_boardFull _ _) hnum h.playing.defined

theorem Inv.onTakeTurn {r : Room} (h : r.Inv) (c : ConnId) (column : UInt8) :
    (r.onTakeTurn c column).Inv := by
  rcases onTakeTurn_cases h.playing c column with
    ⟨hplay, heq⟩ | ⟨game, hgame, _, _, _, heq⟩ | ⟨game, game', hgame, hturn, hwin, hroom, heq⟩ |
      ⟨game, game', hgame, hturn, _, heq⟩ <;> rw [heq]
  · exact ⟨h.seats.tookTurn _ _ _, h.playing.congr rfl rfl rfl rfl rfl⟩
  · exact ⟨h.seats.tookTurn _ _ _, h.playing.congr rfl rfl rfl rfl rfl⟩
  · refine ⟨((h.seats.withGame _).tookTurn _ _ _).takeTurn _, ?_⟩
    have hplay := h.playing.isPlaying hgame
    have hnum := game.takeTurn_numPlayers (r.conns c).getId column
    rw [hturn] at hnum
    exact .of_game hplay rfl (h.playing.full hplay) hwin hroom
      (fun htwo => hnum.trans ((h.playing.running game hgame).2.2 htwo)) h.playing.defined
  · exact ⟨((h.seats.withGame _).tookTurn _ _ _).gameOver _, .of_not rfl rfl h.playing.defined⟩

theorem Inv.left {r : Room} (h : r.Inv) {i : Nat} {c : ConnId} (hc : r.Seated i c)
    (hdead : (r.conns c).isAlive = false) : (r.vacated c i).ended.Inv := by
  refine ⟨(h.seats.vacated hc hdead).ended, ?_⟩
  rw [ended]
  split
  · next hnone =>
      exact .of_not (h.playing.not_playing hnone) hnone h.playing.defined
  · exact .of_not rfl rfl h.playing.defined

theorem ended_conns_of_notMem {r : Room} {c : ConnId} (h : c ∉ r.lobby.handlers) :
    r.ended.conns c = r.conns c := by
  rw [ended]
  split
  · rfl
  · rw [gameOver_conns, broadcast_of_notMem h]

theorem Joinable.congr {r r' : Room} {c : ConnId} (h : r.Joinable c)
    (hc : r'.conns c = r.conns c) : r'.Joinable c := by
  rw [Joinable, hc]
  exact h

theorem left_conns_of_joinable {r : Room} (h : r.Seats) {c d : ConnId} {i : Nat}
    {conn : Connection} (hc : r.Seated i c) (hd : r.Joinable d) :
    (((r.modify c fun _ => conn).vacated c i).ended).conns d = r.conns d := by
  have hnot : d ∉ r.lobby.handlers := fun hin => h.not_joinable hin hd
  have hne : d ≠ c := fun heq => hnot (heq ▸ (h.seated i c hc).1)
  rw [ended_conns_of_notMem (by exact hnot), vacated_conns, modify_conns_of_ne r hne]

theorem Joinable.left {r : Room} (h : r.Seats) {c d : ConnId} {i : Nat} {conn : Connection}
    (hc : r.Seated i c) (hd : r.Joinable d) :
    (((r.modify c fun _ => conn).vacated c i).ended).Joinable d :=
  hd.congr (left_conns_of_joinable h hc hd)

/-! ## Dispatching a signal -/

theorem dispatch_of_notMem {r : Room} {c : ConnId} {first : UInt8}
    (h : r.lobby.address ∉ (r.conns c).handlers) (signal : Option Signal) :
    r.dispatch c first signal = (r, false) := by
  cases signal with
  | none => rfl
  | some signal =>
      rw [dispatch]
      revert h
      generalize (r.conns c).handlers = ls
      intro h
      induction ls with
      | nil => rfl
      | cons l ls ih =>
          have hne : l ≠ r.lobby.address := fun heq => h (heq ▸ List.mem_cons_self)
          rw [List.foldl_cons]
          simp only [beq_eq_false_iff_ne.mpr hne, Bool.false_eq_true, if_false]
          exact ih fun hin => h (List.mem_cons_of_mem l hin)

theorem dispatch_of_mem {r : Room} {c : ConnId} {first : UInt8}
    (h : (r.conns c).handlers = [r.lobby.address]) (signal : Signal) :
    r.dispatch c first (some signal) = r.handle c first signal := by
  simp [dispatch, h]

/-- The handlers of the lobby run for a connection that was added to it, and for
no other. -/
theorem complete_of_mem {r : Room} (h : r.Seats) {c : ConnId} {conn : Connection}
    (hc : c ∈ r.lobby.handlers) (hseat : (r.conns c).KeepsSeat conn) (signal : Signal)
    (first : UInt8) (refill : Option ConnId) :
    r.complete c (conn, some signal) first refill =
      (if ((r.modify c fun _ => conn).handle c first signal).2 then
        ((r.modify c fun _ => conn).handle c first signal).1.onLobbyAvailable refill
      else ((r.modify c fun _ => conn).handle c first signal).1) := by
  have hh : ((r.modify c fun _ => conn).conns c).handlers = [r.lobby.address] := by
    rw [modify_conns_self, hseat.handlers, (h.member c hc).2.1]
  rw [complete, dispatch_of_mem hh]

theorem complete_of_notMem {r : Room} (h : r.Seats) {c : ConnId} {conn : Connection}
    (hc : c ∉ r.lobby.handlers) (hseat : (r.conns c).KeepsSeat conn)
    (signal : Option Signal) (first : UInt8) (refill : Option ConnId) :
    r.complete c (conn, signal) first refill = r.modify c fun _ => conn := by
  have hh : r.lobby.address ∉ ((r.modify c fun _ => conn).conns c).handlers := by
    rw [modify_conns_self, hseat.handlers]
    exact fun hin => hc (h.attached c hin)
  rw [complete, dispatch_of_notMem hh]
  rfl

theorem ready_wanders {c c' : Connection} (h : c.Idles c') :
    c.Wanders c'.readied :=
  ⟨⟨h.lobby, h.id, h.handlers, fun ha => h.isAlive ▸ ha⟩, h.sent⟩

theorem dropped_wanders {c c' : Connection} (h : c.Idles c') :
    c.Wanders c'.dropped :=
  ⟨⟨h.lobby, h.id, h.handlers, fun ha => by cases ha⟩, h.sent⟩

theorem complete_moves {r : Room} (h : r.Inv) {e : RoomEvent} {c : ConnId}
    {m : Option Message} {out : Connection × Option Signal} {first : UInt8}
    {refill : Option ConnId} (ho : (r.conns c).Outcome m out)
    (hnone : m = none → e.message? = none)
    (hread : ∀ m', m = some m' → e = .read c (.message m') first refill)
    (hjoins : e.joins = refill) (hrefill : ∀ d ∈ refill, r.Joinable d) :
    r.Moves e (r.complete c out first refill) := by
  have hmsg : ∀ d m', e.message? = some (d, m') → d = c ∧ m = some m' :=
    message_of_read hnone fun m' hm => by rw [hread m' hm]; rfl
  have hout : ∀ {conn : Connection}, c ∉ r.lobby.handlers → (r.conns c).Wanders conn →
      (conn.isReady = (r.conns c).isReady ∨ ∃ m, e.message? = some (c, m) ∧ m.type = .ready) →
      r.Moves e (r.modify c fun _ => conn) := by
    intro conn hc hw hready
    exact .outside hc hw (fun d m' he => (hmsg d m' he).1) hready
  cases ho with
  | silent hi hn =>
      refine .idle hi (fun d m' he => (hmsg d m' he).1) fun d m' he _ => ?_
      obtain ⟨rfl, hm⟩ := hmsg d m' he
      exact hn m' hm
  | readied hi htype hid =>
      have hw := ready_wanders hi
      by_cases hc : c ∈ r.lobby.handlers
      · rw [complete_of_mem h.seats hc hw.seat, hread _ rfl]
        exact .ready hc hi htype hid
      · rw [complete_of_notMem h.seats hc hw.seat]
        refine hout hc hw (.inr ⟨_, ?_, htype⟩)
        rw [hread _ rfl]
        rfl
  | tookTurn hi htype hid hcol =>
      have hw := hi.wanders
      by_cases hc : c ∈ r.lobby.handlers
      · rw [complete_of_mem h.seats hc hw.seat, hread _ rfl]
        exact .turn hc hi htype hid hcol
      · rw [complete_of_notMem h.seats hc hw.seat]
        exact hout hc hw (.inl hi.isReady)
  | dropped hi halive =>
      have hw := dropped_wanders hi
      by_cases hc : c ∈ r.lobby.handlers
      · obtain ⟨i, hseated⟩ := h.seats.alive c hc halive
        rw [complete_of_mem h.seats hc hw.seat, handle,
          onDisconnect_eq (h.modify hw.seat) hseated, if_pos rfl]
        exact .drop hseated halive hi hrefill (hnone rfl) hjoins
      · rw [complete_of_notMem h.seats hc hw.seat]
        exact hout hc hw (.inl hi.isReady)

theorem step_moves {r r' : Room} {e : RoomEvent} (h : r.Inv) (hs : r.step e = some r') :
    r.Moves e r' := by
  cases e with
  | accept c =>
      obtain ⟨_, heq⟩ := Option.ite_none_right_eq_some.mp hs
      rw [← Option.some.inj heq]
      exact .idle (Connection.onAccept_idles _) (fun _ _ he => by cases he)
        fun _ _ he => by cases he
  | notify c position =>
      obtain ⟨_, heq⟩ := Option.ite_none_right_eq_some.mp hs
      rw [← Option.some.inj heq]
      exact .idle (Connection.notifyQueuePosition_idles _ position) (fun _ _ he => by cases he)
        fun _ _ he => by cases he
  | join c =>
      obtain ⟨hjoin, heq⟩ := Option.ite_none_right_eq_some.mp hs
      rw [← Option.some.inj heq]
      exact .join hjoin
  | read c result first refill =>
      obtain ⟨⟨_, hrefill⟩, heq⟩ := Option.ite_none_right_eq_some.mp hs
      rw [← Option.some.inj heq]
      refine complete_moves h ((Connection.onReadSocket_outcome _ result).of_idles
        (Connection.reads_idles _ _)) ?_ ?_ rfl hrefill
      · intro hm
        cases result <;> first | rfl | cases hm
      · intro m' hm
        cases result <;> cases hm
        rfl
  | tick c error refill =>
      obtain ⟨⟨_, hrefill⟩, heq⟩ := Option.ite_none_right_eq_some.mp hs
      rw [← Option.some.inj heq]
      exact complete_moves h ((Connection.pingOnTimer_outcome _ error).of_idles
        (Connection.waits_idles _ _)) (fun _ => rfl) (fun _ hm => by cases hm) rfl hrefill

/-! ## How far a method reaches -/

/-- The number of slots and the lobby's address. -/
def fixed (r : Room) : UInt8 × LobbyId := (r.lobby.maxPlayers, r.lobby.address)

/-- Nobody was added, no seat changed, and no connection outside the lobby was
touched. -/
structure Within (r r' : Room) : Prop where
  fixed : r'.fixed = r.fixed
  handlers : r'.lobby.handlers = r.lobby.handlers
  others : ∀ c ∉ r.lobby.handlers, r'.conns c = r.conns c
  seat : ∀ c, (r'.conns c).seat = (r.conns c).seat

theorem Within.of_lobby {r : Room} {l : GameLobby} (hmax : l.maxPlayers = r.lobby.maxPlayers)
    (haddr : l.address = r.lobby.address) (hhandlers : l.handlers = r.lobby.handlers) :
    r.Within ⟨l, r.conns⟩ :=
  ⟨Prod.ext hmax haddr, hhandlers, fun _ _ => rfl, fun _ => rfl⟩

theorem Within.trans {a b c : Room} (hab : a.Within b) (hbc : b.Within c) : a.Within c := by
  refine ⟨hbc.fixed.trans hab.fixed, hbc.handlers.trans hab.handlers, fun d hd => ?_,
    fun d => (hbc.seat d).trans (hab.seat d)⟩
  rw [hbc.others d (by rwa [hab.handlers]), hab.others d hd]

theorem emit_within (r : Room) (e : Emission) {f : Connection → Connection}
    (hf : ∀ c, (f c).seat = c.seat) : r.Within (r.emit e f) :=
  ⟨rfl, rfl, fun _ hc => broadcast_of_notMem hc, r.emit_seat e hf⟩

theorem takeTurn_within (r : Room) (playerId : UInt8) : r.Within (r.takeTurn playerId) :=
  r.emit_within _ fun c => c.onTurn_seat playerId

theorem tookTurn_within (r : Room) (playerId column : UInt8) (result : TurnResult) :
    r.Within (r.tookTurn playerId column result) :=
  r.emit_within _ fun c => c.onUpdate_seat playerId column result

theorem gameOver_within (r : Room) (winner : UInt8) : r.Within (r.gameOver winner) :=
  (r.emit_within _ fun c => c.onGameEnd_seat winner).trans (.of_lobby rfl rfl rfl)

theorem gameStarted_within (r : Room) (game : ValidGame) : r.Within (r.gameStarted game) :=
  r.emit_within _ fun c => c.onGameStart_seat _ game

theorem opened_within (r : Room) (game : ValidGame) : r.Within (r.opened game) := by
  have hplay : r.Within
      ⟨{ r.lobby with game := some game, isPlayingGame := true }, r.conns⟩ :=
    .of_lobby rfl rfl rfl
  exact (hplay.trans (gameStarted_within _ game)).trans (takeTurn_within _ _)

theorem withGame_within (r : Room) (game : Option ValidGame) : r.Within (r.withGame game) :=
  .of_lobby rfl rfl rfl

theorem counted_within (r : Room) : r.Within r.counted := .of_lobby rfl rfl rfl

theorem ended_within (r : Room) : r.Within r.ended := by
  rw [ended]
  split
  · exact .of_lobby rfl rfl rfl
  · exact r.gameOver_within _

theorem left_within (r : Room) (c : ConnId) (i : Nat) : r.Within (r.vacated c i).ended :=
  (Within.of_lobby rfl rfl rfl : r.Within (r.vacated c i)).trans (ended_within _)

theorem onReady_within {r : Room} (h : r.Seats) (c : ConnId) (first : UInt8) :
    r.Within (r.onReady c first) := by
  rcases onReady_cases h.isOpen c first with
    ⟨_, heq⟩ | ⟨_, _, _, heq⟩ | ⟨_, _, _, _, _, heq⟩ | ⟨_, _, _, _, _, heq⟩ <;> rw [heq]
  · exact .of_lobby rfl rfl rfl
  · exact r.counted_within
  · exact r.counted_within.trans (withGame_within _ _)
  · exact r.counted_within.trans (opened_within _ _)

theorem onTakeTurn_within {r : Room} (h : Playing r.lobby) (c : ConnId) (column : UInt8) :
    r.Within (r.onTakeTurn c column) := by
  rcases onTakeTurn_cases h c column with
    ⟨_, heq⟩ | ⟨_, _, _, _, _, heq⟩ | ⟨_, _, _, _, _, _, heq⟩ | ⟨_, _, _, _, _, heq⟩ <;>
    rw [heq]
  · exact r.tookTurn_within _ _ _
  · exact r.tookTurn_within _ _ _
  · exact ((r.withGame_within _).trans (tookTurn_within _ _ _ _)).trans (takeTurn_within _ _)
  · exact ((r.withGame_within _).trans (tookTurn_within _ _ _ _)).trans (gameOver_within _ _)

theorem onReady_players {r : Room} (h : r.Seats) (c : ConnId) (first : UInt8) :
    (r.onReady c first).lobby.players = r.lobby.players := by
  rcases onReady_cases h.isOpen c first with
    ⟨_, heq⟩ | ⟨_, _, _, heq⟩ | ⟨_, _, _, _, _, heq⟩ | ⟨_, _, _, _, _, heq⟩ <;> rw [heq] <;> rfl

theorem onTakeTurn_players {r : Room} (h : Playing r.lobby) (c : ConnId) (column : UInt8) :
    (r.onTakeTurn c column).lobby.players = r.lobby.players := by
  rcases onTakeTurn_cases h c column with
    ⟨_, heq⟩ | ⟨_, _, _, _, _, heq⟩ | ⟨_, _, _, _, _, _, heq⟩ | ⟨_, _, _, _, _, heq⟩ <;>
    rw [heq] <;> rfl

theorem left_players (r : Room) (c : ConnId) (i : Nat) :
    (r.vacated c i).ended.lobby.players = r.lobby.players.set i none := by
  rw [ended]
  split <;> rfl

theorem addPlayer_fixed {r : Room} (h : r.Seats) (c : ConnId) :
    (r.addPlayer c).fixed = r.fixed := by
  rcases addPlayer_cases h c with ⟨_, heq⟩ | ⟨_, i, _, _, heq⟩ <;> rw [heq]
  rfl

theorem onLobbyAvailable_cases {r : Room} (h : r.Seats) (refill : Option ConnId) :
    r.onLobbyAvailable refill = r ∨
    ∃ d i, refill = some d ∧ r.lobby.players[i]? = some none ∧ i < r.lobby.players.length ∧
      r.onLobbyAvailable refill = r.admitted d i := by
  cases refill with
  | none => exact .inl rfl
  | some d =>
      rcases addPlayer_cases h d with ⟨_, heq⟩ | ⟨_, i, hnull, hlt, heq⟩
      · exact .inl heq
      · exact .inr ⟨d, i, rfl, hnull, hlt, heq⟩

theorem onLobbyAvailable_fixed {r : Room} (h : r.Seats) (refill : Option ConnId) :
    (r.onLobbyAvailable refill).fixed = r.fixed := by
  rcases onLobbyAvailable_cases h refill with heq | ⟨_, _, _, _, _, heq⟩ <;> rw [heq]
  rfl

/-! ## The invariant holds in every run -/

theorem Inv.onLobbyAvailable {r : Room} (h : r.Inv) {refill : Option ConnId}
    (hjoin : ∀ d ∈ refill, r.Joinable d) : (r.onLobbyAvailable refill).Inv := by
  cases refill with
  | none => exact h
  | some d => exact h.addPlayer (hjoin d rfl)

/-- What is left when an occupant was dropped, before the handler refills the slot. -/
theorem Inv.dropped {r : Room} (h : r.Inv) {i : Nat} {c : ConnId} {conn : Connection}
    (hc : r.Seated i c) (hi : (r.conns c).Idles conn) :
    (((r.modify c fun _ => conn.dropped).vacated c i).ended).Inv :=
  (h.modify (dropped_wanders hi).seat).left hc (by rw [modify_conns_self]; rfl)

theorem Inv.moves {r r' : Room} {e : RoomEvent} (h : r.Inv) (hm : r.Moves e r') : r'.Inv := by
  cases hm with
  | idle hi _ _ => exact h.modify hi.keepsSeat
  | outside _ hw _ _ => exact h.modify hw.seat
  | join hjoin => exact h.addPlayer hjoin
  | ready _ hi _ _ => exact (h.modify (ready_wanders hi).seat).onReady _ _
  | turn _ hi _ _ _ => exact (h.modify hi.keepsSeat).onTakeTurn _ _
  | drop hc halive hi hjoin _ _ =>
      exact (h.dropped hc hi).onLobbyAvailable fun d hd => (hjoin d hd).left h.seats hc

theorem Inv.step {r r' : Room} {e : RoomEvent} (h : r.Inv) (hs : r.step e = some r') :
    r'.Inv := h.moves (step_moves h hs)

theorem moves_fixed {r r' : Room} {e : RoomEvent} (h : r.Inv) (hm : r.Moves e r') :
    r'.fixed = r.fixed := by
  cases hm with
  | idle _ _ _ => rfl
  | outside _ _ _ _ => rfl
  | join _ => exact addPlayer_fixed h.seats _
  | ready _ hi _ _ =>
      exact (onReady_within (h.modify (ready_wanders hi).seat).seats _ _).fixed
  | turn _ hi _ _ _ => exact (onTakeTurn_within (h.modify hi.keepsSeat).playing _ _).fixed
  | drop hc _ hi _ _ _ =>
      exact (onLobbyAvailable_fixed (h.dropped hc hi).seats _).trans (left_within _ _ _).fixed

/-- A lobby that was just made and started, among connections none of which is
attached to it. -/
theorem new_inv (address : LobbyId) (maxPlayers : UInt8) {conns : ConnId → Connection}
    (h : ∀ c, address ∉ (conns c).handlers) :
    Inv ⟨(GameLobby.new address maxPlayers).start, conns⟩ := by
  have hslot : ∀ i c, ¬ Seated ⟨(GameLobby.new address maxPlayers).start, conns⟩ i c := by
    intro i c hc
    have := List.getElem?_eq_some_iff.mp hc
    simp [GameLobby.new, GameLobby.start, GameLobby.startLobby] at this
  refine ⟨⟨rfl, ?_, ?_, ?_, .nil, ?_, ?_, ?_⟩, .of_not rfl rfl rfl⟩
  · exact List.length_replicate ..
  · simp [GameLobby.new, GameLobby.start, GameLobby.startLobby, List.countP_replicate]
  · exact fun i c hc => absurd hc (hslot i c)
  · exact fun _ hc => by cases hc
  · exact fun c hc => absurd hc (h c)
  · exact fun _ hc => by cases hc

theorem started_inv (maxPlayers : UInt8) : (started maxPlayers).Inv :=
  new_inv 0 maxPlayers fun _ hin => by cases hin

theorem run_inv {r r' : Room} (h : r.Inv) {es : List RoomEvent}
    (hrun : run Room.step r es = some r') : r'.Inv :=
  (Reachable.of_run hrun).invariant h fun _ _ _ hi _ hs => hi.step hs

/-- The representation invariant, in every state of every run. -/
theorem reachable_inv {maxPlayers : UInt8} {r : Room}
    (hr : Reachable Room.step (started maxPlayers) r) : r.Inv :=
  hr.invariant (started_inv maxPlayers) fun _ _ _ hi _ hs => hi.step hs

/-- An invariant rule that hands out the representation invariant, the fixed
number of slots, and the move that was made. -/
theorem reaches_invariant {maxPlayers : UInt8} {ok : Room → RoomEvent → Prop}
    {I : Room → Prop} (h0 : I (started maxPlayers))
    (hmoves : ∀ r e r', r.Inv → r.lobby.maxPlayers = maxPlayers → I r → ok r e →
      r.Moves e r' → I r')
    {r : Room} (hr : Reaches Room.step ok (started maxPlayers) r) : I r := by
  have hall : r.Inv ∧ r.lobby.maxPlayers = maxPlayers ∧ I r := by
    refine hr.invariant (I := fun r => r.Inv ∧ r.lobby.maxPlayers = maxPlayers ∧ I r)
      ⟨started_inv maxPlayers, rfl, h0⟩ ?_
    rintro s e s' ⟨hinv, hmax, hi⟩ hok hs
    have hm := step_moves hinv hs
    refine ⟨hinv.moves hm, ?_, hmoves s e s' hinv hmax hi hok hm⟩
    exact (congrArg Prod.fst (moves_fixed hinv hm)).trans hmax
  exact hall.2.2

theorem reachable_maxPlayers {maxPlayers : UInt8} {r : Room}
    (hr : Reachable Room.step (started maxPlayers) r) : r.lobby.maxPlayers = maxPlayers :=
  reaches_invariant (I := fun r => r.lobby.maxPlayers = maxPlayers) rfl
    (fun _ _ _ hinv hmax _ _ hm => (congrArg Prod.fst (moves_fixed hinv hm)).trans hmax) hr

end Room

theorem Connection.Outcome.keepsSeat {c : Connection} {m : Option Message}
    {out : Connection × Option Signal} (h : c.Outcome m out) : c.KeepsSeat out.1 := by
  cases h with
  | silent hi _ => exact hi.keepsSeat
  | readied hi _ _ => exact (Room.ready_wanders hi).seat
  | tookTurn hi _ _ _ => exact hi.keepsSeat
  | dropped hi _ => exact (Room.dropped_wanders hi).seat

end ConnectDisks.Net
