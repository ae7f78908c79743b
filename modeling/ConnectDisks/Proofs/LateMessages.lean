import ConnectDisks.Proofs.Placement

/-!
# Messages of dropped connections

`waitForMessages` starts no read once the connection was dropped, but the ping
timer drops a connection without taking back the read it had started. So one
more message can arrive. The lobby's handlers are still attached to the old
connection, and the lobby looks players up by id: if somebody else has been given
the slot in the meantime, the message counts as theirs.

A lobby acts on such a message in two cases (`Acts`): a ready message whose id
has an occupant, and a turn its game accepts. In runs where no dropped connection
sends one, and in no others, everything a lobby acts on comes from the occupant of
the slot the message names.
-/

namespace ConnectDisks.Net

open ConnectDisks.Game Lib

/-- The slots, the counter of ready messages and the game. -/
def GameLobby.view (l : GameLobby) : List (Option ConnId) × UInt8 × Bool × Option ValidGame :=
  (l.players, l.numReady, l.isPlayingGame, l.game)

namespace Room

/-- The lobby's state would change on this message of a connection with this id. -/
def Acts (r : Room) (id : UInt8) (m : Message) : Prop :=
  (m.type = .ready ∧ (r.findPlayer id).isSome = true) ∨
  (m.type = .takeTurn ∧
    ∃ game, r.lobby.game = some game ∧ game.state.Accepts id (m.get 1))

theorem acts_ready {r : Room} {id : UInt8} {m : Message} (h : m.type = .ready) :
    r.Acts id m ↔ ¬ r.findPlayer id = none := by
  rw [Acts, h, Option.isSome_iff_ne_none]
  simp

theorem acts_takeTurn {r : Room} {id : UInt8} {m : Message} (h : m.type = .takeTurn) :
    r.Acts id m ↔ ∃ game, r.lobby.game = some game ∧ game.state.Accepts id (m.get 1) := by
  rw [Acts, h]
  simp

theorem onReady_view {r : Room} (h : r.Seats) (c : ConnId) (first : UInt8) :
    (r.onReady c first).lobby.view = r.lobby.view ↔ r.findPlayer (r.conns c).getId = none := by
  have hcount : ∀ n : UInt8, n + 1 ≠ n := fun n => by simp
  rcases onReady_cases h.isOpen c first with
    ⟨hnone, heq⟩ | ⟨_, hsome, _, heq⟩ | ⟨_, hsome, _, _, _, heq⟩ | ⟨_, hsome, _, _, _, heq⟩ <;>
    rw [heq]
  · exact iff_of_true rfl hnone
  all_goals
    rw [hsome]
    refine iff_of_false (fun hview => hcount r.lobby.numReady ?_) (Option.some_ne_none _)
    exact congrArg (fun v => v.2.1) hview

theorem accepted_ne {game game' : ValidGame} {player column : UInt8}
    (h : game.takeTurn player column = (game', .success)) : game' ≠ game := by
  have hturns : ∀ n : UInt32, n + 1 ≠ n := fun n => by simp
  rcases game.takeTurn_cases player column with ⟨_, hnot, _⟩ | ⟨_, _, row, winner, _, hland⟩
  · rw [h] at hnot
    exact absurd rfl hnot
  · rintro rfl
    rw [h] at hland
    exact hturns game'.state.numTurns (congrArg FourAcross.numTurns hland).symm

theorem onTakeTurn_view {r : Room} (h : Playing r.lobby) (c : ConnId) (column : UInt8) :
    (r.onTakeTurn c column).lobby.view = r.lobby.view ↔
      ∀ game, r.lobby.game = some game → ¬ game.state.Accepts (r.conns c).getId column := by
  rcases onTakeTurn_cases h c column with
    ⟨hplay, heq⟩ | ⟨game, hgame, hsame, hfail, _, heq⟩ |
      ⟨game, game', hgame, hturn, _, _, heq⟩ | ⟨game, game', hgame, hturn, _, heq⟩ <;> rw [heq]
  · refine iff_of_true rfl fun game hgame => ?_
    rw [h.not_game hplay] at hgame
    cases hgame
  · refine iff_of_true rfl fun game' hgame' hacc => ?_
    rw [hgame] at hgame'
    cases hgame'
    rcases game.takeTurn_cases (r.conns c).getId column with ⟨_, _, _, hnot, _⟩ | ⟨hsucc, _⟩
    · exact hnot hacc
    · exact hfail hsucc
  · refine iff_of_false (fun hview => ?_) fun hnot =>
      hnot game hgame (ValidGame.accepts_of_success hturn)
    have hkept : some game' = r.lobby.game := congrArg (fun v => v.2.2.2) hview
    rw [hgame] at hkept
    exact accepted_ne hturn (Option.some.inj hkept)
  · refine iff_of_false (fun hview => ?_) fun hnot =>
      hnot game hgame (ValidGame.accepts_of_success hturn)
    have hkept : none = r.lobby.game := congrArg (fun v => v.2.2.2) hview
    rw [hgame] at hkept
    cases hkept

end Room

namespace Server

def views (s : Server) :
    List (List (Option ConnId) × UInt8 × Bool × Option ValidGame) :=
  s.lobbies.map GameLobby.view

/-- A message read on a dropped connection changes no lobby, and a lobby that is
changed by a message got it from the occupant of the slot with the message's id. -/
def ActsFromSlot (s : Server) (e : ServerEvent) (s' : Server) : Prop :=
  ∀ c m, e.message? = some (c, m) →
    ((s.conns c).isAlive = false → s'.views = s.views) ∧
    ∀ (l : LobbyId) (lobby : GameLobby), s.lobbies[l]? = some lobby →
      s'.views[l]? ≠ some lobby.view →
        ∃ i, (s.room lobby).Seated i c ∧ (m.get 0).toNat = i + 1

/-- No message that is read on a dropped connection is one that a lobby it is still
attached to would act on. -/
def NoLateMessage (s : Server) (e : ServerEvent) : Prop :=
  ∀ c m, e.message? = some (c, m) → (s.conns c).isAlive = false → (s.conns c).Heeds m →
    ∀ (l : LobbyId) (lobby : GameLobby), l ∈ (s.conns c).handlers →
      s.lobbies[l]? = some lobby → ¬ (s.room lobby).Acts (s.conns c).id m

theorem ActsFromSlot.of_views {s s' : Server} {e : ServerEvent} (h : s'.views = s.views) :
    s.ActsFromSlot e s' := by
  refine fun c m _ => ⟨fun _ => h, fun l lobby hl hne => absurd ?_ hne⟩
  rw [h, views, List.getElem?_map, hl]
  rfl

theorem ActsFromSlot.of_silent {s s' : Server} {e : ServerEvent} (h : e.message? = none) :
    s.ActsFromSlot e s' := by
  intro c m he
  rw [h] at he
  cases he

theorem NoLateMessage.of_silent {s : Server} {e : ServerEvent} (h : e.message? = none) :
    s.NoLateMessage e := by
  intro c m he
  rw [h] at he
  cases he

/-- Running a method on one room shows in that lobby's place and nowhere else. -/
theorem putRoom_views {s : Server} {l : LobbyId} {lobby : GameLobby}
    (hl : s.lobbies[l]? = some lobby) (r : Room) :
    (s.putRoom l r).views = s.views ↔ r.lobby.view = lobby.view := by
  have hmap : (s.putRoom l r).views = s.views.set l r.lobby.view := List.map_set ..
  have hget : s.views[l]? = some lobby.view := by
    rw [views, List.getElem?_map, hl]
    rfl
  rw [hmap]
  constructor
  · intro heq
    have hset := List.getElem?_set_self (a := r.lobby.view)
      (List.getElem?_eq_some_iff.mp hget).1
    rw [heq, hget] at hset
    exact (Option.some.inj hset).symm
  · intro heq
    obtain ⟨hlt, hval⟩ := List.getElem?_eq_some_iff.mp hget
    rw [heq, ← hval]
    exact List.set_getElem_self hlt

theorem putRoom_views_of_ne {s : Server} {l l' : LobbyId} {lobby : GameLobby} {r : Room}
    (hl : s.lobbies[l']? = some lobby)
    (hne : (s.putRoom l r).views[l']? ≠ some lobby.view) : l' = l := by
  by_contra hll
  refine hne ?_
  rw [views, List.getElem?_map, putRoom, List.getElem?_set_ne (Ne.symm hll), hl]
  rfl

theorem actsFromSlot_iff {s : Server} (h : s.Rooms) {e : ServerEvent} {c : ConnId}
    {m : Message} {l : LobbyId} {lobby : GameLobby} {conn : Connection} {r : Room}
    (he : e.message? = some (c, m)) (hl : s.lobbies[l]? = some lobby) (hc : c ∈ lobby.handlers)
    (hh : (s.conns c).Heeds m)
    (hr : r.lobby.view = lobby.view ↔ ¬ (s.room lobby).Acts (s.conns c).id m) :
    s.ActsFromSlot e ((s.modify c fun _ => conn).putRoom l r) ↔ s.NoLateMessage e := by
  have hseats := (h.inv hl).seats
  have hputs : ((s.modify c fun _ => conn).putRoom l r).views = s.views ↔
      r.lobby.view = lobby.view := putRoom_views (s := s.modify c fun _ => conn) hl r
  constructor
  · intro hacts d m' he' hdead _ l' lobby' hin hl'
    obtain ⟨rfl, rfl⟩ := Prod.mk.inj (Option.some.inj (he.symm.trans he'))
    have hll : l' = l := by
      rwa [h.handlers_eq hl hc, List.mem_singleton] at hin
    subst hll
    rw [hl] at hl'
    cases hl'
    exact hr.mp (hputs.mp ((hacts c m he).1 hdead))
  · intro hok d m' he'
    obtain ⟨rfl, rfl⟩ := Prod.mk.inj (Option.some.inj (he.symm.trans he'))
    have hstill : (s.conns c).isAlive = false →
        ((s.modify c fun _ => conn).putRoom l r).views = s.views := fun hdead =>
      hputs.mpr (hr.mpr (hok c m he hdead hh l lobby ((h.mem_iff hl c).mp hc) hl))
    refine ⟨hstill, fun l' lobby' hl' hne => ?_⟩
    have hll := putRoom_views_of_ne (s := s.modify c fun _ => conn) hl' hne
    subst hll
    rw [hl] at hl'
    cases hl'
    have halive : (s.conns c).isAlive = true := by
      by_contra hdead
      refine hne ?_
      rw [hstill (Bool.eq_false_iff.mpr hdead), views, List.getElem?_map, hl]
      rfl
    obtain ⟨i, hi⟩ := hseats.alive c hc halive
    refine ⟨i, hi, ?_⟩
    rw [hh.1]
    exact (hseats.seated i c hi).2

theorem actsFromSlot_moves {s s' : Server} {e : ServerEvent} (h : s.Rooms)
    (hm : s.Moves e s') : s.ActsFromSlot e s' ↔ s.NoLateMessage e := by
  cases hm with
  | refused _ => exact iff_of_true (.of_silent rfl) (.of_silent rfl)
  | accepted _ => exact iff_of_true (.of_silent rfl) (.of_silent rfl)
  | sweep => exact iff_of_true (.of_silent rfl) (.of_silent rfl)
  | idle _ _ hn _ =>
      exact iff_of_true (.of_views rfl) fun d m he _ hh => absurd hh (hn d m he)
  | outside _ hnil _ hd _ =>
      refine iff_of_true (.of_views rfl) fun d m he _ _ l lobby hin => ?_
      rw [hd d m he, hnil] at hin
      cases hin
  | @ready c m first conn l lobby _ hl hc hi htype hid =>
      have hseat := (Room.ready_wanders hi).seat
      have hinv := (h.inv hl).modify (r := s.room lobby) hseat
      refine actsFromSlot_iff h rfl hl hc ⟨hid, .inl htype⟩ ?_
      have hview := Room.onReady_view hinv.seats c first
      rw [Room.modify_findPlayer hseat, Room.modify_conns_self,
        show conn.readied.getId = (s.conns c).id from hi.id] at hview
      rw [Room.acts_ready htype, not_not]
      exact hview
  | @turn c m first conn l lobby _ hl hc hi htype hid hcol =>
      have hinv := (h.inv hl).modify (r := s.room lobby) hi.keepsSeat
      refine actsFromSlot_iff h rfl hl hc ⟨hid, .inr ⟨htype, hcol⟩⟩ ?_
      have hview := Room.onTakeTurn_view hinv.playing c (m.get 1)
      rw [Room.modify_conns_self, show conn.getId = (s.conns c).id from hi.id] at hview
      rw [Room.acts_takeTurn htype, not_exists]
      exact hview.trans (forall_congr' fun game => not_and.symm)
  | drop _ _ _ _ _ hsilent _ =>
      exact iff_of_true (.of_silent hsilent) (.of_silent hsilent)

/-- Whole runs: lobbies act only on messages from their slots exactly when no
message of a dropped connection is one they would act on. -/
theorem acts_from_slot_along (es : List ServerEvent) :
    Along step (fun s e s' => s.ActsFromSlot e s') new es ↔
      Along step (fun s e _ => s.NoLateMessage e) new es := by
  refine Along.iff (fun s e s' hs hstep => ?_) .refl es
  have hrooms := (reachable_inv hs).rooms
  exact actsFromSlot_moves hrooms (step_moves hrooms hstep)

/-- Two players join, the first misses four pongs, and a third takes its slot. -/
def missedPongs : List ServerEvent :=
  [.accept false, .accept false, .pingTimer 0 false, .pingTimer 0 false, .pingTimer 0 false,
    .pingTimer 0 false, .accept false]

/-- The first player's ready message, which was under way, is counted for the
third. -/
theorem late_ready_counted :
    ¬ ∀ es, Along step (fun s e s' => s.ActsFromSlot e s') new es := by
  intro hall
  have hrun : (run step new missedPongs).any (fun s =>
      (s.step (.read 0 (.message (.ready 1)) 1)).any fun s' =>
        decide ((s.conns 0).isAlive = false ∧ s'.views ≠ s.views)) = true := by
    decide +kernel
  obtain ⟨s, hrun, hs⟩ := (Option.any_eq_true ..).mp hrun
  obtain ⟨s', hstep, hs'⟩ := (Option.any_eq_true ..).mp hs
  obtain ⟨hdead, hne⟩ := of_decide_eq_true hs'
  have hacts := (Along.last hrun (hall (missedPongs ++
    [.read 0 (.message (.ready 1)) 1]))) s' hstep
  exact hne ((hacts 0 (.ready 1) rfl).1 hdead)

end Server

end ConnectDisks.Net
