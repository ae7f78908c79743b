import ConnectDisks.Proofs.Placement

/-!
# Whether the players in the slots are alive

A connection that is dropped leaves its lobby in the same event, through the
signal. A connection that is dropped while it waits in the queue stays there
until the queue timer sweeps it out, because nothing is connected to its signal
yet. If a slot becomes free before that, `onLobbyAvailable` takes it from the front
of the queue and puts it into the slot, for good: its `disconnected` was emitted
already.

That is the only way. So the slots hold live players in exactly the runs in
which, whenever an occupant drops, the player at the front of the queue is alive.
-/

namespace ConnectDisks.Net

open ConnectDisks.Game Lib

namespace Server

/-- Every connection held in a slot is alive. -/
def SlotsAlive (s : Server) : Prop :=
  ∀ (l : LobbyId) (lobby : GameLobby) (i : Nat) (c : ConnId), s.lobbies[l]? = some lobby →
    (s.room lobby).Seated i c → (s.conns c).isAlive = true

/-- If the event drops a player of a lobby, the player at the front of the queue is
alive. -/
def FrontAlive (s : Server) (e : ServerEvent) : Prop :=
  ∀ c ∈ s.drops e, (s.conns c).handlers ≠ [] →
    ∀ d ∈ s.playerQueue.head?, (s.conns d).isAlive = true

namespace SlotsAlive

variable {s s' : Server}

theorem mono (h : s.SlotsAlive)
    (hseat : ∀ (l : LobbyId) (lobby' : GameLobby) (i : Nat) (c : ConnId),
      s'.lobbies[l]? = some lobby' → (s'.room lobby').Seated i c →
        ∃ lobby, s.lobbies[l]? = some lobby ∧ (s.room lobby).Seated i c)
    (halive : ∀ (c : ConnId) (l : LobbyId) (lobby : GameLobby) (i : Nat),
      s.lobbies[l]? = some lobby → (s.room lobby).Seated i c →
        (s.conns c).isAlive = true → (s'.conns c).isAlive = true) : s'.SlotsAlive := by
  intro l lobby' i c hl' hc
  obtain ⟨lobby, hl, hc⟩ := hseat l lobby' i c hl' hc
  exact halive c l lobby i hl hc (h l lobby i c hl hc)

theorem congr (h : s.SlotsAlive) (hl : s'.lobbies = s.lobbies)
    (hc : ∀ c, (s'.conns c).isAlive = (s.conns c).isAlive) : s'.SlotsAlive :=
  h.mono (fun _ lobby _ _ hl' hseat => ⟨lobby, hl ▸ hl', hseat⟩)
    fun c _ _ _ _ _ halive => (hc c).trans halive

theorem modify (h : s.SlotsAlive) {c : ConnId} {conn : Connection}
    (hc : conn.isAlive = (s.conns c).isAlive) : (s.modify c fun _ => conn).SlotsAlive := by
  refine h.congr rfl fun d => ?_
  by_cases hd : d = c
  · rw [hd, modify_conns_self, hc]
  · rw [modify_conns_of_ne s hd]

theorem modify_outside (h : s.SlotsAlive) (hr : s.Rooms) {c : ConnId} (conn : Connection)
    (hc : (s.conns c).handlers = []) : (s.modify c fun _ => conn).SlotsAlive := by
  refine h.mono (fun _ lobby _ _ hl hseat => ⟨lobby, hl, hseat⟩)
    fun d l lobby i hl hseat halive => ?_
  have hne : d ≠ c := by
    rintro rfl
    have := hr.handlers_eq hl ((hr.inv hl).seats.seated i d hseat).1
    rw [hc] at this
    cases this
  rw [modify_conns_of_ne s hne]
  exact halive

theorem putRoom (h : s.SlotsAlive) {l : LobbyId} {lobby : GameLobby}
    (hl : s.lobbies[l]? = some lobby) {r : Room} (hw : (s.room lobby).Within r)
    (hp : r.lobby.players = lobby.players) : (s.putRoom l r).SlotsAlive := by
  refine h.mono (fun l' lobby' i c hl' hc => ?_) fun c _ _ _ _ _ halive => ?_
  · rcases putRoom_cases hl hl' with ⟨rfl, rfl⟩ | ⟨_, hl'⟩
    · refine ⟨lobby, hl, ?_⟩
      rw [Room.Seated, room] at hc ⊢
      rwa [← hp]
    · exact ⟨lobby', hl', hc⟩
  · exact (Connection.KeepsSeat.of_seat (hw.seat c).symm).isAlive halive

end SlotsAlive

theorem addPlayer_conns_alive {s : Server} (hr : s.Rooms) {l : LobbyId} {lobby : GameLobby}
    (hl : s.lobbies[l]? = some lobby) {c : ConnId} (hid : (s.conns c).id = 0)
    (hnil : (s.conns c).handlers = []) (d : ConnId) :
    ((s.addPlayer l c).conns d).isAlive = (s.conns d).isAlive := by
  rw [addPlayer, hl]
  show (((s.room lobby).addPlayer c).conns d).isAlive = _
  rcases Room.addPlayer_cases (hr.inv hl).seats c with ⟨_, heq⟩ | ⟨_, i, _, _, heq⟩ <;> rw [heq]
  · rfl
  · by_cases hd : d = c
    · rw [hd, Room.admitted_conns_self (r := s.room lobby) ⟨hid, hnil⟩]
      rfl
    · rw [Room.admitted_conns_of_ne _ hd]
      rfl

/-- The slots stay alive exactly if the player that is added is. -/
theorem addPlayer_slotsAlive {s : Server} (hr : s.Rooms) (h : s.SlotsAlive) {l : LobbyId}
    {lobby : GameLobby} (hl : s.lobbies[l]? = some lobby) (hfull : lobby.isFull = false)
    {c : ConnId} (hid : (s.conns c).id = 0) (hnil : (s.conns c).handlers = []) :
    (s.addPlayer l c).SlotsAlive ↔ (s.conns c).isAlive = true := by
  have hconns := addPlayer_conns_alive hr hl hid hnil
  obtain ⟨i, _, hlt, heq⟩ :=
    Room.addPlayer_of_can (hr.inv hl).seats (hr.canAddPlayers hl hfull) c
  have hput : (s.addPlayer l c).lobbies =
      (s.putRoom l ((s.room lobby).admitted c i)).lobbies := by
    rw [addPlayer, hl]
    exact congrArg (fun r => (s.putRoom l r).lobbies) heq
  have hseated : ∀ j d, ((s.room lobby).admitted c i).lobby.players[j]? = some (some d) →
      (s.room lobby).Seated j d ∨ d = c := by
    intro j d hd
    rw [Room.admitted, List.getElem?_set] at hd
    split at hd
    · exact .inr (Option.some.inj (Option.some.inj hd)).symm
    · exact .inl hd
  constructor
  · intro hall
    rw [← hconns c]
    refine hall l ((s.room lobby).admitted c i).lobby i c ?_ ?_
    · rw [hput]
      exact putRoom_getElem? hl _
    · exact List.getElem?_set_self hlt
  · intro halive l' lobby' j d hl' hd
    rw [hconns d]
    rw [hput] at hl'
    rcases putRoom_cases hl hl' with ⟨rfl, rfl⟩ | ⟨_, hl'⟩
    · rcases hseated j d hd with hd | rfl
      · exact h _ lobby j d hl hd
      · exact halive
    · exact h l' lobby' j d hl' hd

theorem makeNewLobby_slotsAlive {s : Server} (h : s.SlotsAlive) :
    s.makeNewLobby.1.SlotsAlive := by
  intro l lobby i c hl hc
  by_cases hlt : l < s.lobbies.length
  · rw [makeNewLobby, List.getElem?_append_left hlt] at hl
    exact h l lobby i c hl hc
  · rw [makeNewLobby, List.getElem?_append_right (Nat.le_of_not_lt hlt),
      List.getElem?_singleton] at hl
    split at hl
    · rw [← Option.some.inj hl] at hc
      have := List.getElem?_eq_some_iff.mp hc
      simp [room, GameLobby.new, GameLobby.start, GameLobby.startLobby] at this
    · cases hl

/-! ## One step -/

theorem SlotsAlive.welcomed {s : Server} (h : s.SlotsAlive) (c : ConnId)
    (rest : List ConnId) :
    (({ s with accepting := rest } : Server).welcomed c).SlotsAlive :=
  (h.modify (Connection.onAccept_idles (s.conns c)).isAlive).congr rfl fun _ => rfl

theorem SlotsAlive.accepted {s : Server} (hinv : s.Inv) (h : s.SlotsAlive) {c : ConnId}
    {rest : List ConnId} (hnext : s.accepting = c :: rest) :
    (onConnectionAccepted { s with accepting := rest } c false).SlotsAlive := by
  have hw := h.welcomed c rest
  have hcreate := hinv.book.unborn c (hinv.book.next_new hnext)
  have hidles := (s.conns c).onAccept_idles
  have hself : (({ s with accepting := rest } : Server).welcomed c).conns c =
      (s.conns c).onAccept := modify_conns_self _ _ _
  have hconn : (s.conns c).onAccept.id = 0 ∧ (s.conns c).onAccept.handlers = [] ∧
      (s.conns c).onAccept.isAlive = true := by
    rw [hidles.id, hidles.handlers, hidles.isAlive, hcreate]
    exact ⟨rfl, rfl, rfl⟩
  rw [← hself] at hconn
  have hrooms : (({ s with accepting := rest } : Server).welcomed c).Rooms :=
    (hinv.rooms.modify hidles.keepsSeat).congr rfl rfl
  rcases onConnectionAccepted_cases { s with accepting := rest } c with
    ⟨l, lobby, hl, hfull, heq⟩ | ⟨_, _, heq⟩ | ⟨_, _, heq⟩ <;> rw [heq]
  · exact ((addPlayer_slotsAlive hrooms hw hl hfull hconn.1 hconn.2.1).mpr hconn.2.2).congr
      rfl fun _ => rfl
  · refine ((addPlayer_slotsAlive hrooms.makeNewLobby (makeNewLobby_slotsAlive hw)
      List.getElem?_concat_length rfl hconn.1 hconn.2.1).mpr hconn.2.2).congr rfl fun _ => rfl
  · have hq : ({ ({ s with accepting := rest } : Server).welcomed c with
        playerQueue := s.playerQueue ++ [c] } : Server).SlotsAlive :=
      hw.congr rfl fun _ => rfl
    exact (hq.modify (Connection.notifyQueuePosition_idles _ _).isAlive).congr rfl fun _ => rfl

theorem SlotsAlive.left {s : Server} (hr : s.Rooms) (h : s.SlotsAlive) {c : ConnId}
    (conn : Connection) {l : LobbyId} {lobby : GameLobby} {i : Nat}
    (hl : s.lobbies[l]? = some lobby) (hc : (s.room lobby).Seated i c) :
    (s.left c conn l lobby i).SlotsAlive := by
  intro l' lobby' j d hl' hd
  have hl₁ : (s.modify c fun _ => conn.dropped).lobbies[l]? = some lobby := hl
  have hin := ((hr.inv hl).seats.seated i c hc).1
  have hbefore : ∃ lobby₁, s.lobbies[l']? = some lobby₁ ∧ (s.room lobby₁).Seated j d ∧
      d ≠ c := by
    rcases putRoom_cases hl₁ hl' with ⟨rfl, rfl⟩ | ⟨hne, hl'⟩
    · rw [Room.Seated, room, leftRoom, Room.left_players, List.getElem?_set] at hd
      split at hd
      · split at hd <;> cases hd
      · next hij =>
          refine ⟨lobby, hl, hd, ?_⟩
          rintro rfl
          exact hij (((hr.inv hl).seats.seated_inj hc hd).mp rfl)
    · refine ⟨lobby', hl', hd, ?_⟩
      rintro rfl
      exact hne (hr.unique hl' hl ((hr.inv hl').seats.seated j d hd).1 hin)
  obtain ⟨lobby₁, hl₁', hd', hne⟩ := hbefore
  have halive := h l' lobby₁ j d hl₁' hd'
  exact (Connection.KeepsSeat.of_seat (s.left_seat hne conn l lobby i).symm).isAlive halive

theorem onLobbyAvailable_slotsAlive {s : Server} (hinv : s.Inv) (h : s.SlotsAlive)
    {l : LobbyId} {lobby : GameLobby} (hl : s.lobbies[l]? = some lobby)
    (hfull : lobby.isFull = false) :
    (s.onLobbyAvailable l).SlotsAlive ↔
      ∀ d ∈ s.playerQueue.head?, (s.conns d).isAlive = true := by
  cases hq : s.playerQueue with
  | nil =>
      rw [onLobbyAvailable, hq]
      exact iff_of_true h fun d hd => by cases hd
  | cons d rest =>
      obtain ⟨_, hid, hnil⟩ := hinv.book.queued d (hq ▸ List.mem_cons_self)
      have hrooms : ({ s with playerQueue := rest } : Server).Rooms := hinv.rooms.congr rfl rfl
      have halive : ({ s with playerQueue := rest } : Server).SlotsAlive :=
        h.congr rfl fun _ => rfl
      rw [onLobbyAvailable_cons hq]
      refine (addPlayer_slotsAlive hrooms halive hl hfull hid hnil).trans ?_
      exact ⟨fun hd d' hd' => Option.some.inj hd' ▸ hd, fun hall => hall d rfl⟩

/-- One step from a state with live players in the slots. -/
theorem slotsAlive_iff {s s' : Server} {e : ServerEvent} (hinv : s.Inv) (h : s.SlotsAlive)
    (hm : s.Moves e s') : s'.SlotsAlive ↔ s.FrontAlive e := by
  have hvacuous : s.drops e = none → s.FrontAlive e := fun hnone c hc => by
    rw [hnone] at hc
    cases hc
  cases hm with
  | refused _ => exact iff_of_true (h.congr rfl fun _ => rfl) (hvacuous rfl)
  | accepted hnext => exact iff_of_true (h.accepted hinv hnext) (hvacuous rfl)
  | sweep =>
      refine iff_of_true (h.congr rfl fun c => ?_) (hvacuous rfl)
      rcases updateQueuePositions_conns { s with timers := s.timers - 1 } with heq | heq
      · rw [heq]
        exact (notifyFrom_idles _ _ _ c).isAlive
      · rw [heq]
  | idle _ hi _ hkept => exact iff_of_true (h.modify hi.isAlive) (hvacuous hkept)
  | outside _ hc _ _ hkept =>
      refine iff_of_true (h.modify_outside hinv.rooms _ hc) fun d hd hh => ?_
      rw [hkept d hd] at hh
      exact absurd hc hh
  | @ready c m first conn l lobby _ hl _ hi _ _ =>
      have hinv' := (hinv.rooms.inv hl).modify (r := s.room lobby) (Room.ready_wanders hi).seat
      refine iff_of_true ?_ (hvacuous rfl)
      have hready : conn.readied.isAlive = (s.conns c).isAlive := hi.isAlive
      exact (h.modify hready).putRoom hl
        (Room.onReady_within hinv'.seats _ _) (Room.onReady_players hinv'.seats _ _)
  | @turn c m first conn l lobby _ hl _ hi _ _ _ =>
      have hinv' := (hinv.rooms.inv hl).modify (r := s.room lobby) hi.keepsSeat
      refine iff_of_true ?_ (hvacuous rfl)
      exact (h.modify hi.isAlive).putRoom hl
        (Room.onTakeTurn_within hinv'.playing _ _) (Room.onTakeTurn_players hinv'.playing _ _)
  | @drop e c conn l lobby i hbusy hl hc halive hi _ hdrops =>
      have hleft := h.left hinv.rooms conn hl hc
      obtain ⟨hinv', hfull⟩ := hinv.dropped hbusy hl hc hi
      have hin := ((hinv.rooms.inv hl).seats.seated i c hc).1
      have hattached : (s.conns c).handlers ≠ [] := by
        rw [hinv.rooms.handlers_eq hl hin]
        exact List.cons_ne_nil _ _
      rw [onLobbyAvailable_slotsAlive hinv' hleft (left_lobby hl c conn i) hfull,
        left_playerQueue]
      have hsame : ∀ d ∈ s.playerQueue.head?,
          ((s.left c conn l lobby i).conns d).isAlive = (s.conns d).isAlive := by
        intro d hd
        have hne : d ≠ c := by
          rintro rfl
          exact hinv.not_queued hl hin (List.mem_of_mem_head? hd)
        exact congrArg (fun p => p.2.2.2) (s.left_seat hne conn l lobby i)
      constructor
      · intro hfront _ _ _ d hd
        exact (hsame d hd).symm.trans (hfront d hd)
      · intro hfront d hd
        exact (hsame d hd).trans (hfront c (hdrops ▸ rfl) hattached d hd)

/-- Whole runs: every slot always holds a live player exactly when no vacancy meets
a dead player at the front of the queue. -/
theorem slots_alive_along (es : List ServerEvent) :
    Along step (fun _ _ s' => s'.SlotsAlive) new es ↔
      Along step (fun s e _ => s.FrontAlive e) new es := by
  refine Along.iff_of_kept (fun s e s' hs h hstep => ?_) .refl
    (fun l lobby i c hl => by cases hl) es
  have hinv := reachable_inv hs
  exact slotsAlive_iff hinv h (step_moves hinv.rooms hstep)

/-- The ninth player leaves the queue, then the first leaves its lobby. -/
def queueDeath : List ServerEvent :=
  nineArrivals ++ [.read 8 (.failed .eof) 0, .read 0 (.failed .eof) 0]

/-- The ninth player is put into the slot of the first. -/
theorem dead_player_seated :
    ¬ ∀ s, Reachable step new s → s.SlotsAlive := by
  intro hall
  have hrun : (run step new queueDeath).any (fun s =>
      decide ((s.lobbies[0]?.bind fun lobby => lobby.players[0]?) = some (some 8) ∧
        (s.conns 8).isAlive = false)) = true := by
    decide +kernel
  obtain ⟨s, hrun, hs⟩ := (Option.any_eq_true ..).mp hrun
  obtain ⟨hslot, hdead⟩ := of_decide_eq_true hs
  obtain ⟨lobby, hl, hslot⟩ := Option.bind_eq_some_iff.mp hslot
  exact absurd ((hall s (.of_run hrun) 0 lobby 0 8 hl hslot).symm.trans hdead) (by decide)

end Server

end ConnectDisks.Net
