import ConnectDisks.Proofs.ServerRooms

/-!
# Everybody has one place

The server asks `!isFull()` before it adds a player, `addPlayer` asks
`canAddPlayers()` and says nothing when the answer is no. The two agree because a
lobby that is playing is full. So a player that is offered to a lobby is always
taken, and an accepted connection that is alive sits in one slot or waits at one
position of the queue.

`Book` is the invariant behind that. Its parameter is the one connection that may
be without a place: the one `onConnectionAccepted` has just welcomed, or the one
`onLobbyAvailable` has taken off the queue.
-/

namespace ConnectDisks.Net

open ConnectDisks.Game Lib

namespace Server

structure Book (s : Server) (pending : Option ConnId) : Prop where
  few : s.lobbies.length ≤ maxLobbies
  fresh : ∀ c ∈ s.accepting ++ s.accepted, c < s.created
  once : (s.accepting ++ s.accepted).Nodup
  unborn : ∀ c ∉ s.accepted, s.conns c = Connection.create
  queue_nodup : s.playerQueue.Nodup
  queued : ∀ c ∈ s.playerQueue, c ∈ s.accepted ∧ (s.conns c).id = 0 ∧
    (s.conns c).handlers = []
  placed : ∀ c ∈ s.accepted, (s.conns c).isAlive = true →
    c ∈ pending ∨ (s.conns c).handlers ≠ [] ∨ c ∈ s.playerQueue
  taken : ∀ p ∈ s.placements, p.taken = true

/-- The invariant of the server. -/
structure Inv (s : Server) : Prop where
  rooms : s.Rooms
  book : s.Book none

/-! ## The lobby takes whom it is offered -/

theorem Rooms.canAddPlayers {s : Server} (h : s.Rooms) {l : LobbyId} {lobby : GameLobby}
    (hl : s.lobbies[l]? = some lobby) (hfull : lobby.isFull = false) :
    lobby.canAddPlayers = true := by
  have hinv := h.inv hl
  have hopen : lobby.lobbyIsOpen = true := hinv.seats.isOpen
  have hplay : lobby.isPlayingGame = false := by
    by_contra hplay
    have hf := hinv.playing.full (Bool.not_eq_false _ ▸ hplay)
    exact absurd (hfull.symm.trans hf) (by decide)
  exact Room.canAddPlayers_iff.mpr ⟨hopen, hplay, hfull⟩

theorem Book.addPlayer {s : Server} {c : ConnId} (hr : s.Rooms) (h : s.Book (some c))
    {l : LobbyId} {lobby : GameLobby} (hl : s.lobbies[l]? = some lobby)
    (hfull : lobby.isFull = false) (hacc : c ∈ s.accepted) (hid : (s.conns c).id = 0)
    (hnil : (s.conns c).handlers = []) (hq : c ∉ s.playerQueue) :
    (s.addPlayer l c).Book none := by
  have hcan := hr.canAddPlayers hl hfull
  obtain ⟨i, _, _, heq⟩ := Room.addPlayer_of_can (hr.inv hl).seats hcan c
  have hjoin : (s.room lobby).Joinable c := ⟨hid, hnil⟩
  have hself : (s.addPlayer l c).conns c = ((s.room lobby).admitted c i).conns c := by
    rw [Server.addPlayer, hl]
    exact congrArg (fun r : Room => r.conns c) heq
  have hother : ∀ d, d ≠ c → (s.addPlayer l c).conns d = s.conns d := by
    intro d hd
    rw [Server.addPlayer, hl]
    exact (congrArg (fun r : Room => r.conns d) heq).trans (Room.admitted_conns_of_ne _ hd i)
  rw [Room.admitted_conns_self hjoin] at hself
  have hlists : (s.addPlayer l c).accepting = s.accepting ∧
      (s.addPlayer l c).accepted = s.accepted ∧ (s.addPlayer l c).created = s.created ∧
      (s.addPlayer l c).playerQueue = s.playerQueue ∧
      (s.addPlayer l c).lobbies.length = s.lobbies.length ∧
      (s.addPlayer l c).placements = s.placements ++ [⟨l, c, true⟩] := by
    rw [Server.addPlayer, hl]
    simp [Server.putRoom, hcan]
  obtain ⟨haccepting, haccepted, hcreated, hqueue, hlen, hplace⟩ := hlists
  refine ⟨?_, ?_, ?_, ?_, ?_, ?_, ?_, ?_⟩
  · rw [hlen]
    exact h.few
  · rw [haccepting, haccepted, hcreated]
    exact h.fresh
  · rw [haccepting, haccepted]
    exact h.once
  · intro d hd
    rw [haccepted] at hd
    rw [hother d fun heq => hd (heq ▸ hacc)]
    exact h.unborn d hd
  · rw [hqueue]
    exact h.queue_nodup
  · intro d hd
    rw [hqueue] at hd
    rw [haccepted, hother d fun heq => hq (heq ▸ hd)]
    exact h.queued d hd
  · intro d hd halive
    rw [haccepted] at hd
    by_cases hdc : d = c
    · rw [hdc, hself]
      exact .inr (.inl (List.cons_ne_nil _ _))
    · rw [hother d hdc] at halive ⊢
      rw [hqueue]
      rcases h.placed d hd halive with hp | hp
      · exact absurd (Option.some.inj hp).symm hdc
      · exact .inr hp
  · intro p hp
    rw [hplace] at hp
    rcases List.mem_append.mp hp with hp | hp
    · exact h.taken p hp
    · rw [List.mem_singleton.mp hp]

theorem Book.congr {s s' : Server} {pending : Option ConnId} (h : s.Book pending)
    (hlobbies : s'.lobbies.length = s.lobbies.length) (haccepting : s'.accepting = s.accepting)
    (haccepted : s'.accepted = s.accepted) (hcreated : s'.created = s.created)
    (hqueue : s'.playerQueue = s.playerQueue) (hplace : s'.placements = s.placements)
    (hseat : ∀ c, (s.conns c).KeepsSeat (s'.conns c))
    (hunborn : ∀ c ∉ s.accepted, s'.conns c = s.conns c) : s'.Book pending := by
  refine ⟨?_, ?_, ?_, ?_, ?_, ?_, ?_, ?_⟩
  · rw [hlobbies]
    exact h.few
  · rw [haccepting, haccepted, hcreated]
    exact h.fresh
  · rw [haccepting, haccepted]
    exact h.once
  · intro c hc
    rw [haccepted] at hc
    rw [hunborn c hc]
    exact h.unborn c hc
  · rw [hqueue]
    exact h.queue_nodup
  · intro c hc
    rw [hqueue] at hc
    rw [haccepted, (hseat c).id, (hseat c).handlers]
    exact h.queued c hc
  · intro c hc halive
    rw [haccepted] at hc
    rw [(hseat c).handlers, hqueue]
    exact h.placed c hc ((hseat c).isAlive halive)
  · rw [hplace]
    exact h.taken

theorem Book.accepted_of_busy {s : Server} {pending : Option ConnId} (h : s.Book pending)
    {c : ConnId} (hbusy : s.conns c ≠ Connection.create) : c ∈ s.accepted := by
  by_contra hc
  exact hbusy (h.unborn c hc)

theorem Book.modify {s : Server} {pending : Option ConnId} (h : s.Book pending) {c : ConnId}
    {conn : Connection} (hacc : c ∈ s.accepted) (hseat : (s.conns c).KeepsSeat conn) :
    (s.modify c fun _ => conn).Book pending := by
  refine h.congr rfl rfl rfl rfl rfl rfl (fun d => ?_) (fun d hd => ?_)
  · by_cases hd : d = c
    · rw [hd, modify_conns_self]
      exact hseat
    · rw [modify_conns_of_ne s hd]
      exact .refl _
  · have hne : d ≠ c := fun heq => hd (heq ▸ hacc)
    exact modify_conns_of_ne s hne _

theorem Book.putRoom {s : Server} {pending : Option ConnId} (h : s.Book pending)
    {l : LobbyId} {lobby : GameLobby} (hr : s.Rooms) (hl : s.lobbies[l]? = some lobby)
    {r : Room} (hw : (s.room lobby).Within r) : (s.putRoom l r).Book pending := by
  refine h.congr (List.length_set ..) rfl rfl rfl rfl rfl (fun c => .of_seat (hw.seat c))
    (fun c hc => hw.others c fun hin => ?_)
  have := hr.handlers_eq hl hin
  rw [h.unborn c hc] at this
  cases this

/-! ## A vacancy -/

theorem onLobbyAvailable_cons {s : Server} {player : ConnId} {rest : List ConnId}
    (hq : s.playerQueue = player :: rest) (l : LobbyId) :
    s.onLobbyAvailable l = ({ s with playerQueue := rest }).addPlayer l player := by
  rw [onLobbyAvailable, hq]
  simp only [addPlayer]
  cases s.lobbies[l]? <;> rfl

theorem onLobbyAvailable_admitted {s : Server} (hr : s.Rooms) {l : LobbyId} {lobby : GameLobby}
    (hl : s.lobbies[l]? = some lobby) (hfull : lobby.isFull = false) {player : ConnId}
    {rest : List ConnId} (hq : s.playerQueue = player :: rest) :
    ∃ i, i < lobby.players.length ∧ s.onLobbyAvailable l =
      { s.putRoom l ((s.room lobby).admitted player i) with
        playerQueue := rest
        placements := s.placements ++ [⟨l, player, true⟩] } := by
  have hcan := hr.canAddPlayers hl hfull
  obtain ⟨i, _, hlt, heq⟩ := Room.addPlayer_of_can (hr.inv hl).seats hcan player
  refine ⟨i, hlt, ?_⟩
  rw [onLobbyAvailable_cons hq, addPlayer,
    show ({ s with playerQueue := rest } : Server).lobbies[l]? = some lobby from hl]
  simp only [hcan]
  exact congrArg (fun r : Room => ({ s.putRoom l r with
    playerQueue := rest
    placements := s.placements ++ [⟨l, player, true⟩] } : Server)) heq

theorem Book.pop {s : Server} (h : s.Book none) {player : ConnId} {rest : List ConnId}
    (hq : s.playerQueue = player :: rest) :
    ({ s with playerQueue := rest } : Server).Book (some player) := by
  have hmem : ∀ c ∈ rest, c ∈ s.playerQueue := fun c hc => hq ▸ List.mem_cons_of_mem _ hc
  refine ⟨h.few, h.fresh, h.once, h.unborn, ?_, fun c hc => h.queued c (hmem c hc), ?_,
    h.taken⟩
  · have := h.queue_nodup
    rw [hq] at this
    exact (List.nodup_cons.mp this).2
  · intro c hc halive
    rcases h.placed c hc halive with hp | hp | hp
    · cases hp
    · exact .inr (.inl hp)
    · rw [hq] at hp
      rcases List.mem_cons.mp hp with rfl | hp
      · exact .inl rfl
      · exact .inr (.inr hp)

theorem Inv.onLobbyAvailable {s : Server} (h : s.Inv) {l : LobbyId} {lobby : GameLobby}
    (hl : s.lobbies[l]? = some lobby) (hfull : lobby.isFull = false) :
    (s.onLobbyAvailable l).Inv := by
  cases hq : s.playerQueue with
  | nil =>
      rw [Server.onLobbyAvailable, hq]
      exact h
  | cons player rest =>
      obtain ⟨hacc, hid, hnil⟩ := h.book.queued player (hq ▸ List.mem_cons_self)
      have hnotin : player ∉ rest := by
        have := h.book.queue_nodup
        rw [hq] at this
        exact (List.nodup_cons.mp this).1
      have hrooms : ({ s with playerQueue := rest } : Server).Rooms := h.rooms.congr rfl rfl
      rw [onLobbyAvailable_cons hq]
      exact ⟨hrooms.addPlayer l hid hnil,
        (h.book.pop hq).addPlayer hrooms hl hfull hacc hid hnil hnotin⟩

/-! ## An arrival -/

/-- The server with a connection it has just accepted. -/
def welcomed (s : Server) (c : ConnId) : Server :=
  { s.modify c (·.onAccept) with accepted := s.accepted ++ [c] }

theorem onConnectionAccepted_eq (s : Server) (c : ConnId) :
    s.onConnectionAccepted c false =
      (if s.lobbies.length ≠ 0 then
        match (s.welcomed c).findAvailableLobby with
        | some l => (s.welcomed c).addPlayer l c
        | none =>
            if s.lobbies.length < maxLobbies then
              (s.welcomed c).makeNewLobby.1.addPlayer s.lobbies.length c
            else (s.welcomed c).addToQueue c
      else if s.lobbies.length < maxLobbies then
        (s.welcomed c).makeNewLobby.1.addPlayer s.lobbies.length c
      else (s.welcomed c).addToQueue c).waitForConnections := rfl

/-- A connection that was accepted goes to the first lobby that is not full, to a
new one, or to the queue. -/
theorem onConnectionAccepted_cases (s : Server) (c : ConnId) :
    (∃ (l : LobbyId) (lobby : GameLobby), s.lobbies[l]? = some lobby ∧ lobby.isFull = false ∧
      s.onConnectionAccepted c false = ((s.welcomed c).addPlayer l c).waitForConnections) ∨
    ((∀ lobby ∈ s.lobbies, lobby.isFull = true) ∧ s.lobbies.length < maxLobbies ∧
      s.onConnectionAccepted c false =
        ((s.welcomed c).makeNewLobby.1.addPlayer s.lobbies.length c).waitForConnections) ∨
    ((∀ lobby ∈ s.lobbies, lobby.isFull = true) ∧ maxLobbies ≤ s.lobbies.length ∧
      s.onConnectionAccepted c false = ((s.welcomed c).addToQueue c).waitForConnections) := by
  cases hfind : (s.welcomed c).findAvailableLobby with
  | some l =>
      obtain ⟨hlt, hfull, _⟩ := List.findIdx?_eq_some_iff_getElem.mp hfind
      have hne : s.lobbies.length ≠ 0 := Nat.ne_of_gt (Nat.lt_of_le_of_lt (Nat.zero_le l) hlt)
      refine .inl ⟨l, (s.welcomed c).lobbies[l], List.getElem?_eq_getElem hlt,
        by simpa using hfull, ?_⟩
      rw [onConnectionAccepted_eq, if_pos hne, hfind]
  | none =>
      have hall : ∀ lobby ∈ s.lobbies, lobby.isFull = true := by
        intro lobby hin
        simpa using List.findIdx?_eq_none_iff.mp hfind lobby hin
      right
      rw [onConnectionAccepted_eq, hfind]
      by_cases hlt : s.lobbies.length < maxLobbies
      · exact .inl ⟨hall, hlt, by simp [hlt]⟩
      · exact .inr ⟨hall, Nat.le_of_not_lt hlt, by simp [hlt]⟩

theorem Book.next_new {s : Server} {pending : Option ConnId} (h : s.Book pending) {c : ConnId}
    {rest : List ConnId} (hnext : s.accepting = c :: rest) : c ∉ s.accepted := by
  have honce := h.once
  rw [hnext, List.cons_append, List.nodup_cons] at honce
  exact fun hin => honce.1 (List.mem_append_right _ hin)

theorem Book.welcomed {s : Server} (h : s.Book none) {c : ConnId} {rest : List ConnId}
    (hnext : s.accepting = c :: rest) :
    (({ s with accepting := rest } : Server).welcomed c).Book (some c) := by
  have hnot := h.next_new hnext
  have hcreate := h.unborn c hnot
  have hother : ∀ d, d ≠ c → (({ s with accepting := rest } : Server).welcomed c).conns d =
      s.conns d := fun d hd => modify_conns_of_ne _ hd _
  have hseat : ((({ s with accepting := rest } : Server).welcomed c).conns c).seat =
      (s.conns c).seat := by
    rw [Server.welcomed]
    exact (congrArg Connection.seat (modify_conns_self _ _ _)).trans
      (Connection.onAccept_idles _).seat
  refine ⟨h.few, fun d hd => h.fresh d ?_, ?_, fun d hd => ?_, h.queue_nodup, fun d hd => ?_,
    fun d hd halive => ?_, h.taken⟩
  · rw [hnext]
    rcases List.mem_append.mp hd with hd | hd
    · exact List.mem_append_left _ (List.mem_cons_of_mem _ hd)
    · rcases List.mem_append.mp hd with hd | hd
      · exact List.mem_append_right _ hd
      · rw [List.mem_singleton.mp hd]
        exact List.mem_append_left _ List.mem_cons_self
  · show (rest ++ (s.accepted ++ [c])).Nodup
    rw [← List.append_assoc]
    have honce : (c :: (rest ++ s.accepted)).Nodup := by
      simpa [hnext] using h.once
    exact List.nodup_append_comm.mp honce
  · have hne : d ≠ c := fun heq => hd (heq ▸ List.mem_append_right _ (List.mem_singleton_self _))
    rw [hother d hne]
    exact h.unborn d fun hin => hd (List.mem_append_left _ hin)
  · obtain ⟨hacc, hid, hnil⟩ := h.queued d hd
    have hne : d ≠ c := fun heq => hnot (heq ▸ hacc)
    rw [hother d hne]
    exact ⟨List.mem_append_left _ hacc, hid, hnil⟩
  · rcases List.mem_append.mp hd with hd | hd
    · have hne : d ≠ c := fun heq => hnot (heq ▸ hd)
      rw [hother d hne] at halive ⊢
      rcases h.placed d hd halive with hp | hp
      · cases hp
      · exact .inr hp
    · rw [List.mem_singleton.mp hd]
      exact .inl rfl

theorem Inv.waitForConnections {s : Server} (h : s.Inv) : s.waitForConnections.Inv := by
  obtain ⟨hrooms, hbook⟩ := h
  have hnew : s.created ∉ s.accepting ++ s.accepted := fun hin =>
    absurd (hbook.fresh _ hin) (Nat.lt_irrefl _)
  have hperm : (s.accepting ++ [s.created] ++ s.accepted).Perm
      (s.created :: (s.accepting ++ s.accepted)) := by
    rw [List.append_assoc]
    exact List.perm_middle
  refine ⟨hrooms.congr rfl rfl, hbook.few, fun c hc => ?_, ?_, hbook.unborn,
    hbook.queue_nodup, hbook.queued, hbook.placed, hbook.taken⟩
  · rcases List.mem_cons.mp (hperm.mem_iff.mp hc) with rfl | hc
    · exact Nat.lt_succ_self _
    · exact Nat.lt_succ_of_lt (hbook.fresh c hc)
  · exact hperm.nodup_iff.mpr (List.nodup_cons.mpr ⟨hnew, hbook.once⟩)

theorem Book.makeNewLobby {s : Server} {pending : Option ConnId} (h : s.Book pending)
    (hlt : s.lobbies.length < maxLobbies) : s.makeNewLobby.1.Book pending := by
  refine ⟨?_, h.fresh, h.once, h.unborn, h.queue_nodup, h.queued, h.placed, h.taken⟩
  rw [Server.makeNewLobby, List.length_append]
  exact hlt

theorem Inv.addToQueue {s : Server} {c : ConnId} (hr : s.Rooms) (h : s.Book (some c))
    (hacc : c ∈ s.accepted) (hid : (s.conns c).id = 0) (hnil : (s.conns c).handlers = [])
    (hq : c ∉ s.playerQueue) : (s.addToQueue c).Inv := by
  have hidles := (s.conns c).notifyQueuePosition_idles
    (UInt64.ofNat (s.playerQueue ++ [c]).length)
  have hrooms : ({ s with playerQueue := s.playerQueue ++ [c] } : Server).Rooms :=
    hr.congr rfl rfl
  have hbook : ({ s with playerQueue := s.playerQueue ++ [c] } : Server).Book none := by
    refine ⟨h.few, h.fresh, h.once, h.unborn, ?_, fun d hd => ?_, fun d hd halive => ?_,
      h.taken⟩
    · exact (List.perm_append_singleton c s.playerQueue).nodup_iff.mpr
        (List.nodup_cons.mpr ⟨hq, h.queue_nodup⟩)
    · rcases List.mem_append.mp hd with hd | hd
      · exact h.queued d hd
      · rw [List.mem_singleton.mp hd]
        exact ⟨hacc, hid, hnil⟩
    · rcases h.placed d hd halive with hp | hp | hp
      · rw [← Option.some.inj hp]
        exact .inr (.inr (List.mem_append_right _ (List.mem_singleton_self c)))
      · exact .inr (.inl hp)
      · exact .inr (.inr (List.mem_append_left _ hp))
  exact ⟨hrooms.modify hidles.keepsSeat, hbook.modify hacc hidles.keepsSeat⟩

theorem Inv.accepted {s : Server} (h : s.Inv) {c : ConnId} {rest : List ConnId}
    (hnext : s.accepting = c :: rest) :
    (onConnectionAccepted { s with accepting := rest } c false).Inv := by
  have hbook := h.book.welcomed hnext
  have hnot := h.book.next_new hnext
  have hcreate := h.book.unborn c hnot
  have hidles := (s.conns c).onAccept_idles
  have hself : (({ s with accepting := rest } : Server).welcomed c).conns c =
      (s.conns c).onAccept := modify_conns_self _ _ _
  have hid : ((({ s with accepting := rest } : Server).welcomed c).conns c).id = 0 := by
    rw [hself, hidles.id, hcreate]
    rfl
  have hnil : ((({ s with accepting := rest } : Server).welcomed c).conns c).handlers = [] := by
    rw [hself, hidles.handlers, hcreate]
    rfl
  have hacc : c ∈ (({ s with accepting := rest } : Server).welcomed c).accepted :=
    List.mem_append_right _ (List.mem_singleton_self c)
  have hq : c ∉ s.playerQueue := fun hin => hnot (h.book.queued c hin).1
  have hrooms : (({ s with accepting := rest } : Server).welcomed c).Rooms :=
    (h.rooms.modify hidles.keepsSeat).congr rfl rfl
  rcases onConnectionAccepted_cases { s with accepting := rest } c with
    ⟨l, lobby, hl, hfull, heq⟩ | ⟨_, hlt, heq⟩ | ⟨_, _, heq⟩ <;> rw [heq]
  · exact Inv.waitForConnections
      ⟨hrooms.addPlayer l hid hnil, hbook.addPlayer hrooms hl hfull hacc hid hnil hq⟩
  · have hrooms' := hrooms.makeNewLobby
    have hl : ((({ s with accepting := rest } : Server).welcomed c).makeNewLobby.1).lobbies[
        s.lobbies.length]? =
        some (GameLobby.new s.lobbies.length FourAcross.minNumPlayers).start := by
      rw [makeNewLobby]
      exact List.getElem?_concat_length
    exact Inv.waitForConnections ⟨hrooms'.addPlayer _ hid hnil,
      (hbook.makeNewLobby hlt).addPlayer hrooms' hl rfl hacc hid hnil hq⟩
  · exact (Inv.addToQueue hrooms hbook hacc hid hnil hq).waitForConnections

/-! ## The sweep of the queue -/

theorem notifyFrom_idles (conns : ConnId → Connection) (pos : Nat) (queue : List ConnId)
    (c : ConnId) : (conns c).Idles (notifyFrom conns pos queue c) := by
  induction queue generalizing conns pos with
  | nil => exact .refl _
  | cons player rest ih =>
      refine .trans ?_ (ih _ _)
      by_cases hc : c = player
      · rw [hc, Function.update_self]
        exact Connection.notifyQueuePosition_idles _ _
      · rw [Function.update_of_ne hc]
        exact .refl _

theorem notifyFrom_of_notMem (conns : ConnId → Connection) (pos : Nat) {queue : List ConnId}
    {c : ConnId} (hc : c ∉ queue) : notifyFrom conns pos queue c = conns c := by
  induction queue generalizing conns pos with
  | nil => rfl
  | cons player rest ih =>
      rw [notifyFrom, ih _ _ fun hin => hc (List.mem_cons_of_mem _ hin),
        Function.update_of_ne (List.ne_of_not_mem_cons hc)]

theorem updateQueuePositions_conns (s : Server) :
    s.updateQueuePositions.conns = notifyFrom s.conns 1 s.updateQueuePositions.playerQueue ∨
      s.updateQueuePositions.conns = s.conns :=
  ite_eq_or_eq _ _ _

theorem Inv.updateQueuePositions {s : Server} (h : s.Inv) : s.updateQueuePositions.Inv := by
  obtain ⟨hrooms, hbook⟩ := h
  have hmem : ∀ c, c ∈ s.updateQueuePositions.playerQueue ↔
      c ∈ s.playerQueue ∧ (s.conns c).isAlive = true := fun c => by
    rw [Server.updateQueuePositions, List.mem_filter]
  have hidles : ∀ c, (s.conns c).Idles (s.updateQueuePositions.conns c) := by
    intro c
    rcases s.updateQueuePositions_conns with heq | heq <;> rw [heq]
    · exact notifyFrom_idles _ _ _ c
    · exact .refl _
  have hsame : ∀ c ∉ s.accepted, s.updateQueuePositions.conns c = s.conns c := by
    intro c hc
    rcases s.updateQueuePositions_conns with heq | heq <;> rw [heq]
    exact notifyFrom_of_notMem _ _ fun hin => hc (hbook.queued c ((hmem c).mp hin).1).1
  refine ⟨⟨fun l lobby hl => ?_, fun c => ?_⟩, hbook.few, hbook.fresh, hbook.once,
    fun c hc => ?_, hbook.queue_nodup.filter _, fun c hc => ?_, fun c hc halive => ?_,
    hbook.taken⟩
  · obtain ⟨haddr, hmax, hinv⟩ := hrooms.room l lobby hl
    exact ⟨haddr, hmax, hinv.seats.congr_all rfl fun c => (hidles c).keepsSeat, hinv.playing⟩
  · rw [(hidles c).handlers]
    exact hrooms.attached c
  · rw [hsame c hc]
    exact hbook.unborn c hc
  · rw [(hidles c).id, (hidles c).handlers]
    exact hbook.queued c ((hmem c).mp hc).1
  · rw [(hidles c).isAlive] at halive
    rw [(hidles c).handlers, hmem]
    rcases hbook.placed c hc halive with hp | hp | hp
    · cases hp
    · exact .inr (.inl hp)
    · exact .inr (.inr ⟨hp, halive⟩)

/-! ## The invariant holds in every run -/

theorem Inv.modify {s : Server} (h : s.Inv) {c : ConnId} {conn : Connection}
    (hbusy : s.conns c ≠ Connection.create) (hseat : (s.conns c).KeepsSeat conn) :
    (s.modify c fun _ => conn).Inv :=
  ⟨h.rooms.modify hseat, h.book.modify (h.book.accepted_of_busy hbusy) hseat⟩

theorem Inv.putRoom {s : Server} (h : s.Inv) {l : LobbyId} {lobby : GameLobby}
    (hl : s.lobbies[l]? = some lobby) {r : Room} (hr : r.Inv)
    (hw : (s.room lobby).Within r) : (s.putRoom l r).Inv :=
  ⟨h.rooms.putRoom_within hl hr hw, h.book.putRoom h.rooms hl hw⟩

/-- What is left when an occupant was dropped, before the server fills the slot:
the lobby is not full. -/
theorem Inv.dropped {s : Server} (h : s.Inv) {c : ConnId} {conn : Connection} {l : LobbyId}
    {lobby : GameLobby} {i : Nat} (hbusy : s.conns c ≠ Connection.create)
    (hl : s.lobbies[l]? = some lobby) (hc : (s.room lobby).Seated i c)
    (hi : (s.conns c).Idles conn) :
    (s.left c conn l lobby i).Inv ∧ (s.leftRoom c conn lobby i).lobby.isFull = false := by
  have hinv := h.rooms.inv hl
  have hseat := (Room.dropped_wanders hi).seat
  have hleft := hinv.dropped hc hi
  refine ⟨(h.modify hbusy hseat).putRoom hl hleft (Room.left_within _ _ _), ?_⟩
  have hcan := Room.left_canAddPlayers (hinv.modify (r := s.room lobby) hseat) hc
  exact (Room.canAddPlayers_iff.mp hcan).2.2

theorem Inv.moves {s s' : Server} {e : ServerEvent} (h : s.Inv) (hm : s.Moves e s') :
    s'.Inv := by
  cases hm with
  | @refused c rest hnext =>
      have honce := h.book.once
      rw [hnext] at honce
      refine ⟨h.rooms.congr rfl rfl, h.book.few, fun d hd => h.book.fresh d ?_,
        (List.nodup_cons.mp honce).2, h.book.unborn, h.book.queue_nodup, h.book.queued,
        h.book.placed, h.book.taken⟩
      rw [hnext]
      exact List.mem_cons_of_mem _ hd
  | accepted hnext => exact h.accepted hnext
  | sweep =>
      exact Inv.updateQueuePositions ⟨h.rooms.congr rfl rfl, h.book.congr rfl rfl rfl rfl rfl
        rfl (fun _ => .refl _) fun _ _ => rfl⟩
  | idle hbusy hi _ _ => exact h.modify hbusy hi.keepsSeat
  | outside hbusy _ hw _ _ => exact h.modify hbusy hw.seat
  | ready hbusy hl _ hi _ _ =>
      have hseat := (Room.ready_wanders hi).seat
      have hinv := (h.rooms.inv hl).modify (r := s.room _) hseat
      exact (h.modify hbusy hseat).putRoom hl (hinv.onReady _ _)
        (Room.onReady_within hinv.seats _ _)
  | turn hbusy hl _ hi _ _ _ =>
      have hinv := (h.rooms.inv hl).modify (r := s.room _) hi.keepsSeat
      exact (h.modify hbusy hi.keepsSeat).putRoom hl (hinv.onTakeTurn _ _)
        (Room.onTakeTurn_within hinv.playing _ _)
  | drop hbusy hl hc halive hi _ _ =>
      obtain ⟨hleft, hfull⟩ := h.dropped hbusy hl hc hi
      exact hleft.onLobbyAvailable (left_lobby hl _ _ _) hfull

theorem new_inv : new.Inv := by
  refine ⟨⟨fun l lobby hl => ?_, fun c => .inl rfl⟩,
    ⟨by decide, fun c hc => ?_, by decide, fun _ _ => rfl, .nil, fun c hc => ?_,
      fun c hc => ?_, fun p hp => ?_⟩⟩
  · cases hl
  · rw [List.mem_singleton.mp hc]
    decide
  · cases hc
  · cases hc
  · cases hp

theorem reachable_inv {s : Server} (hs : Reachable step new s) : s.Inv :=
  hs.invariant new_inv fun _ _ _ h _ hstep => h.moves (step_moves h.rooms hstep)

/-! ## One place each -/

end Server

/-- Where the server can hold a connection: a slot of a lobby, or a position of
the queue. -/
inductive Place
  | slot (l : LobbyId) (i : Nat)
  | queued (i : Nat)
deriving DecidableEq, Repr

namespace Server

def Holds (s : Server) (c : ConnId) : Place → Prop
  | .slot l i => ∃ lobby, s.lobbies[l]? = some lobby ∧ (s.room lobby).Seated i c
  | .queued i => s.playerQueue[i]? = some c

/-- Whoever sits in a slot is attached, whoever is queued is not. -/
theorem Inv.not_queued {s : Server} (h : s.Inv) {c : ConnId} {l : LobbyId}
    {lobby : GameLobby} (hl : s.lobbies[l]? = some lobby) (hc : c ∈ lobby.handlers) :
    c ∉ s.playerQueue := by
  intro hin
  have hnil := (h.book.queued c hin).2.2
  rw [h.rooms.handlers_eq hl hc] at hnil
  cases hnil

theorem Inv.holds_unique {s : Server} (h : s.Inv) {c : ConnId} {p q : Place}
    (hp : s.Holds c p) (hq : s.Holds c q) : p = q := by
  have hmem : ∀ {l i}, s.Holds c (.slot l i) → ∃ lobby : GameLobby,
      s.lobbies[l]? = some lobby ∧ (s.room lobby).Seated i c ∧ c ∈ lobby.handlers := by
    rintro l i ⟨lobby, hl, hc⟩
    exact ⟨lobby, hl, hc, ((h.rooms.inv hl).seats.seated i c hc).1⟩
  cases p with
  | slot l i =>
      obtain ⟨lobby, hl, hc, hin⟩ := hmem hp
      cases q with
      | slot l' i' =>
          obtain ⟨lobby', hl', hc', hin'⟩ := hmem hq
          obtain rfl := h.rooms.unique hl hl' hin hin'
          obtain rfl : lobby = lobby' := Option.some.inj (hl.symm.trans hl')
          rw [((h.rooms.inv hl).seats.seated_inj hc hc').mp rfl]
      | queued i' => exact absurd (List.mem_of_getElem? hq) (h.not_queued hl hin)
  | queued i =>
      cases q with
      | slot l' i' =>
          obtain ⟨lobby', hl', _, hin'⟩ := hmem hq
          exact absurd (List.mem_of_getElem? hp) (h.not_queued hl' hin')
      | queued i' =>
          have hlt := (List.getElem?_eq_some_iff.mp hp).1
          exact congrArg Place.queued
            ((List.getElem?_inj hlt h.book.queue_nodup).mp (hp.trans hq.symm))

/-- Between any two events, every accepted connection that is alive is held in
exactly one place; there are never more lobbies than allowed; and every player
the server offered to a lobby was taken. -/
theorem one_place_each {s : Server} (hs : Reachable step new s) :
    (∀ c ∈ s.accepted, (s.conns c).isAlive = true → ∃! p, s.Holds c p) ∧
      s.lobbies.length ≤ maxLobbies ∧ ∀ p ∈ s.placements, p.taken = true := by
  have hinv := reachable_inv hs
  refine ⟨fun c hc halive => ?_, hinv.book.few, hinv.book.taken⟩
  have hplace : ∃ p, s.Holds c p := by
    rcases hinv.book.placed c hc halive with hnone | hh | hq
    · cases hnone
    · obtain ⟨l, lobby, hl, hin⟩ := (hinv.rooms.attached c).resolve_left hh
      obtain ⟨i, hi⟩ := (hinv.rooms.inv hl).seats.alive c hin halive
      exact ⟨.slot l i, lobby, hl, hi⟩
    · obtain ⟨i, hi⟩ := List.mem_iff_getElem?.mp hq
      exact ⟨.queued i, hi⟩
  obtain ⟨p, hp⟩ := hplace
  exact ⟨p, hp, fun q hq => hinv.holds_unique hq hp⟩

/-- Nine arrivals fill four lobbies and start the queue. -/
def nineArrivals : List ServerEvent := List.replicate 9 (.accept false)

theorem one_place_each_nine :
    ∃ s, run step new nineArrivals = some s ∧ s.accepted = List.range 9 ∧
      s.playerQueue = [8] ∧
      (∀ c ∈ s.accepted, (s.conns c).isAlive = true → ∃! p, s.Holds c p) ∧
      s.lobbies.length ≤ maxLobbies ∧ ∀ p ∈ s.placements, p.taken = true := by
  have hrun : (run step new nineArrivals).any (fun s =>
      decide (s.accepted = List.range 9 ∧ s.playerQueue = [8])) = true := by
    decide +kernel
  obtain ⟨s, hrun, hs⟩ := (Option.any_eq_true ..).mp hrun
  obtain ⟨hacc, hq⟩ := of_decide_eq_true hs
  exact ⟨s, hrun, hacc, hq, one_place_each (.of_run hrun)⟩

end Server

end ConnectDisks.Net
