import ConnectDisks.Proofs.Mirror
import ConnectDisks.Proofs.Placement

/-!
# Every lobby of the server is a started lobby on its own

The four lobbies share one table of connections, one queue and one event loop, and a
player the queue hands to one of them is gone for the others. Still each of them goes
through exactly what a single started lobby goes through when it gets the events
`project` gives it: the server adds nobody but connections a room may add, and what it
does to one lobby no other lobby can see.

The relation between the two is that the rooms mirror each other. One step of the
server is then either a step the lone room takes as well (`Mirror`), or it is about
another lobby, and the frame lemmas here say that nothing near this one has moved.
-/

namespace ConnectDisks.Net

open ConnectDisks.Game Lib

/-- What a completion handler promises about its connection and its signal. -/
theorem Connection.Outcome.keeps {c : Connection} {m : Option Message}
    {out : Connection × Option Signal} (h : c.Outcome m out) :
    c.KeepsSeat out.1 ∧
      (out.2 = some .disconnected → c.isAlive = true ∧ out.1.isAlive = false) := by
  cases h with
  | silent hi _ => exact ⟨hi.keepsSeat, fun he => by cases he⟩
  | readied hi _ _ => exact ⟨(Room.ready_wanders hi).seat, fun he => by cases he⟩
  | tookTurn hi _ _ _ => exact ⟨hi.keepsSeat, fun he => by cases he⟩
  | dropped hi halive => exact ⟨(Room.dropped_wanders hi).seat, fun _ => ⟨halive, rfl⟩⟩

namespace Room

variable {r₀ r r₁ : Room}

/-- What happens elsewhere does not disturb the picture. -/
theorem Mirrors.frame (h : r₀.Mirrors r) (hl : r₁.lobby = r₀.lobby)
    (hc : ∀ c, r₁.Near c → r₁.conns c = r₀.conns c) : r₁.Mirrors r := by
  refine ⟨by rw [hl, h.lobby], fun c hn => ?_⟩
  have heq := hc c hn
  rw [heq]
  refine h.conns c fun l hin => ?_
  rw [← heq] at hin
  rw [← hl]
  exact hn l hin

theorem Inv.handle {r : Room} (h : r.Inv) {c : ConnId} {i : Nat} (first : UInt8)
    {signal : Signal}
    (hdrop : signal = .disconnected → r.Seated i c ∧ (r.conns c).isAlive = false) :
    (r.handle c first signal).1.Inv ∧ r.Within (r.handle c first signal).1 := by
  cases signal with
  | disconnected =>
      obtain ⟨hseat, hdead⟩ := hdrop rfl
      rw [Room.handle, onDisconnect_eq h hseat]
      exact ⟨h.left hseat hdead, left_within _ _ _⟩
  | readied => exact ⟨h.onReady c first, onReady_within h.seats c first⟩
  | tookTurn column => exact ⟨h.onTakeTurn c column, onTakeTurn_within h.playing c column⟩

theorem Within.joinable (h : r₀.Within r) {c : ConnId} (hc : r₀.Joinable c) : r.Joinable c := by
  have hkeep := Connection.KeepsSeat.of_seat (h.seat c)
  rw [Joinable, hkeep.id, hkeep.handlers]
  exact hc

end Room

namespace Server

/-- A lobby of the server, made or not, among the server's connections. -/
def roomAt (s : Server) (l : LobbyId) : Room := s.room (s.lobbyAt l)

theorem lobbyAt_of_some {s : Server} {l : LobbyId} {lobby : GameLobby}
    (hl : s.lobbies[l]? = some lobby) : s.lobbyAt l = lobby := by
  rw [lobbyAt, hl]
  rfl

theorem roomAt_of_some {s : Server} {l : LobbyId} {lobby : GameLobby}
    (hl : s.lobbies[l]? = some lobby) : s.roomAt l = s.room lobby := by
  rw [roomAt, lobbyAt_of_some hl]

theorem lobbyAt_putRoom {s : Server} {l : LobbyId} {lobby : GameLobby}
    (hl : s.lobbies[l]? = some lobby) (r : Room) : (s.putRoom l r).lobbyAt l = r.lobby :=
  lobbyAt_of_some (putRoom_getElem? hl r)

theorem roomAt_putRoom {s : Server} {l : LobbyId} {lobby : GameLobby}
    (hl : s.lobbies[l]? = some lobby) (r : Room) : (s.putRoom l r).roomAt l = r := by
  rw [roomAt, lobbyAt_putRoom hl]
  rfl

theorem lobbyAt_putRoom_of_ne (s : Server) {l l' : LobbyId} (hne : l ≠ l') (r : Room) :
    (s.putRoom l' r).lobbyAt l = s.lobbyAt l := by
  rw [lobbyAt, lobbyAt, putRoom, List.getElem?_set_ne (Ne.symm hne)]

theorem lobbyAt_makeNewLobby (s : Server) (l : LobbyId) :
    s.makeNewLobby.1.lobbyAt l = s.lobbyAt l := by
  rw [lobbyAt, lobbyAt, makeNewLobby]
  simp only
  by_cases hlt : l < s.lobbies.length
  · rw [List.getElem?_append_left hlt]
  · have hle := Nat.le_of_not_lt hlt
    rw [List.getElem?_append_right hle, List.getElem?_singleton,
      List.getElem?_eq_none_iff.mpr hle]
    split
    · next h =>
        rw [Nat.le_antisymm (Nat.sub_eq_zero_iff_le.mp h) hle]
        rfl
    · rfl

theorem Rooms.lobbyAt_address {s : Server} (h : s.Rooms) (l : LobbyId) :
    (s.lobbyAt l).address = l := by
  cases hl : s.lobbies[l]? with
  | none =>
      rw [lobbyAt, hl]
      rfl
  | some lobby =>
      rw [lobbyAt_of_some hl]
      exact (h.room l lobby hl).1

theorem Rooms.roomAt {s : Server} (h : s.Rooms) (l : LobbyId) : (s.roomAt l).Inv := by
  cases hl : s.lobbies[l]? with
  | some lobby =>
      rw [roomAt_of_some hl]
      exact h.inv hl
  | none =>
      rw [Server.roomAt, lobbyAt, hl]
      refine Room.new_inv l FourAcross.minNumPlayers fun c hin => ?_
      change l ∈ (s.conns c).handlers at hin
      rcases h.attached c with hnil | ⟨l', lobby', hl', hc⟩
      · rw [hnil] at hin
        cases hin
      · rw [h.handlers_eq hl' hc, List.mem_singleton] at hin
        rw [hin, hl'] at hl
        cases hl

theorem Rooms.near_iff {s : Server} (h : s.Rooms) (l : LobbyId) (c : ConnId) :
    (s.roomAt l).Near c ↔ s.concerns l c = true := by
  rw [Room.Near, concerns, List.all_eq_true]
  refine forall₂_congr fun l' _ => ?_
  rw [beq_iff_eq]
  show l' = (s.lobbyAt l).address ↔ l' = l
  rw [h.lobbyAt_address]

/-! ## What another lobby does -/

theorem putRoom_frame {s : Server} (h : s.Rooms) {l l' : LobbyId} (hne : l ≠ l')
    {lobby : GameLobby} (hl : s.lobbies[l']? = some lobby) {r : Room}
    (hw : (s.room lobby).Within r) {c : ConnId}
    (hc : ((s.putRoom l' r).roomAt l).Near c) :
    ((s.putRoom l' r).roomAt l).conns c = s.conns c := by
  refine hw.others c fun hin => hne ?_
  have hh := Connection.handlers_of_seat (hw.seat c)
  have hmem : l' ∈ (r.conns c).handlers := by
    rw [hh]
    exact (h.mem_iff hl c).mp hin
  have haddr := hc l' hmem
  rw [haddr]
  show l = ((s.putRoom l' r).lobbyAt l).address
  rw [lobbyAt_putRoom_of_ne s hne, h.lobbyAt_address]

theorem roomAt_addPlayer {s : Server} {l : LobbyId} {lobby : GameLobby}
    (hl : s.lobbies[l]? = some lobby) (c : ConnId) :
    (s.addPlayer l c).roomAt l = (s.roomAt l).addPlayer c := by
  rw [addPlayer, hl, roomAt_of_some hl]
  exact roomAt_putRoom hl _

theorem admitted_far {s : Server} (h : s.Rooms) {l l' : LobbyId} (hne : l ≠ l')
    {lobby : GameLobby} (hl : s.lobbies[l']? = some lobby) {c : ConnId}
    (hjoin : (s.room lobby).Joinable c) (i : Nat) :
    ¬ ((s.putRoom l' ((s.room lobby).admitted c i)).roomAt l).Near c := by
  intro hnear
  have hmem : l' ∈ (((s.room lobby).admitted c i).conns c).handlers := by
    rw [Room.admitted_conns_self hjoin i]
    exact List.mem_singleton.mpr (h.room l' lobby hl).1.symm
  have haddr := hnear l' hmem
  change l' = ((s.putRoom l' _).lobbyAt l).address at haddr
  rw [lobbyAt_putRoom_of_ne s hne, h.lobbyAt_address] at haddr
  exact hne haddr.symm

theorem addPlayer_frame {s : Server} (h : s.Rooms) {l l' : LobbyId} (hne : l ≠ l')
    {c : ConnId} (hjoin : (s.conns c).id = 0 ∧ (s.conns c).handlers = []) :
    ((s.addPlayer l' c).roomAt l).lobby = (s.roomAt l).lobby ∧
      ∀ d, ((s.addPlayer l' c).roomAt l).Near d → (s.addPlayer l' c).conns d = s.conns d ∧
        (d = c → ∀ lobby, s.lobbies[l']? = some lobby → lobby.canAddPlayers = false) := by
  cases hl : s.lobbies[l']? with
  | none =>
      rw [addPlayer, hl]
      exact ⟨rfl, fun _ _ => ⟨rfl, fun _ _ hlobby => by cases hlobby⟩⟩
  | some lobby =>
      rw [addPlayer, hl]
      refine ⟨lobbyAt_putRoom_of_ne s hne _, fun d hd => ?_⟩
      change ((s.putRoom l' ((s.room lobby).addPlayer c)).roomAt l).Near d at hd
      show ((s.room lobby).addPlayer c).conns d = s.conns d ∧ _
      rcases Room.addPlayer_cases (h.inv hl).seats c with ⟨hcan, heq⟩ | ⟨_, i, _, _, heq⟩
      · rw [heq]
        exact ⟨rfl, fun _ lobby' hlobby' => Option.some.inj hlobby' ▸ hcan⟩
      · rw [heq] at hd ⊢
        have hdc : d ≠ c := fun hdc => admitted_far h hne hl hjoin i (hdc ▸ hd)
        exact ⟨Room.admitted_conns_of_ne _ hdc i, fun heq => absurd heq hdc⟩

theorem roomAt_onLobbyAvailable {s : Server} {l : LobbyId} {lobby : GameLobby}
    (hl : s.lobbies[l]? = some lobby) :
    (s.onLobbyAvailable l).roomAt l = (s.roomAt l).onLobbyAvailable s.playerQueue.head? := by
  cases hq : s.playerQueue with
  | nil =>
      rw [onLobbyAvailable, hq]
      rfl
  | cons player rest =>
      rw [onLobbyAvailable_cons hq]
      exact roomAt_addPlayer (s := { s with playerQueue := rest }) hl player

theorem onLobbyAvailable_frame {s : Server} (h : s.Rooms) {l l' : LobbyId} (hne : l ≠ l')
    (hjoin : ∀ d ∈ s.playerQueue, (s.conns d).id = 0 ∧ (s.conns d).handlers = []) :
    ((s.onLobbyAvailable l').roomAt l).lobby = (s.roomAt l).lobby ∧
      ∀ d, ((s.onLobbyAvailable l').roomAt l).Near d →
        (s.onLobbyAvailable l').conns d = s.conns d := by
  cases hq : s.playerQueue with
  | nil =>
      rw [onLobbyAvailable, hq]
      exact ⟨rfl, fun _ _ => rfl⟩
  | cons player rest =>
      rw [onLobbyAvailable_cons hq]
      obtain ⟨hlobby, hconns⟩ := addPlayer_frame (s := { s with playerQueue := rest })
        (h.congr rfl rfl) hne (hjoin player (hq ▸ List.mem_cons_self))
      exact ⟨hlobby, fun d hd => (hconns d hd).1⟩

/-! ## One completion handler -/

section Complete

variable {s : Server} {r : Room} {l : LobbyId} {c : ConnId} {conn : Connection}

theorem complete_outside (hr : r.Inv) (hm : (s.roomAt l).Mirrors r)
    (hnil : (s.conns c).handlers = []) (hseat : (s.conns c).KeepsSeat conn)
    (signal : Option Signal) (first : UInt8) (refill : Option ConnId) :
    ((s.complete c (conn, signal) first).roomAt l).Mirrors
      (r.complete c (conn.renamed, signal) first refill) := by
  have hnear : (s.roomAt l).Near c := Room.near_of_nil hnil
  have hconn : r.conns c = (s.conns c).renamed := hm.conns c hnear
  have hnot : c ∉ r.lobby.handlers := by
    intro hin
    have := (hr.seats.member c hin).2.1
    rw [hconn, Connection.renamed_handlers_eq_nil.mpr hnil] at this
    cases this
  have hseat' : (r.conns c).KeepsSeat conn.renamed := by
    rw [hconn]
    exact hseat.renamed
  rw [complete_of_outside hnil hseat, Room.complete_of_notMem hr.seats hnot hseat']
  exact @Room.Mirrors.modify _ _ hm c (fun _ => conn) (fun _ => conn.renamed) fun _ => rfl

theorem complete_inside (h : s.Inv) (hr : r.Inv) (hm : (s.roomAt l).Mirrors r)
    {lobby : GameLobby} (hl : s.lobbies[l]? = some lobby) (hc : c ∈ lobby.handlers)
    (hseat : (s.conns c).KeepsSeat conn) {signal : Signal} (first : UInt8)
    (hdrop : signal = .disconnected →
      (s.conns c).isAlive = true ∧ conn.isAlive = false) :
    ((s.complete c (conn, some signal) first).roomAt l).Mirrors
      (r.complete c (conn.renamed, some signal) first s.playerQueue.head?) := by
  have hinv := h.rooms.inv hl
  have hroom := roomAt_of_some hl
  rw [hroom] at hm
  have hnear : (s.room lobby).Near c := hinv.seats.near hc
  have hconn : r.conns c = (s.conns c).renamed := hm.conns c hnear
  have hseat' : (r.conns c).KeepsSeat conn.renamed := by
    rw [hconn]
    exact hseat.renamed
  have hc' : c ∈ r.lobby.handlers := by
    rw [hm.lobby]
    exact hc
  have hi : ((s.room lobby).modify c fun _ => conn).Inv := hinv.modify hseat
  have hi' : (r.modify c fun _ => conn.renamed).Inv := hr.modify hseat'
  have hmod : ((s.room lobby).modify c fun _ => conn).Mirrors
      (r.modify c fun _ => conn.renamed) :=
    @Room.Mirrors.modify _ _ hm c (fun _ => conn) (fun _ => conn.renamed) fun _ => rfl
  have hnear' : ((s.room lobby).modify c fun _ => conn).Near c := hi.seats.near hc
  obtain ⟨i, hseated⟩ : ∃ i, signal = .disconnected →
      ((s.room lobby).modify c fun _ => conn).Seated i c := by
    by_cases hs : signal = .disconnected
    · obtain ⟨i, hi⟩ := hinv.seats.alive c hc (hdrop hs).1
      exact ⟨i, fun _ => hi⟩
    · exact ⟨0, fun hs' => absurd hs' hs⟩
  obtain ⟨hhandled, havail⟩ := hmod.handle hi hi' hnear' first hseated
  have hafter := hi.handle first fun hs => ⟨hseated hs, by
    rw [Room.modify_conns_self]
    exact (hdrop hs).2⟩
  have hafter' := hi'.handle first fun hs => ⟨hmod.seated (hseated hs), by
    rw [Room.modify_conns_self]
    exact (hdrop hs).2⟩
  have hl' : (s.modify c fun _ => conn).lobbies[l]? = some lobby := hl
  rw [complete_of_mem h.rooms hl hc hseat, Room.complete_of_mem hr.seats hc' hseat', havail]
  split
  · rw [roomAt_onLobbyAvailable (putRoom_getElem? hl' _), roomAt_putRoom hl']
    refine hhandled.onLobbyAvailable hafter.1.seats hafter'.1.seats fun d hd => ?_
    have hq : d ∈ s.playerQueue := List.mem_of_head? hd
    have hjoin : (s.room lobby).Joinable d := (h.book.queued d hq).2
    have hne : d ≠ c := fun heq => h.not_queued hl hc (heq ▸ hq)
    exact hafter.2.joinable (hjoin.congr (Room.modify_conns_of_ne _ hne _))
  · rw [roomAt_putRoom hl']
    exact hhandled

theorem complete_elsewhere (h : s.Inv) (hm : (s.roomAt l).Mirrors r) {l' : LobbyId}
    (hne : l ≠ l') {lobby : GameLobby} (hl : s.lobbies[l']? = some lobby)
    (hc : c ∈ lobby.handlers) (hseat : (s.conns c).KeepsSeat conn) (signal : Option Signal)
    (first : UInt8)
    (hdrop : signal = some .disconnected →
      (s.conns c).isAlive = true ∧ conn.isAlive = false) :
    ((s.complete c (conn, signal) first).roomAt l).Mirrors r := by
  have hinv := h.rooms.inv hl
  have hrooms : (s.modify c fun _ => conn).Rooms := h.rooms.modify hseat
  have hl₁ : (s.modify c fun _ => conn).lobbies[l']? = some lobby := hl
  have hm₁ : ((s.modify c fun _ => conn).roomAt l).Mirrors r := by
    refine hm.frame rfl fun d hd => ?_
    refine modify_conns_of_ne s (fun hdc => hne ?_) fun _ => conn
    subst hdc
    have hmem : l' ∈ ((s.modify d fun _ => conn).conns d).handlers := by
      rw [modify_conns_self, hseat.handlers, h.rooms.handlers_eq hl hc]
      exact List.mem_singleton_self l'
    exact (h.rooms.lobbyAt_address l).symm.trans (hd l' hmem).symm
  cases signal with
  | none => exact hm₁
  | some signal =>
      have hi : ((s.room lobby).modify c fun _ => conn).Inv := hinv.modify hseat
      obtain ⟨i, hseated⟩ : ∃ i, signal = .disconnected →
          ((s.room lobby).modify c fun _ => conn).Seated i c ∧
            (((s.room lobby).modify c fun _ => conn).conns c).isAlive = false := by
        by_cases hs : signal = .disconnected
        · obtain ⟨halive, hdead⟩ := hdrop (congrArg some hs)
          obtain ⟨i, hi⟩ := hinv.seats.alive c hc halive
          exact ⟨i, fun _ => ⟨hi, by rwa [Room.modify_conns_self]⟩⟩
        · exact ⟨0, fun hs' => absurd hs' hs⟩
      obtain ⟨hafter, hwithin⟩ := hi.handle first hseated
      have hm₂ := hm₁.frame (lobbyAt_putRoom_of_ne _ hne _) fun d hd =>
        putRoom_frame hrooms hne hl₁ hwithin hd
      rw [complete_of_mem h.rooms hl hc hseat]
      split
      · have hjoin : ∀ d ∈ s.playerQueue, (s.room lobby).Joinable d := fun d hd =>
          (h.book.queued d hd).2
        obtain ⟨hlobby, hconns⟩ := onLobbyAvailable_frame
          (hrooms.putRoom_within hl₁ hafter hwithin) hne fun d hd => by
            have hdc : d ≠ c := fun heq => h.not_queued hl hc (heq ▸ hd)
            exact hwithin.joinable ((hjoin d hd).congr (Room.modify_conns_of_ne _ hdc _))
        exact hm₂.frame hlobby hconns
      · exact hm₂

/-- A completion on a connection is a completion in the rooms of the lobbies it
concerns, and nothing to the others. -/
theorem complete_projects (h : s.Inv) (hr : r.Inv) (hm : (s.roomAt l).Mirrors r)
    {m : Option Message} {out : Connection × Option Signal} (ho : (s.conns c).Outcome m out)
    (first : UInt8) :
    (s.concerns l c = true → ((s.complete c out first).roomAt l).Mirrors
      (r.complete c (out.1.renamed, out.2) first s.playerQueue.head?)) ∧
    (s.concerns l c = false → ((s.complete c out first).roomAt l).Mirrors r) := by
  obtain ⟨conn, signal⟩ := out
  obtain ⟨hseat, hdrop⟩ := ho.keeps
  rcases h.rooms.attached c with hnil | ⟨l', lobby, hl, hc⟩
  · have hcon : s.concerns l c = true := by rw [concerns, hnil]; rfl
    exact ⟨fun _ => complete_outside hr hm hnil hseat signal first _,
      fun hn => absurd (hcon.symm.trans hn) (by decide)⟩
  · have hcon : s.concerns l c = (l' == l) := by
      rw [concerns, h.rooms.handlers_eq hl hc]
      exact Bool.and_true _
    rw [hcon]
    refine ⟨fun heq => ?_, fun hne => ?_⟩
    · obtain rfl := beq_iff_eq.mp heq
      cases signal with
      | none =>
          exact @Room.Mirrors.modify _ _ hm c (fun _ => conn) (fun _ => conn.renamed) fun _ => rfl
      | some signal =>
          exact complete_inside h hr hm hl hc hseat first fun hs => hdrop (congrArg some hs)
    · exact complete_elsewhere h hm (Ne.symm (beq_eq_false_iff_ne.mp hne)) hl hc hseat signal
        first hdrop

end Complete

/-! ## Arrivals and the queue -/

theorem notices_run {lobby : GameLobby} {conns : ConnId → Connection} {r : Room} (pos : Nat)
    (hm : Room.Mirrors ⟨lobby, conns⟩ r) {queue : List ConnId}
    (hq : ∀ c ∈ queue, (conns c).id = 0 ∧ (conns c).handlers = []) :
    ∃ r', run Room.step r (notices pos queue) = some r' ∧
      Room.Mirrors ⟨lobby, notifyFrom conns pos queue⟩ r' := by
  induction queue generalizing conns r pos with
  | nil => exact ⟨r, rfl, hm⟩
  | cons c rest ih =>
      have hjoin : Room.Joinable ⟨lobby, conns⟩ c := hq c List.mem_cons_self
      have hm' : Room.Mirrors
          (Room.modify ⟨lobby, conns⟩ c (·.notifyQueuePosition (UInt64.ofNat pos)))
          (r.modify c (·.notifyQueuePosition (UInt64.ofNat pos))) := by
        refine hm.modify c fun _ => ?_
        rw [hm.conns c (Room.near_of_nil hjoin.2)]
        exact Connection.sendMessage_renamed _ _
      obtain ⟨r', hrun, hr'⟩ := ih (pos + 1) hm' fun d hd => by
        have hkeep : (conns d).KeepsSeat (Function.update conns c
            ((conns c).notifyQueuePosition (UInt64.ofNat pos)) d) := by
          by_cases hdc : d = c
          · subst hdc
            rw [Function.update_self]
            exact (Connection.notifyQueuePosition_idles _ _).keepsSeat
          · rw [Function.update_of_ne hdc]
            exact .refl _
        rw [hkeep.id, hkeep.handlers]
        exact hq d (List.mem_cons_of_mem c hd)
      refine ⟨r', ?_, hr'⟩
      rw [notices, run, Room.step, if_pos (hm.joinable hjoin)]
      exact hrun

theorem updateQueuePositions_projects {s : Server} (h : s.Inv) {l : LobbyId} {r : Room}
    (hm : (s.roomAt l).Mirrors r) :
    ∃ r', run Room.step r (project l s .queueTimer) = some r' ∧
      ((updateQueuePositions { s with timers := s.timers - 1 }).roomAt l).Mirrors r' := by
  have htell : ∀ (p : Prop) [Decidable p], ∃ r',
      run Room.step r (if p then notices 1 (s.playerQueue.filter fun c => (s.conns c).isAlive)
        else []) = some r' ∧
      Room.Mirrors ⟨s.lobbyAt l, if p then
        notifyFrom s.conns 1 (s.playerQueue.filter fun c => (s.conns c).isAlive)
        else s.conns⟩ r' := by
    intro p _
    split
    · exact notices_run 1 hm fun c hc => (h.book.queued c (List.mem_filter.mp hc).1).2
    · exact ⟨r, rfl, hm⟩
  exact htell _

theorem onConnectionAccepted_destination (s : Server) (c : ConnId) :
    (∃ (t : Server) (l : LobbyId) (lobby : GameLobby), s.destination = some l ∧
      (t = s.welcomed c ∨ t = (s.welcomed c).makeNewLobby.1) ∧ t.lobbies[l]? = some lobby ∧
      lobby.isFull = false ∧
      s.onConnectionAccepted c false = (t.addPlayer l c).waitForConnections) ∨
    (s.destination = none ∧
      s.onConnectionAccepted c false = ((s.welcomed c).addToQueue c).waitForConnections) := by
  rw [onConnectionAccepted_eq, destination,
    show (s.welcomed c).findAvailableLobby = s.findAvailableLobby from rfl]
  cases hfind : s.findAvailableLobby with
  | some l =>
      obtain ⟨hlt, hfull, _⟩ := List.findIdx?_eq_some_iff_getElem.mp hfind
      have hne : s.lobbies.length ≠ 0 := Nat.ne_of_gt (Nat.lt_of_le_of_lt (Nat.zero_le l) hlt)
      refine .inl ⟨s.welcomed c, l, s.lobbies[l], rfl, .inl rfl, List.getElem?_eq_getElem hlt,
        by simpa using hfull, ?_⟩
      rw [if_pos hne]
  | none =>
      by_cases hlt : s.lobbies.length < maxLobbies
      · refine .inl ⟨(s.welcomed c).makeNewLobby.1, s.lobbies.length,
          (GameLobby.new s.lobbies.length FourAcross.minNumPlayers).start, by simp [hlt], .inr rfl,
          ?_, rfl, by simp [hlt]⟩
        rw [makeNewLobby]
        exact List.getElem?_concat_length
      · exact .inr ⟨by simp [hlt], by simp [hlt]⟩

theorem Inv.welcomed {s : Server} (h : s.Inv) {l : LobbyId} {r : Room}
    (hm : (s.roomAt l).Mirrors r) {c : ConnId} {rest : List ConnId}
    (hnext : s.accepting = c :: rest) :
    r.conns c = Connection.create ∧
      ((({ s with accepting := rest } : Server).welcomed c).roomAt l).Mirrors
        (r.modify c (·.onAccept)) ∧
      ((({ s with accepting := rest } : Server).welcomed c).conns c).id = 0 ∧
      ((({ s with accepting := rest } : Server).welcomed c).conns c).handlers = [] := by
  have hcreate := h.book.unborn c (h.book.next_new hnext)
  have hnil : (s.conns c).handlers = [] := by rw [hcreate]; rfl
  have hmirror := hm.conns c (Room.near_of_nil hnil)
  have hself : (({ s with accepting := rest } : Server).welcomed c).conns c =
      (s.conns c).onAccept := modify_conns_self _ _ _
  have hidles := (s.conns c).onAccept_idles
  refine ⟨?_, ?_, ?_, ?_⟩
  · rw [hmirror]
    show (s.conns c).renamed = Connection.create
    rw [hcreate]
    rfl
  · refine hm.modify c fun _ => ?_
    rw [hmirror]
    exact Connection.onAccept_renamed _
  · rw [hself, hidles.id, hcreate]
    rfl
  · rw [hself, hidles.handlers, hcreate]
    rfl

theorem addPlayer_projects {s t : Server} {l l' : LobbyId} {r r₁ : Room}
    (hm : (s.roomAt l).Mirrors r) (ht : t.Rooms) (htm : (t.roomAt l).Mirrors r₁)
    (hr₁ : r₁.Seats) {c : ConnId} (hjoin : (t.conns c).id = 0 ∧ (t.conns c).handlers = [])
    (hlobby : (t.roomAt l).lobby = (s.roomAt l).lobby)
    (hconns : ∀ d, d ≠ c → t.conns d = s.conns d) {lobby : GameLobby}
    (hl' : t.lobbies[l']? = some lobby) (hfull : lobby.isFull = false) :
    ((t.addPlayer l' c).roomAt l).Mirrors (if l' = l then r₁.addPlayer c else r) := by
  by_cases hll : l' = l
  · subst hll
    rw [if_pos rfl, roomAt_addPlayer hl']
    exact htm.addPlayer (ht.roomAt l').seats hr₁ hjoin
  · rw [if_neg hll]
    obtain ⟨hsame, hframe⟩ := addPlayer_frame ht (Ne.symm hll) hjoin
    refine hm.frame (hsame.trans hlobby) fun d hd => ?_
    obtain ⟨heq, hturned⟩ := hframe d hd
    refine heq.trans (hconns d fun hdc => ?_)
    exact absurd ((hturned hdc lobby hl').symm.trans (ht.canAddPlayers hl' hfull)) (by decide)

theorem accepted_projects {s : Server} (h : s.Inv) {l : LobbyId} {r : Room} (hr : r.Inv)
    (hm : (s.roomAt l).Mirrors r) {c : ConnId} {rest : List ConnId}
    (hnext : s.accepting = c :: rest) :
    ∃ r', run Room.step r (project l s (.accept false)) = some r' ∧
      ((onConnectionAccepted { s with accepting := rest } c false).roomAt l).Mirrors r' := by
  obtain ⟨hconn, hwelcome, hjoin⟩ := h.welcomed hm hnext
  have hseat : (s.conns c).KeepsSeat (s.conns c).onAccept :=
    (Connection.onAccept_idles _).keepsSeat
  have hrooms : (({ s with accepting := rest } : Server).welcomed c).Rooms :=
    (h.rooms.modify hseat).congr rfl rfl
  have hseat₁ : (r.conns c).KeepsSeat (r.conns c).onAccept :=
    (Connection.onAccept_idles _).keepsSeat
  have hr₁ : (r.modify c (·.onAccept)).Inv := hr.modify hseat₁
  have haccept : ∀ es, run Room.step r (.accept c :: es) =
      run Room.step (r.modify c (·.onAccept)) es := by
    intro es
    rw [run, Room.step, if_pos hconn]
    rfl
  rcases onConnectionAccepted_destination { s with accepting := rest } c with
    ⟨t, l', lobby, hdest, ht, hl', hfull, heq⟩ | ⟨hdest, heq⟩ <;> rw [heq]
  · have hdest' : s.destination = some l' := hdest
    have hplace : t.Rooms ∧ (t.roomAt l).Mirrors (r.modify c (·.onAccept)) ∧
        ((t.conns c).id = 0 ∧ (t.conns c).handlers = []) ∧
        (t.roomAt l).lobby = (s.roomAt l).lobby ∧ ∀ d, d ≠ c → t.conns d = s.conns d := by
      rcases ht with rfl | rfl
      · exact ⟨hrooms, hwelcome, hjoin, rfl, fun d hd => modify_conns_of_ne _ hd _⟩
      · refine ⟨hrooms.makeNewLobby, ?_, hjoin, lobbyAt_makeNewLobby _ l,
          fun d hd => modify_conns_of_ne _ hd _⟩
        rw [roomAt, lobbyAt_makeNewLobby]
        exact hwelcome
    obtain ⟨htrooms, htm, htjoin, htlobby, htconns⟩ := hplace
    have hadded := addPlayer_projects hm htrooms htm hr₁.seats htjoin htlobby htconns hl' hfull
    refine ⟨_, ?_, hadded⟩
    simp only [project, hnext, hdest', Bool.false_eq_true, if_false]
    by_cases hll : l' = l
    · subst hll
      have htjoin' : (t.roomAt l').Joinable c := htjoin
      rw [if_pos rfl, if_pos rfl, haccept, run_singleton, Room.step,
        if_pos (htm.joinable htjoin')]
    · rw [if_neg hll, if_neg hll]
      rfl
  · have hdest' : s.destination = none := hdest
    simp only [project, hnext, hdest', Bool.false_eq_true, if_false]
    refine ⟨(r.modify c (·.onAccept)).modify c
      (·.notifyQueuePosition (UInt64.ofNat (s.playerQueue.length + 1))), ?_, ?_⟩
    · rw [haccept, run_singleton, Room.step, if_pos (hwelcome.joinable hjoin)]
    · have hlen : s.playerQueue.length + 1 = (s.playerQueue ++ [c]).length := by
        rw [List.length_append, List.length_singleton]
      rw [hlen]
      refine @Room.Mirrors.modify _ _ hwelcome c
        (·.notifyQueuePosition (UInt64.ofNat (s.playerQueue ++ [c]).length)) _ fun _ => ?_
      rw [hwelcome.conns c (Room.near_of_nil hjoin.2)]
      exact Connection.sendMessage_renamed _ _

/-! ## The step and the run -/

/-- A lobby alone hears of the operations of the connections that are near to it. -/
theorem completed_projects {s : Server} (h : s.Inv) {l : LobbyId} {r : Room} (hr : r.Inv)
    (hm : (s.roomAt l).Mirrors r) {c : ConnId} {m : Option Message}
    {out : Connection × Option Signal} (ho : (s.conns c).Outcome m out) {first : UInt8}
    {e : RoomEvent}
    (hstep : r.conns c = (s.conns c).renamed →
      r.step e = some (r.complete c (out.1.renamed, out.2) first s.playerQueue.head?)) :
    ∃ r', run Room.step r (if s.concerns l c then [e] else []) = some r' ∧
      ((s.complete c out first).roomAt l).Mirrors r' := by
  obtain ⟨hin, hout⟩ := complete_projects (l := l) h hr hm ho first
  cases hcon : s.concerns l c with
  | false => exact ⟨r, rfl, hout hcon⟩
  | true =>
      refine ⟨_, ?_, hin hcon⟩
      rw [if_pos rfl, run_singleton]
      exact hstep (hm.conns c ((h.rooms.near_iff l c).mpr hcon))

theorem step_projects {s s' : Server} (h : s.Inv) {l : LobbyId} {r : Room} (hr : r.Inv)
    (hm : (s.roomAt l).Mirrors r) {e : ServerEvent} (hs : s.step e = some s') :
    ∃ r', run Room.step r (project l s e) = some r' ∧ (s'.roomAt l).Mirrors r' := by
  have hjoin : ∀ d ∈ s.playerQueue.head?, r.Joinable d := fun d hd =>
    hm.joinable (h.book.queued d (List.mem_of_head? hd)).2
  cases e with
  | accept failed =>
      obtain ⟨c, rest, hnext, rfl⟩ := step_accept hs
      cases failed with
      | true =>
          refine ⟨r, ?_, hm⟩
          simp only [project, hnext, if_true]
          rfl
      | false => exact accepted_projects h hr hm hnext
  | read c result first =>
      obtain ⟨hreads, heq⟩ := Option.ite_none_right_eq_some.mp hs
      obtain rfl := Option.some.inj heq
      have ho := (Connection.onReadSocket_outcome
        { s.conns c with reads := (s.conns c).reads - 1 } result).of_idles
        (Connection.reads_idles _ _)
      refine completed_projects h hr hm ho fun hconn => ?_
      rw [Room.step]
      simp only [hconn]
      rw [if_pos ⟨hreads, hjoin⟩]
      exact congrArg (fun out => some (r.complete c out first s.playerQueue.head?))
        (Connection.onReadSocket_renamed
          { s.conns c with reads := (s.conns c).reads - 1 } result)
  | pingTimer c error =>
      obtain ⟨hwaits, heq⟩ := Option.ite_none_right_eq_some.mp hs
      obtain rfl := Option.some.inj heq
      have ho := (Connection.pingOnTimer_outcome
        { s.conns c with waits := (s.conns c).waits - 1 } error).of_idles
        (Connection.waits_idles _ _)
      refine completed_projects h hr hm ho fun hconn => ?_
      rw [Room.step]
      simp only [hconn]
      rw [if_pos ⟨hwaits, hjoin⟩]
      exact congrArg (fun out => some (r.complete c out 0 s.playerQueue.head?))
        (Connection.pingOnTimer_renamed
          { s.conns c with waits := (s.conns c).waits - 1 } error)
  | queueTimer =>
      obtain ⟨_, heq⟩ := Option.ite_none_right_eq_some.mp hs
      rw [← Option.some.inj heq]
      exact updateQueuePositions_projects h hm

/-- The relation of the two machines. -/
structure Solo (l : LobbyId) (s : Server) (r : Room) : Prop where
  inv : s.Inv
  room : r.Inv
  mirrors : (s.roomAt l).Mirrors r

theorem new_solo (l : LobbyId) : Solo l new (Room.started FourAcross.minNumPlayers) :=
  ⟨new_inv, Room.started_inv _, rfl, fun _ _ => rfl⟩

theorem Solo.step {l : LobbyId} {s s' : Server} {r : Room} {e : ServerEvent}
    (h : Solo l s r) (hs : s.step e = some s') :
    ∃ r', run Room.step r (project l s e) = some r' ∧ Solo l s' r' := by
  obtain ⟨r', hrun, hm⟩ := step_projects h.inv h.room h.mirrors hs
  exact ⟨r', hrun, h.inv.moves (step_moves h.inv.rooms hs),
    Room.run_inv h.room hrun, hm⟩

theorem Solo.conns {l : LobbyId} {s : Server} {r : Room} (h : Solo l s r) {c : ConnId}
    (hc : (s.conns c).handlers = [] ∨ (s.conns c).handlers = [l]) :
    r.conns c = (s.conns c).renamed := by
  refine h.mirrors.conns c ?_
  rw [h.inv.rooms.near_iff, concerns]
  rcases hc with hc | hc <;> simp [hc]

theorem run_solo {es : List ServerEvent} {s : Server} (hrun : run step new es = some s)
    (l : LobbyId) :
    ∃ r, run Room.step (Room.started FourAcross.minNumPlayers)
      (shown step (project l) new es) = some r ∧ Solo l s r :=
  run_projects (fun _ _ _ _ => Solo.step) (new_solo l) hrun

/-- In every run of the server, each lobby goes through a run of a started lobby on the
events that concern it, and ends up in the same state; so do the connections that are
attached to it or to nothing. -/
theorem lobby_runs_alone {es : List ServerEvent} {s : Server} (hrun : run step new es = some s)
    (l : LobbyId) :
    ∃ r, run Room.step (Room.started FourAcross.minNumPlayers)
        (shown step (project l) new es) = some r ∧
      r.lobby = { s.lobbyAt l with address := 0 } ∧
      ∀ c, (s.conns c).handlers = [] ∨ (s.conns c).handlers = [l] →
        r.conns c = (s.conns c).renamed := by
  obtain ⟨r, hr, hsolo⟩ := run_solo hrun l
  exact ⟨r, hr, hsolo.mirrors.lobby, fun c hc => hsolo.conns hc⟩

/-- Three arrivals; the third player is alone in lobby 1. -/
def threeArrivals : List ServerEvent := List.replicate 3 (.accept false)

theorem lobby_runs_alone_three : ∃ s r, run step new threeArrivals = some s ∧
    run Room.step (Room.started FourAcross.minNumPlayers) [.accept 2, .join 2] = some r ∧
    r.lobby = { s.lobbyAt 1 with address := 0 } ∧ r.conns 2 = (s.conns 2).renamed := by
  have hrun : (run step new threeArrivals).any (fun s =>
      decide ((s.conns 2).handlers = [1])) = true := by decide +kernel
  obtain ⟨s, hs, hn⟩ := (Option.any_eq_true ..).mp hrun
  obtain ⟨r, hr, hlobby, hconns⟩ := lobby_runs_alone hs 1
  have hshown : shown step (project 1) new threeArrivals = [.accept 2, .join 2] := by
    decide +kernel
  exact ⟨s, r, hs, hshown ▸ hr, hlobby, hconns 2 (.inr (of_decide_eq_true hn))⟩

theorem conns_of_renamed {s s' : Server} (h : s.Rooms) (h' : s'.Rooms) {l : LobbyId}
    (hl : s.lobbyAt l = s'.lobbyAt l) {c : ConnId} (hc : c ∈ (s.lobbyAt l).handlers)
    (heq : (s.conns c).renamed = (s'.conns c).renamed) : s.conns c = s'.conns c := by
  obtain ⟨hlobby, hhandlers, _⟩ := (h.roomAt l).seats.member c hc
  have hc' : c ∈ (s'.lobbyAt l).handlers := hl ▸ hc
  obtain ⟨hlobby', hhandlers', _⟩ := (h'.roomAt l).seats.member c hc'
  have haddr : (s.roomAt l).lobby.address = (s'.roomAt l).lobby.address :=
    (h.lobbyAt_address l).trans (h'.lobbyAt_address l).symm
  have hsame : (s.conns c).lobby = (s'.conns c).lobby ∧
      (s.conns c).handlers = (s'.conns c).handlers :=
    ⟨hlobby.trans (haddr ▸ hlobby'.symm), hhandlers.trans (haddr ▸ hhandlers'.symm)⟩
  cases hx : s.conns c
  cases hy : s'.conns c
  simp only [hx, hy, Connection.renamed, Connection.mk.injEq] at heq hsame ⊢
  exact ⟨hsame.1, heq.2.1, heq.2.2.1, heq.2.2.2.1, heq.2.2.2.2.1, heq.2.2.2.2.2.1, hsame.2,
    heq.2.2.2.2.2.2.2⟩

/-- Lobbies do not interfere: two runs of the server that show a lobby the same events,
those of the queue it is refilled from among them, leave it, and every connection that was
added to it, in the same state. -/
theorem lobbies_apart {es es' : List ServerEvent} {s s' : Server}
    (hrun : run step new es = some s) (hrun' : run step new es' = some s') {l : LobbyId}
    (hshown : shown step (project l) new es = shown step (project l) new es') :
    s.lobbyAt l = s'.lobbyAt l ∧ ∀ c ∈ (s.lobbyAt l).handlers, s.conns c = s'.conns c := by
  have hrooms := (reachable_inv (.of_run hrun)).rooms
  have hrooms' := (reachable_inv (.of_run hrun')).rooms
  obtain ⟨r, hr, hsolo⟩ := run_solo hrun l
  obtain ⟨r', hr', hsolo'⟩ := run_solo hrun' l
  rw [hshown, hr'] at hr
  obtain rfl := Option.some.inj hr
  have hl : s.lobbyAt l = s'.lobbyAt l := by
    have haddr := (hrooms.lobbyAt_address l).trans (hrooms'.lobbyAt_address l).symm
    have heq : { s.lobbyAt l with address := 0 } = { s'.lobbyAt l with address := 0 } :=
      hsolo.mirrors.lobby.symm.trans hsolo'.mirrors.lobby
    cases hx : s.lobbyAt l
    cases hy : s'.lobbyAt l
    simp only [hx, hy, GameLobby.mk.injEq] at heq haddr ⊢
    simp only [heq, haddr, and_self]
  refine ⟨hl, fun c hc => conns_of_renamed hrooms hrooms' hl hc ?_⟩
  have hat : ∀ {t : Server}, t.Rooms → c ∈ (t.lobbyAt l).handlers →
      (t.conns c).handlers = [l] := by
    intro t ht hin
    rw [← ht.lobbyAt_address l]
    exact ((ht.roomAt l).seats.member c hin).2.1
  rw [← hsolo.conns (.inr (hat hrooms hc)), ← hsolo'.conns (.inr (hat hrooms' (hl ▸ hc)))]

/-- What the third player says is nothing to the first two. -/
theorem lobbies_apart_three : ∃ s s',
    run step new threeArrivals = some s ∧
      run step new (threeArrivals ++ [.read 2 (.message (.ready 1)) 1]) = some s' ∧
      s.lobbyAt 0 = s'.lobbyAt 0 ∧ ∀ c ∈ (s.lobbyAt 0).handlers, s.conns c = s'.conns c := by
  have hrun : (run step new threeArrivals).isSome = true := by decide +kernel
  have hrun' : (run step new (threeArrivals ++ [.read 2 (.message (.ready 1)) 1])).isSome =
      true := by decide +kernel
  obtain ⟨s, hs⟩ := Option.isSome_iff_exists.mp hrun
  obtain ⟨s', hs'⟩ := Option.isSome_iff_exists.mp hrun'
  exact ⟨s, s', hs, hs', lobbies_apart hs hs' (by decide +kernel)⟩

end Server

end ConnectDisks.Net
