import ConnectDisks.Proofs.RoomStep
import ConnectDisks.Server.Projection

/-!
# A lobby does not know its address

Two rooms mirror each other when the lobby of the second is that of the first with its
address changed to 0, and so are the connections that are attached to it or to nothing.
About the connections of other lobbies the second room says nothing.

No method of a lobby looks at the address it hands to the connections it adds, and none
looks at a connection that is attached elsewhere. So each method takes rooms that mirror
each other to rooms that do. The lemmas follow the methods down to the four signals.
-/

namespace ConnectDisks.Net

open ConnectDisks.Game Lib

namespace Connection

@[simp] theorem renamed_id (c : Connection) : c.renamed.id = c.id := rfl

@[simp] theorem renamed_isAlive (c : Connection) : c.renamed.isAlive = c.isAlive := rfl

@[simp] theorem renamed_isReady (c : Connection) : c.renamed.isReady = c.isReady := rfl

@[simp] theorem renamed_reads (c : Connection) : c.renamed.reads = c.reads := rfl

@[simp] theorem renamed_waits (c : Connection) : c.renamed.waits = c.waits := rfl

@[simp] theorem renamed_sent (c : Connection) : c.renamed.sent = c.sent := rfl

@[simp] theorem renamed_handlers_eq_nil {c : Connection} :
    c.renamed.handlers = [] ↔ c.handlers = [] :=
  List.map_eq_nil_iff

theorem sendMessage_renamed (c : Connection) (m : Message) :
    c.renamed.sendMessage m = (c.sendMessage m).renamed := by
  cases h : c.isAlive with
  | true =>
      rw [sendMessage_of_alive h, sendMessage_of_alive (by exact h)]
      rfl
  | false => rw [sendMessage_of_dead h, sendMessage_of_dead (by exact h)]

theorem waitForMessages_renamed (c : Connection) :
    c.renamed.waitForMessages = c.waitForMessages.renamed := by
  cases h : c.clientIsConnected <;> simp [waitForMessages, renamed, h]

theorem handleDisconnect_renamed (c : Connection) :
    c.renamed.handleDisconnect = (c.handleDisconnect.1.renamed, c.handleDisconnect.2) := by
  cases h : c.isAlive with
  | true =>
      rw [handleDisconnect_of_alive h, handleDisconnect_of_alive (by exact h)]
      rfl
  | false => rw [handleDisconnect_of_dead h, handleDisconnect_of_dead (by exact h)]

theorem sendPing_renamed (c : Connection) : c.renamed.sendPing = c.sendPing.renamed :=
  sendMessage_renamed { c with receivedPong := false } .ping

theorem onAccept_renamed (c : Connection) : c.renamed.onAccept = c.onAccept.renamed := by
  rw [onAccept, startPings, waitForMessages_renamed, sendPing_renamed]
  rfl

theorem onReadSocket_renamed (c : Connection) (result : ReadResult) :
    c.renamed.onReadSocket result =
      ((c.onReadSocket result).1.renamed, (c.onReadSocket result).2) := by
  cases result with
  | empty => rfl
  | failed error =>
      cases error with
      | unknown => rfl
      | _ => exact handleDisconnect_renamed c
  | message m =>
      have hpong : waitForMessages { c.renamed with receivedPong := true } =
          (waitForMessages { c with receivedPong := true }).renamed :=
        waitForMessages_renamed { c with receivedPong := true }
      have hready : c.renamed.readied.waitForMessages = c.readied.waitForMessages.renamed :=
        waitForMessages_renamed c.readied
      simp only [onReadSocket, handleClientReady, renamed_id, waitForMessages_renamed]
      split
      · split
        · exact Prod.ext hready rfl
        · rfl
      · split <;> rfl
      · exact Prod.ext hpong rfl
      · rfl

theorem pingOnTimer_renamed (c : Connection) (error : Bool) :
    c.renamed.pingOnTimer error =
      ((c.pingOnTimer error).1.renamed, (c.pingOnTimer error).2) := by
  have hping : ∀ n, startTimer (sendPing { c.renamed with missedPongs := n }) =
      (startTimer (sendPing { c with missedPongs := n })).renamed := by
    intro n
    have h := sendPing_renamed { c with missedPongs := n }
    rw [show { c.renamed with missedPongs := n } =
      renamed { c with missedPongs := n } from rfl, h]
    rfl
  have hdrop := handleDisconnect_renamed { c with missedPongs := c.missedPongs + 1 }
  simp only [pingOnTimer]
  rw [show c.renamed.clientIsConnected = c.clientIsConnected from rfl,
    show c.renamed.receivedPong = c.receivedPong from rfl,
    show c.renamed.missedPongs = c.missedPongs from rfl]
  split
  · rfl
  · split
    · split
      · exact Prod.ext (hping 0) rfl
      · split
        · exact hdrop
        · exact Prod.ext (hping _) rfl
    · rfl

/-! ## The four slots of the lobby's signals -/

theorem onGameStart_renamed (c : Connection) (n : UInt8) (game : ValidGame) :
    c.renamed.onGameStart n game = (c.onGameStart n game).renamed :=
  sendMessage_renamed c _

theorem onGameEnd_renamed (c : Connection) (player : UInt8) :
    c.renamed.onGameEnd player = (c.onGameEnd player).renamed :=
  sendMessage_renamed { c with clientIsReady := false } _

theorem onTurn_renamed (c : Connection) (playerId : UInt8) :
    c.renamed.onTurn playerId = (c.onTurn playerId).renamed := by
  rw [onTurn, onTurn, renamed_id, sendMessage_renamed]
  split <;> rfl

theorem onUpdate_renamed (c : Connection) (playerId col : UInt8) (result : TurnResult) :
    c.renamed.onUpdate playerId col result = (c.onUpdate playerId col result).renamed := by
  rw [onUpdate, onUpdate, renamed_id, sendMessage_renamed, handleTurnResult,
    sendMessage_renamed, handleTurnResult]
  split
  · split <;> rfl
  · rfl

theorem KeepsSeat.renamed {c c' : Connection} (h : c.KeepsSeat c') :
    c.renamed.KeepsSeat c'.renamed := by
  refine ⟨?_, h.id, ?_, h.isAlive⟩
  · rw [Connection.renamed, Connection.renamed, h.lobby]
  · rw [Connection.renamed, Connection.renamed, h.handlers]

theorem handlers_of_seat {c c' : Connection} (h : c'.seat = c.seat) :
    c'.handlers = c.handlers :=
  (KeepsSeat.of_seat h).handlers

end Connection

namespace Room

/-- The connection is attached to the room's lobby or to none. -/
def Near (r : Room) (c : ConnId) : Prop := ∀ l ∈ (r.conns c).handlers, l = r.lobby.address

/-- The second room is the first with its lobby at address 0. -/
structure Mirrors (r₀ r : Room) : Prop where
  lobby : r.lobby = { r₀.lobby with address := 0 }
  conns : ∀ c, r₀.Near c → r.conns c = (r₀.conns c).renamed

theorem Seats.near {r : Room} (h : r.Seats) {c : ConnId} (hc : c ∈ r.lobby.handlers) :
    r.Near c := by
  intro l hl
  rw [(h.member c hc).2.1] at hl
  exact List.mem_singleton.mp hl

theorem near_of_nil {r : Room} {c : ConnId} (h : (r.conns c).handlers = []) : r.Near c := by
  intro l hl
  rw [h] at hl
  cases hl

theorem findIdx?_congr {α : Type*} {p q : α → Bool} {xs : List α} (h : ∀ x ∈ xs, p x = q x) :
    xs.findIdx? p = xs.findIdx? q := by
  induction xs with
  | nil => rfl
  | cons x xs ih =>
      rw [List.findIdx?_cons, List.findIdx?_cons, h x List.mem_cons_self,
        ih fun y hy => h y (List.mem_cons_of_mem x hy)]

theorem addPlayer_eq {r : Room} (h : r.Seats) (hcan : r.lobby.canAddPlayers = true)
    (c : ConnId) : r.addPlayer c = r.admitted c r.lobby.getFirstAvailableId.toNat := by
  obtain ⟨_, _, hfull⟩ := canAddPlayers_iff.mp hcan
  obtain ⟨i, _, hid, hlt⟩ := h.getFirstAvailableId hfull
  have hle := h.maxPlayers_le
  have hi : (UInt8.ofNat i).toNat = i := UInt8.toNat_ofNat_of_lt' (show i < 256 by omega)
  rw [addPlayer, if_neg (by simp [hcan]), hid]
  simp only [hi, if_pos hlt]
  rfl

namespace Mirrors

variable {r₀ r : Room}

theorem withLobby (h : r₀.Mirrors r) {l₀ l : GameLobby} (hl : l = { l₀ with address := 0 })
    (haddr : l₀.address = r₀.lobby.address) : Mirrors ⟨l₀, r₀.conns⟩ ⟨l, r.conns⟩ := by
  refine ⟨hl, fun c hc => h.conns c fun l' hl' => ?_⟩
  exact (hc l' hl').trans haddr

theorem modify (h : r₀.Mirrors r) (c : ConnId) {f₀ f : Connection → Connection}
    (hf : (∀ l ∈ (f₀ (r₀.conns c)).handlers, l = r₀.lobby.address) →
      f (r.conns c) = (f₀ (r₀.conns c)).renamed) :
    (r₀.modify c f₀).Mirrors (r.modify c f) := by
  refine ⟨h.lobby, fun d hd => ?_⟩
  by_cases hdc : d = c
  · subst hdc
    rw [Near, modify_conns_self] at hd
    rw [modify_conns_self, modify_conns_self]
    exact hf hd
  · rw [Near, modify_conns_of_ne r₀ hdc] at hd
    rw [modify_conns_of_ne r₀ hdc, modify_conns_of_ne r hdc]
    exact h.conns d hd

/-- Both rooms emit a signal, and its handler does not look at addresses. -/
theorem emit (h : r₀.Mirrors r) {e₀ e : Emission} (he : e = e₀)
    {f : Connection → Connection} (hf : ∀ c, f c.renamed = (f c).renamed)
    (hseat : ∀ c, (f c).seat = c.seat) : (r₀.emit e₀ f).Mirrors (r.emit e f) := by
  subst he
  refine ⟨?_, fun c hc => ?_⟩
  · rw [emit_lobby, emit_lobby, h.lobby]
  · have hhandlers : r.lobby.handlers = r₀.lobby.handlers := by rw [h.lobby]
    have hnear : r₀.Near c := by
      intro l hl
      rw [← Connection.handlers_of_seat (r₀.emit_seat e hseat c)] at hl
      exact hc l hl
    show broadcast f r.lobby.handlers r.conns c =
      (broadcast f r₀.lobby.handlers r₀.conns c).renamed
    rw [hhandlers]
    exact broadcast_rel (R := fun b b' : Connection => b' = b.renamed)
      (fun b b' hb => by rw [hb, hf]) r₀.lobby.handlers (h.conns c hnear)

theorem ite (p : Prop) [Decidable p] {a₀ a b₀ b : Room} (ha : p → a₀.Mirrors a)
    (hb : ¬ p → b₀.Mirrors b) : (if p then a₀ else b₀).Mirrors (if p then a else b) := by
  split
  · next hp => exact ha hp
  · next hp => exact hb hp

/-! ## What the methods look at -/

theorem conns_seated (h : r₀.Mirrors r) (hs : r₀.Seats) {d : ConnId}
    (hd : some d ∈ r₀.lobby.players) : r.conns d = (r₀.conns d).renamed := by
  obtain ⟨i, hi⟩ := List.mem_iff_getElem?.mp hd
  exact h.conns d (hs.near (hs.seated i d hi).1)

theorem slots (h : r₀.Mirrors r) (hs : r₀.Seats) : r.slots = r₀.slots := by
  rw [Room.slots, Room.slots, h.lobby]
  refine List.map_congr_left fun slot hslot => ?_
  cases slot with
  | none => rfl
  | some d =>
      simp only [Option.map_some]
      rw [h.conns_seated hs hslot, Connection.renamed_isReady]

theorem findPlayer (h : r₀.Mirrors r) (hs : r₀.Seats) (id : UInt8) :
    r.findPlayer id = r₀.findPlayer id := by
  rw [Room.findPlayer, Room.findPlayer, h.lobby]
  refine findIdx?_congr fun slot hslot => ?_
  cases slot with
  | none => rfl
  | some d =>
      show ((r.conns d).getId == id) = ((r₀.conns d).getId == id)
      rw [h.conns_seated hs hslot]
      rfl

theorem getId (h : r₀.Mirrors r) {c : ConnId} (hc : r₀.Near c) :
    (r.conns c).getId = (r₀.conns c).getId := by
  rw [h.conns c hc]
  rfl

theorem joinable (h : r₀.Mirrors r) {c : ConnId} (hjoin : r₀.Joinable c) : r.Joinable c := by
  rw [Joinable, h.conns c (near_of_nil hjoin.2), Connection.renamed_handlers_eq_nil]
  exact hjoin

/-! ## The methods -/

theorem takeTurn (h : r₀.Mirrors r) (playerId : UInt8) :
    (r₀.takeTurn playerId).Mirrors (r.takeTurn playerId) :=
  h.emit rfl (fun c => c.onTurn_renamed playerId) fun c => c.onTurn_seat playerId

theorem tookTurn (h : r₀.Mirrors r) (playerId column : UInt8) (result : TurnResult) :
    (r₀.tookTurn playerId column result).Mirrors (r.tookTurn playerId column result) :=
  h.emit rfl (fun c => c.onUpdate_renamed playerId column result)
    fun c => c.onUpdate_seat playerId column result

theorem gameEnded (h : r₀.Mirrors r) (winner : UInt8) :
    (r₀.gameEnded winner).Mirrors (r.gameEnded winner) :=
  h.emit rfl (fun c => c.onGameEnd_renamed winner) fun c => c.onGameEnd_seat winner

theorem gameStarted (h : r₀.Mirrors r) (hs : r₀.Seats) (game : ValidGame) :
    (r₀.gameStarted game).Mirrors (r.gameStarted game) := by
  have hnum : r.lobby.getNumPlayers = r₀.lobby.getNumPlayers := by
    rw [h.lobby]
    rfl
  rw [Room.gameStarted, Room.gameStarted, hnum, h.slots hs]
  exact h.emit rfl (fun c => c.onGameStart_renamed _ game) fun c => c.onGameStart_seat _ game

theorem gameOver (h : r₀.Mirrors r) (winner : UInt8) :
    (r₀.gameOver winner).Mirrors (r.gameOver winner) := by
  refine (h.gameEnded winner).withLobby ?_ rfl
  rw [(h.gameEnded winner).lobby]

theorem fault (h : r₀.Mirrors r) : r₀.fault.Mirrors r.fault := by
  refine h.withLobby ?_ rfl
  rw [h.lobby]

theorem withGame (h : r₀.Mirrors r) (game : Option ValidGame) :
    (r₀.withGame game).Mirrors (r.withGame game) := by
  refine h.withLobby ?_ rfl
  rw [h.lobby]

theorem startGame (h : r₀.Mirrors r) (hs : r₀.Seats) : r₀.startGame.Mirrors r.startGame := by
  obtain ⟨lobby, conns⟩ := r
  obtain rfl := h.lobby
  refine ite _ (fun _ => ?_) fun _ => h
  have hplay : Mirrors ⟨{ r₀.lobby with isPlayingGame := true }, r₀.conns⟩
      ⟨{ r₀.lobby with address := 0, isPlayingGame := true }, conns⟩ :=
    h.withLobby rfl rfl
  have hseats := hs.withLobby (l := { r₀.lobby with isPlayingGame := true }) rfl
  obtain ⟨⟨_, _, game, _, _, _, _, _, _, _, _⟩, conns₀⟩ := r₀
  cases game with
  | none => exact hplay.fault
  | some game => exact (hplay.gameStarted hseats game).takeTurn _

theorem onReady (h : r₀.Mirrors r) (hs : r₀.Seats) {c : ConnId} (hc : r₀.Near c)
    (first : UInt8) : (r₀.onReady c first).Mirrors (r.onReady c first) := by
  have hfind : r.findPlayer (r.conns c).getId = r₀.findPlayer (r₀.conns c).getId := by
    rw [h.getId hc, h.findPlayer hs]
  rw [Room.onReady, Room.onReady, hfind]
  cases r₀.findPlayer (r₀.conns c).getId with
  | none => exact h
  | some i =>
      obtain ⟨lobby, conns⟩ := r
      obtain rfl := h.lobby
      refine ite _ (fun _ => ?_) fun _ => h.withLobby rfl rfl
      exact startGame (h.withLobby rfl rfl) (hs.withLobby rfl)

theorem onGameOver (h : r₀.Mirrors r) : r₀.onGameOver.Mirrors r.onGameOver := by
  have hgame : r.lobby.game = r₀.lobby.game := by rw [h.lobby]
  cases hg : r₀.lobby.game with
  | none =>
      rw [Room.onGameOver, Room.onGameOver, hgame, hg]
      exact h.fault
  | some game =>
      rw [onGameOver_eq hg, onGameOver_eq (hgame.trans hg)]
      exact h.gameOver _

theorem onTakeTurn (h : r₀.Mirrors r) {c : ConnId} (hc : r₀.Near c) (column : UInt8) :
    (r₀.onTakeTurn c column).Mirrors (r.onTakeTurn c column) := by
  have hid := h.getId hc
  obtain ⟨lobby, conns⟩ := r
  obtain rfl := h.lobby
  refine ite _ (fun _ => ?_) fun _ => ?_
  · rw [hid]
    exact h.tookTurn _ _ _
  · obtain ⟨⟨_, _, game, _, _, _, _, _, _, _, _⟩, conns₀⟩ := r₀
    cases game with
    | none => exact h.fault
    | some game =>
        simp only [show (conns c).getId = (conns₀ c).getId from hid]
        have hmoved := (h.withGame (some (game.takeTurn (conns₀ c).getId column).1)).tookTurn
          (conns₀ c).getId column (game.takeTurn (conns₀ c).getId column).2
        exact ite _ (fun _ => hmoved.onGameOver) fun _ =>
          ite _ (fun _ => hmoved.takeTurn _) fun _ => hmoved

theorem admitted (h : r₀.Mirrors r) {c : ConnId} (hjoin : r₀.Joinable c) (i : Nat) :
    (r₀.admitted c i).Mirrors (r.admitted c i) := by
  have hjoin' := h.joinable hjoin
  refine ⟨?_, fun d hd => ?_⟩
  · simp only [Room.admitted]
    rw [h.lobby]
  · by_cases hdc : d = c
    · subst hdc
      rw [admitted_conns_self hjoin, admitted_conns_self hjoin',
        h.conns d (near_of_nil hjoin.2), h.lobby]
      rfl
    · rw [Near, admitted_conns_of_ne r₀ hdc] at hd
      rw [admitted_conns_of_ne r₀ hdc, admitted_conns_of_ne r hdc]
      exact h.conns d hd

theorem addPlayer (h : r₀.Mirrors r) (hs : r₀.Seats) (hs' : r.Seats) {c : ConnId}
    (hjoin : r₀.Joinable c) : (r₀.addPlayer c).Mirrors (r.addPlayer c) := by
  have hcan : r.lobby.canAddPlayers = r₀.lobby.canAddPlayers := by
    rw [h.lobby]
    rfl
  have hid : r.lobby.getFirstAvailableId = r₀.lobby.getFirstAvailableId := by
    rw [h.lobby]
    rfl
  cases hc : r₀.lobby.canAddPlayers with
  | false =>
      rw [addPlayer_of_not hc, addPlayer_of_not (hcan.trans hc)]
      exact h
  | true =>
      rw [addPlayer_eq hs hc, addPlayer_eq hs' (hcan.trans hc), hid]
      exact h.admitted hjoin _

theorem onLobbyAvailable (h : r₀.Mirrors r) (hs : r₀.Seats) (hs' : r.Seats)
    {refill : Option ConnId} (hjoin : ∀ d ∈ refill, r₀.Joinable d) :
    (r₀.onLobbyAvailable refill).Mirrors (r.onLobbyAvailable refill) := by
  cases refill with
  | none => exact h
  | some d => exact h.addPlayer hs hs' (hjoin d rfl)

theorem seated (h : r₀.Mirrors r) {i : Nat} {c : ConnId} (hc : r₀.Seated i c) :
    r.Seated i c := by
  rw [Seated, h.lobby]
  exact hc

theorem vacated (h : r₀.Mirrors r) {c : ConnId} (hc : r₀.Near c) (i : Nat) :
    (r₀.vacated c i).Mirrors (r.vacated c i) := by
  refine h.withLobby ?_ rfl
  rw [h.lobby, h.conns c hc]
  rfl

theorem ended (h : r₀.Mirrors r) : r₀.ended.Mirrors r.ended := by
  have hgame : r.lobby.game = r₀.lobby.game := by rw [h.lobby]
  rw [Room.ended, Room.ended, hgame]
  split
  · exact h
  · exact h.gameOver _

theorem handle (h : r₀.Mirrors r) (hi : r₀.Inv) (hi' : r.Inv) {c : ConnId} {i : Nat}
    (hc : r₀.Near c) (first : UInt8) {signal : Signal}
    (hseated : signal = .disconnected → r₀.Seated i c) :
    (r₀.handle c first signal).1.Mirrors (r.handle c first signal).1 ∧
      (r.handle c first signal).2 = (r₀.handle c first signal).2 := by
  cases signal with
  | disconnected =>
      have hseat := hseated rfl
      rw [Room.handle, Room.handle, onDisconnect_eq hi hseat, onDisconnect_eq hi' (h.seated hseat)]
      exact ⟨(h.vacated hc i).ended, rfl⟩
  | readied => exact ⟨h.onReady hi.seats hc first, rfl⟩
  | tookTurn column => exact ⟨h.onTakeTurn hc column, rfl⟩

end Mirrors

end Room

end ConnectDisks.Net
