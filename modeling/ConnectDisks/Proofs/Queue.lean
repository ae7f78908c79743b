import ConnectDisks.Client.Client
import ConnectDisks.Lib.WaitingLine
import ConnectDisks.Proofs.LobbyFrame
import ConnectDisks.Proofs.Placement

/-!
# What an event does to the queue

For the queue an event of the server is one of five things: nothing, an arrival
that is seated, an arrival that is queued, the sweep of the timer, or a vacancy
filled from the front. `QueueMoves` lists them, each with what becomes of the three
lists that matter (who was accepted, who is queued, who was added to a lobby), of
the fullness of the lobbies, and of the places the connections were told.

The places are read off the messages that were sent, the way the client reads
them. No lobby sends one, and neither does a completion.
-/

namespace ConnectDisks.Net

open ConnectDisks.Game Lib

/-- The place in the queue a message tells. -/
def Message.place? (m : Message) : Option UInt64 :=
  if m.type = .inQueue then some (Client.queuePosition m) else none

@[simp] theorem Message.place?_inQueue (position : UInt64) :
    (Message.inQueue position).place? = some position := by
  rw [place?, if_pos (Message.inQueue_type position), Client.queuePosition_inQueue]

theorem Message.place?_of_ne {m : Message} (h : m.type ≠ .inQueue) : m.place? = none :=
  if_neg h

namespace Connection

/-- The places the connection was told, oldest first. -/
def places (c : Connection) : List UInt64 := c.sent.filterMap Message.place?

theorem sendMessage_places (c : Connection) {m : Message} (h : m.type ≠ .inQueue) :
    (c.sendMessage m).places = c.places := by
  rw [sendMessage]
  split
  · rfl
  · simp [places, Message.place?_of_ne h]

theorem notifyQueuePosition_places {c : Connection} (h : c.isAlive = true)
    (position : UInt64) :
    (c.notifyQueuePosition position).places = c.places ++ [position] := by
  rw [notifyQueuePosition, sendMessage_of_alive h]
  simp [places]

theorem waitForMessages_places (c : Connection) : c.waitForMessages.places = c.places := by
  rw [waitForMessages]
  split <;> rfl

theorem sendPing_places (c : Connection) : c.sendPing.places = c.places :=
  sendMessage_places _ (by simp)

theorem handleDisconnect_places (c : Connection) :
    c.handleDisconnect.1.places = c.places := by
  rw [handleDisconnect]
  split <;> rfl

theorem onAccept_places (c : Connection) : c.onAccept.places = c.places := by
  show c.waitForMessages.sendPing.places = c.places
  rw [sendPing_places, waitForMessages_places]

theorem onReadSocket_places (c : Connection) (result : ReadResult) :
    (c.onReadSocket result).1.places = c.places := by
  cases result with
  | empty => rfl
  | failed error =>
      cases error with
      | unknown => rfl
      | _ => exact handleDisconnect_places c
  | message m =>
      simp only [onReadSocket, handleClientReady]
      split
      · split
        · exact waitForMessages_places _
        · exact waitForMessages_places c
      · split
        · exact waitForMessages_places c
        · exact waitForMessages_places c
      · exact waitForMessages_places _
      · exact waitForMessages_places c

theorem pingOnTimer_places (c : Connection) (error : Bool) :
    (c.pingOnTimer error).1.places = c.places := by
  rw [pingOnTimer]
  split
  · rfl
  · split
    · split
      · exact sendPing_places _
      · simp only
        split
        · exact handleDisconnect_places _
        · exact sendPing_places _
    · rfl

end Connection

theorem lobbyKeeps_places : LobbyKeeps Connection.places :=
  .of_sendMessage (fun _ _ => rfl) (fun _ _ => rfl) (fun _ _ => rfl) (fun _ _ => rfl)
    fun c _ h => c.sendMessage_places fun ht => h (.inr ht)

namespace Server

def places (s : Server) (c : ConnId) : List UInt64 := (s.conns c).places

/-- The players that were added to a lobby, in order. -/
def placed (s : Server) : List ConnId := s.placements.map Placement.player

/-- For each lobby, whether it is full. -/
def fullness (s : Server) : List Bool := s.lobbies.map GameLobby.isFull

/-- There is no room for anybody and none can be made. -/
def AllFull (s : Server) : Prop := s.fullness = List.replicate maxLobbies true

/-- The server as a waiting line. -/
def line (s : Server) : WaitingLine ConnId where
  arrived := s.accepted
  queue := s.playerQueue
  served := s.placed

theorem queue_of_line {s : Server} {l : WaitingLine ConnId} (h : s.line = l) :
    s.playerQueue = l.queue := congrArg WaitingLine.queue h

/-- Who is left in the queue after the sweep. -/
def liveQueue (s : Server) : List ConnId := s.playerQueue.filter fun c => (s.conns c).isAlive

/-- The condition under which the sweep sends everybody their place. -/
def Notifies (s : Server) : Prop :=
  0 < s.liveQueue.length ∧ (s.liveQueue.length < 10 ∨
    (if s.liveQueue.length > s.lastQueueSize then s.liveQueue.length - s.lastQueueSize
      else s.lastQueueSize - s.liveQueue.length) ≥ 10)

instance (s : Server) : Decidable s.Notifies := by
  unfold Notifies
  infer_instance

/-- What one event does to the queue. -/
inductive QueueMoves (s : Server) : ServerEvent → Server → Prop
  | stays {e : ServerEvent} {s' : Server} (tick : e ≠ .queueTimer) (line : s'.line = s.line)
      (full : s'.fullness = s.fullness ∨ s.playerQueue = [])
      (told : ∀ d, s'.places d = s.places d) : QueueMoves s e s'
  | seated {c : ConnId} {s' : Server} (new : c ∉ s.accepted) (vacancy : ¬ s.AllFull)
      (line : s'.line = ⟨s.accepted ++ [c], s.playerQueue, s.placed ++ [c]⟩)
      (told : ∀ d, s'.places d = s.places d) : QueueMoves s (.accept false) s'
  | queued {c : ConnId} {s' : Server} (new : c ∉ s.accepted) (allFull : s.AllFull)
      (line : s'.line = ⟨s.accepted ++ [c], s.playerQueue ++ [c], s.placed⟩)
      (full : s'.fullness = s.fullness)
      (told : s'.places c = s.places c ++ [UInt64.ofNat (s.playerQueue.length + 1)])
      (others : ∀ d, d ≠ c → s'.places d = s.places d) : QueueMoves s (.accept false) s'
  | swept {s' : Server} (line : s'.line = ⟨s.accepted, s.liveQueue, s.placed⟩)
      (full : s'.fullness = s.fullness)
      (told : s.Notifies → ∀ (j : Nat) (d : ConnId), s.liveQueue[j]? = some d →
        s'.places d = s.places d ++ [UInt64.ofNat (j + 1)])
      (others : ∀ d, d ∉ s.liveQueue → s'.places d = s.places d)
      (silent : ¬ s.Notifies → ∀ d, s'.places d = s.places d) :
      QueueMoves s .queueTimer s'
  | filled {e : ServerEvent} {c : ConnId} {rest : List ConnId} {s' : Server}
      (tick : e ≠ .queueTimer) (front : s.playerQueue = c :: rest)
      (line : s'.line = ⟨s.accepted, rest, s.placed ++ [c]⟩)
      (full : s'.fullness = s.fullness)
      (told : ∀ d, s'.places d = s.places d) : QueueMoves s e s'

theorem accepted_of_line {s : Server} {l : WaitingLine ConnId} (h : s.line = l) :
    s.accepted = l.arrived := congrArg WaitingLine.arrived h

/-! ## The parts -/

theorem putRoom_fullness {s : Server} {l : LobbyId} {lobby : GameLobby}
    (hl : s.lobbies[l]? = some lobby) {r : Room} (h : r.lobby.isFull = lobby.isFull) :
    (s.putRoom l r).fullness = s.fullness := by
  have hset : (s.putRoom l r).fullness = s.fullness.set l r.lobby.isFull := List.map_set ..
  obtain ⟨hlt, hval⟩ := List.getElem?_eq_some_iff.mp hl
  have hlt' : l < s.fullness.length := by rwa [fullness, List.length_map]
  have hget : s.fullness[l] = r.lobby.isFull := by simp [fullness, hval, h]
  rw [hset, ← hget]
  exact List.set_getElem_self hlt'

theorem addPlayer_line {s : Server} {l : LobbyId} {lobby : GameLobby}
    (hl : s.lobbies[l]? = some lobby) (c : ConnId) :
    (s.addPlayer l c).line = ⟨s.accepted, s.playerQueue, s.placed ++ [c]⟩ := by
  rw [line, placed, placed, addPlayer, hl]
  simp [putRoom]

theorem modify_view {γ : Type*} (view : Connection → γ) {s : Server} {c : ConnId}
    {f : Connection → Connection} (h : view (f (s.conns c)) = view (s.conns c)) (d : ConnId) :
    view ((s.modify c f).conns d) = view (s.conns d) := by
  by_cases hd : d = c
  · rw [hd, modify_conns_self, h]
  · rw [modify_conns_of_ne s hd]

theorem notifyFrom_getElem? {conns : ConnId → Connection} {queue : List ConnId}
    (hnodup : queue.Nodup) {j : Nat} {d : ConnId} (hj : queue[j]? = some d) (pos : Nat) :
    notifyFrom conns pos queue d = (conns d).notifyQueuePosition (UInt64.ofNat (pos + j)) := by
  induction queue generalizing conns pos j with
  | nil => cases hj
  | cons player rest ih =>
      obtain ⟨hnot, hrest⟩ := List.nodup_cons.mp hnodup
      rw [notifyFrom]
      cases j with
      | zero =>
          obtain rfl : player = d := Option.some.inj hj
          rw [notifyFrom_of_notMem _ _ hnot, Function.update_self, Nat.add_zero]
      | succ j =>
          have hne : d ≠ player := fun heq => hnot (heq ▸ List.mem_of_getElem? hj)
          rw [ih hrest hj, Function.update_of_ne hne, Nat.add_right_comm, Nat.add_assoc]

/-! ## Who is alive -/

theorem complete_alive {s : Server} {c : ConnId} {m : Option Message}
    {out : Connection × Option Signal} (ho : (s.conns c).Outcome m out) (first : UInt8)
    {d : ConnId} (h : ((s.complete c out first).conns d).isAlive = true) :
    (s.conns d).isAlive = true := by
  rw [lobbyKeeps_isAlive.complete] at h
  split at h
  · next hd =>
      subst hd
      cases ho with
      | silent hi _ => exact hi.isAlive ▸ h
      | readied hi _ _ => exact hi.isAlive ▸ h
      | tookTurn hi _ _ _ => exact hi.isAlive ▸ h
      | dropped _ halive => exact halive
  · exact h

theorem welcomed_alive (s : Server) (c d : ConnId) :
    ((s.welcomed c).conns d).isAlive = (s.conns d).isAlive :=
  modify_view Connection.isAlive (Connection.onAccept_idles _).isAlive d

theorem addToQueue_alive (s : Server) (c d : ConnId) :
    ((s.addToQueue c).conns d).isAlive = (s.conns d).isAlive := by
  have hidles := Connection.notifyQueuePosition_idles (s.conns c)
    (UInt64.ofNat (s.playerQueue ++ [c]).length)
  exact modify_view (s := { s with playerQueue := s.playerQueue ++ [c] })
    (f := fun conn => conn.notifyQueuePosition _) Connection.isAlive hidles.isAlive d

theorem onConnectionAccepted_alive (s : Server) (c d : ConnId) :
    ((s.onConnectionAccepted c false).conns d).isAlive = (s.conns d).isAlive := by
  rcases onConnectionAccepted_cases s c with
    ⟨l, _, _, _, heq⟩ | ⟨_, _, heq⟩ | ⟨_, _, heq⟩ <;> rw [heq]
  · exact (lobbyKeeps_isAlive.serverAddPlayer _ l c d).trans (s.welcomed_alive c d)
  · exact (lobbyKeeps_isAlive.serverAddPlayer _ _ c d).trans (s.welcomed_alive c d)
  · exact ((s.welcomed c).addToQueue_alive c d).trans (s.welcomed_alive c d)

theorem updateQueuePositions_alive (s : Server) (d : ConnId) :
    (s.updateQueuePositions.conns d).isAlive = (s.conns d).isAlive := by
  rcases s.updateQueuePositions_conns with heq | heq <;> rw [heq]
  exact (notifyFrom_idles _ _ _ d).isAlive

/-- A connection that was dropped stays dropped. -/
theorem step_alive {s s' : Server} {e : ServerEvent} (hs : s.step e = some s') {c : ConnId}
    (h : (s'.conns c).isAlive = true) : (s.conns c).isAlive = true := by
  cases e with
  | accept failed =>
      obtain ⟨c', rest, _, rfl⟩ := step_accept hs
      cases failed with
      | true => exact h
      | false => rwa [onConnectionAccepted_alive] at h
  | read d result first =>
      obtain ⟨_, heq⟩ := Option.ite_none_right_eq_some.mp hs
      rw [← Option.some.inj heq] at h
      exact complete_alive ((Connection.onReadSocket_outcome _ result).of_idles
        (Connection.reads_idles _ _)) first h
  | pingTimer d error =>
      obtain ⟨_, heq⟩ := Option.ite_none_right_eq_some.mp hs
      rw [← Option.some.inj heq] at h
      exact complete_alive ((Connection.pingOnTimer_outcome _ error).of_idles
        (Connection.waits_idles _ _)) 0 h
  | queueTimer =>
      obtain ⟨_, heq⟩ := Option.ite_none_right_eq_some.mp hs
      rw [← Option.some.inj heq] at h
      rwa [updateQueuePositions_alive] at h

/-! ## The five moves -/

theorem addToQueue_places_self {s : Server} {c : ConnId} (h : (s.conns c).isAlive = true) :
    (s.addToQueue c).places c = s.places c ++ [UInt64.ofNat (s.playerQueue.length + 1)] := by
  rw [places, addToQueue, modify_conns_self]
  simp only
  rw [Connection.notifyQueuePosition_places h, List.length_append, List.length_singleton, places]

theorem addToQueue_places_of_ne (s : Server) {c d : ConnId} (h : d ≠ c) :
    (s.addToQueue c).places d = s.places d := by
  rw [places, addToQueue, modify_conns_of_ne _ h, places]

theorem complete_places (s : Server) {c : ConnId} (out : Connection × Option Signal)
    (h : out.1.places = (s.conns c).places) (first : UInt8) (d : ConnId) :
    (s.complete c out first).places d = s.places d := by
  rw [places, lobbyKeeps_places.complete]
  split
  · next hd => rw [h, hd, places]
  · rfl

theorem isFull_of_players {r r' : Room} (h : r.Seats) (h' : r'.Seats)
    (hfixed : r'.fixed = r.fixed) (hp : r'.lobby.players = r.lobby.players) :
    r'.lobby.isFull = r.lobby.isFull := by
  have hnum : r'.lobby.numPlayers = r.lobby.numPlayers := by
    rw [← UInt8.toNat_inj, h'.count, h.count, hp]
  rw [GameLobby.isFull, GameLobby.isFull, hnum, show r'.lobby.maxPlayers = r.lobby.maxPlayers from
    congrArg Prod.fst hfixed]

/-- Whoever leaves, the lobby is as full afterwards as before once the slot is
taken again. -/
theorem leftRoom_refilled (s : Server) (c : ConnId) (conn : Connection) (lobby : GameLobby)
    (i : Nat) (d : ConnId) (j : Nat) :
    ((s.leftRoom c conn lobby i).admitted d j).lobby.isFull = lobby.isFull := by
  have hleft : (s.leftRoom c conn lobby i).lobby.numPlayers = lobby.numPlayers - 1 ∧
      (s.leftRoom c conn lobby i).lobby.maxPlayers = lobby.maxPlayers := by
    rw [leftRoom, Room.ended]
    split <;> exact ⟨rfl, rfl⟩
  have hnum : ((s.leftRoom c conn lobby i).admitted d j).lobby.numPlayers =
      lobby.numPlayers := by
    show (s.leftRoom c conn lobby i).lobby.numPlayers + 1 = _
    rw [hleft.1, UInt8.sub_add_cancel]
  rw [GameLobby.isFull, GameLobby.isFull, hnum]
  exact congrArg (fun n => lobby.numPlayers == n) hleft.2

theorem filled_queueMoves {s : Server} {e : ServerEvent} (h : s.Inv) {c : ConnId}
    {conn : Connection} {l : LobbyId} {lobby : GameLobby} {i : Nat}
    (hbusy : s.conns c ≠ Connection.create) (hl : s.lobbies[l]? = some lobby)
    (hc : (s.room lobby).Seated i c) (hi : (s.conns c).Idles conn) (htick : e ≠ .queueTimer)
    {player : ConnId} {rest : List ConnId} (hq : s.playerQueue = player :: rest)
    (told : ∀ d, ((s.left c conn l lobby i).onLobbyAvailable l).places d = s.places d) :
    s.QueueMoves e ((s.left c conn l lobby i).onLobbyAvailable l) := by
  obtain ⟨hleft, hfull⟩ := h.dropped hbusy hl hc hi
  have hl' := left_lobby hl c conn i
  obtain ⟨j, _, heq⟩ := onLobbyAvailable_admitted hleft.rooms hl' hfull hq
  rw [heq] at told ⊢
  refine .filled htick hq ?_ ?_ told
  · exact congrArg (WaitingLine.mk _ _) (List.map_append ..)
  · show ((s.lobbies.set l _).set l _).map GameLobby.isFull = s.fullness
    rw [List.set_set]
    exact putRoom_fullness hl (s.leftRoom_refilled c conn lobby i player j)

theorem completion_queueMoves {s s' : Server} {e : ServerEvent} (h : s.Inv)
    (hm : s.Moves e s') (haccept : ∀ failed, e ≠ .accept failed) (htick : e ≠ .queueTimer)
    (told : ∀ d, s'.places d = s.places d) : s.QueueMoves e s' := by
  cases hm with
  | refused _ => exact absurd rfl (haccept true)
  | accepted _ => exact absurd rfl (haccept false)
  | sweep => exact absurd rfl htick
  | idle _ _ _ _ => exact .stays htick rfl (.inl rfl) told
  | outside _ _ _ _ _ => exact .stays htick rfl (.inl rfl) told
  | @ready c m first conn l lobby _ hl _ hi _ _ =>
      have hinv := (h.rooms.inv hl).modify (r := s.room lobby) (Room.ready_wanders hi).seat
      have hfull := isFull_of_players hinv.seats (hinv.onReady c first).seats
        (Room.onReady_within hinv.seats c first).fixed (Room.onReady_players hinv.seats c first)
      exact .stays htick rfl
        (.inl (putRoom_fullness (s := s.modify c fun _ => conn.readied) hl hfull)) told
  | @turn c m first conn l lobby _ hl _ hi _ _ _ =>
      have hinv := (h.rooms.inv hl).modify (r := s.room lobby) hi.keepsSeat
      have hfull := isFull_of_players hinv.seats (hinv.onTakeTurn c (m.get 1)).seats
        (Room.onTakeTurn_within hinv.playing c _).fixed
        (Room.onTakeTurn_players hinv.playing c _)
      exact .stays htick rfl
        (.inl (putRoom_fullness (s := s.modify c fun _ => conn) hl hfull)) told
  | @drop e c conn l lobby i hbusy hl hc _ hi _ _ =>
      cases hq : s.playerQueue with
      | nil =>
          have hleft : (s.left c conn l lobby i).playerQueue = [] := hq
          refine .stays htick ?_ (.inr hq) told
          rw [onLobbyAvailable, hleft]
          rfl
      | cons player rest => exact filled_queueMoves h hbusy hl hc hi htick hq told

/-- An arrival goes to a lobby if it can, and to the end of the queue otherwise. -/
theorem accepted_queueMoves {s : Server} (h : s.Inv) {c : ConnId} {rest : List ConnId}
    (hnext : s.accepting = c :: rest) :
    s.QueueMoves (.accept false)
      (onConnectionAccepted { s with accepting := rest } c false) := by
  have hnew := h.book.next_new hnext
  have halive : ((({ s with accepting := rest } : Server).welcomed c).conns c).isAlive = true := by
    rw [welcomed_alive, h.book.unborn c hnew]
    rfl
  have hwelcomed : ∀ d, (({ s with accepting := rest } : Server).welcomed c).places d =
      s.places d := fun d =>
    modify_view (s := s) Connection.places (Connection.onAccept_places _) d
  rcases onConnectionAccepted_cases { s with accepting := rest } c with
    ⟨l, lobby, hl, hfull, heq⟩ | ⟨_, hlt, heq⟩ | ⟨hall, hle, heq⟩ <;> rw [heq]
  · refine .seated hnew (fun hf => ?_) (addPlayer_line
      (s := ({ s with accepting := rest } : Server).welcomed c) hl c) fun d => ?_
    · have hin : lobby.isFull ∈ s.fullness := List.mem_map_of_mem (List.mem_of_getElem? hl)
      rw [hf] at hin
      exact absurd ((List.eq_of_mem_replicate hin).symm.trans hfull) (by decide)
    · exact (lobbyKeeps_places.serverAddPlayer _ l c d).trans (hwelcomed d)
  · refine .seated hnew (fun hf => ?_) (addPlayer_line
      (s := (({ s with accepting := rest } : Server).welcomed c).makeNewLobby.1)
      List.getElem?_concat_length c) fun d => ?_
    · have hlen : s.lobbies.length = maxLobbies := by
        have := congrArg List.length hf
        rwa [fullness, List.length_map, List.length_replicate] at this
      exact absurd hlt (Nat.not_lt.mpr hlen.ge)
    · exact (lobbyKeeps_places.serverAddPlayer _ _ c d).trans (hwelcomed d)
  · refine .queued hnew ?_ rfl rfl ?_ fun d hd => ?_
    · refine List.eq_replicate_iff.mpr ⟨?_, fun b hb => ?_⟩
      · rw [fullness, List.length_map]
        exact Nat.le_antisymm h.book.few hle
      · obtain ⟨lobby, hin, rfl⟩ := List.mem_map.mp hb
        exact hall lobby hin
    · rw [← hwelcomed c]
      exact addToQueue_places_self halive
    · rw [← hwelcomed d]
      exact addToQueue_places_of_ne _ hd

/-- The sweep takes the dropped connections out of the queue, and tells everybody
their place or nobody. -/
theorem swept_queueMoves {s : Server} (h : s.Inv) :
    s.QueueMoves .queueTimer (updateQueuePositions { s with timers := s.timers - 1 }) := by
  have hnodup : s.liveQueue.Nodup := h.book.queue_nodup.filter _
  have hconns : (updateQueuePositions { s with timers := s.timers - 1 }).conns =
      if s.Notifies then notifyFrom s.conns 1 s.liveQueue else s.conns := rfl
  refine .swept rfl rfl (fun hn j d hj => ?_) (fun d hd => ?_) fun hn d => ?_
  · have halive := (List.mem_filter.mp (List.mem_of_getElem? hj)).2
    rw [places, hconns, if_pos hn, notifyFrom_getElem? hnodup hj,
      Connection.notifyQueuePosition_places halive, Nat.add_comm 1 j]
    rfl
  · rw [places, hconns]
    split
    · rw [notifyFrom_of_notMem _ _ hd, places]
    · rfl
  · rw [places, hconns, if_neg hn, places]

/-- Every event is one of the five. -/
theorem step_queueMoves {s s' : Server} {e : ServerEvent} (h : s.Inv)
    (hs : s.step e = some s') : s.QueueMoves e s' := by
  have hm := step_moves h.rooms hs
  cases e with
  | accept failed =>
      obtain ⟨c, rest, hnext, rfl⟩ := step_accept hs
      cases failed with
      | true => exact .stays (by simp) rfl (.inl rfl) fun _ => rfl
      | false => exact accepted_queueMoves h hnext
  | read c result first =>
      refine completion_queueMoves h hm (by simp) (by simp) fun d => ?_
      obtain ⟨_, heq⟩ := Option.ite_none_right_eq_some.mp hs
      rw [← Option.some.inj heq]
      exact complete_places s (Connection.onReadSocket _ result)
        (Connection.onReadSocket_places { s.conns c with reads := (s.conns c).reads - 1 } result)
        first d
  | pingTimer c error =>
      refine completion_queueMoves h hm (by simp) (by simp) fun d => ?_
      obtain ⟨_, heq⟩ := Option.ite_none_right_eq_some.mp hs
      rw [← Option.some.inj heq]
      exact complete_places s (Connection.pingOnTimer _ error)
        (Connection.pingOnTimer_places { s.conns c with waits := (s.conns c).waits - 1 } error)
        0 d
  | queueTimer =>
      obtain ⟨_, heq⟩ := Option.ite_none_right_eq_some.mp hs
      rw [← Option.some.inj heq]
      exact swept_queueMoves h

end Server

end ConnectDisks.Net
