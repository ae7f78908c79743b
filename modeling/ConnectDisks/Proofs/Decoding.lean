import ConnectDisks.Net.Dispatch
import ConnectDisks.Proofs.ConnectionSpec

/-!
# What is decoded is what was encoded

Encoder and decoder of a message are written in different files, byte by byte. Here they
are put together: whatever a connection tells its client, the client does what was meant,
and the other way round.

Of the lot only the ids are a matter of order. A connection that is given its id tells the
client, and a request for a turn is looked at by a client that goes by the id of the moment.
`Spoken` says that the two go together. It holds of the calls made on one connection
(`spoken_calls`), and of any calls on connections that all have the id of the client
(`spoken_of_id`).
-/

namespace ConnectDisks.Net

open ConnectDisks.Game Lib

/-! ## The switches -/

namespace Client

/-- `handleRead` is its switch, whatever machine the client runs on. -/
theorem handleRead_eq (client : Host) (cl : Client) (m : Message) :
    cl.handleRead m = (dispatch client cl.playerId m).elim (.ok (cl, [])) cl.perform := by
  rw [handleRead, dispatch, client.queuePosition_eq]
  cases m.type with
  | takeTurn =>
      by_cases h : m.get 0 = cl.playerId ∧ m.get 1 = requestTurn
      · simp only [if_pos h]
        rfl
      · simp only [if_neg h]
        rfl
  | _ => rfl

theorem handleRead_playerId {cl cl' : Client} {m : Message} {calls : List Call}
    (h : cl.handleRead m = .ok (cl', calls)) : cl'.playerId = idAfter cl.playerId m := by
  rw [handleRead] at h
  rw [idAfter]
  cases htype : m.type with
  | gameStart =>
      simp only [htype, startGame] at h
      split at h <;> cases h
      rfl
  | turnResult =>
      simp only [htype, checkTurnResult] at h
      repeat' split at h
      all_goals cases h
      all_goals rfl
  | update =>
      simp only [htype, takeOpponentTurn] at h
      split at h <;> cases h
      rfl
  | takeTurn =>
      simp only [htype] at h
      split at h <;> cases h <;> rfl
  | _ =>
      simp only [htype, sendPong, stopGame] at h
      cases h
      rfl

theorem each_cons {α : Type} (f : Client → α → Except ClientFault (Client × List Call))
    (cl : Client) (x : α) (xs : List α) :
    each f cl (x :: xs) = (f cl x).bind fun done =>
      (each f done.1 xs).map fun rest => (rest.1, done.2 ++ rest.2) := by
  rw [each]
  cases f cl x with
  | error fault => rfl
  | ok done =>
      show Except.bind (each f done.1 xs) _ = Except.map _ _
      cases each f done.1 xs <;> rfl

theorem handleReads_eq (client : Host) (cl : Client) (ms : List Message) :
    cl.handleReads ms = cl.performs (dispatches client cl.playerId ms) := by
  induction ms generalizing cl with
  | nil => rfl
  | cons m ms ih =>
      rw [handleReads] at ih
      have hread := handleRead_eq client cl m
      rw [handleReads, each_cons, dispatches]
      cases hm : dispatch client cl.playerId m with
      | none =>
          rw [hm, Option.elim_none] at hread
          rw [hread, ← handleRead_playerId hread, Option.toList_none, List.nil_append]
          show Except.map _ (each handleRead cl ms) = _
          rw [ih]
          cases cl.performs (dispatches client cl.playerId ms) <;> rfl
      | some task =>
          rw [hm, Option.elim_some] at hread
          rw [Option.toList_some, List.singleton_append, performs, each_cons, ← hread]
          cases hdone : cl.handleRead m with
          | error fault => rfl
          | ok done =>
              show Except.map _ (each handleRead done.1 ms) = Except.map _ (each perform _ _)
              rw [ih, ← handleRead_playerId hdone]
              rfl

end Client

/-! ## A new game -/

namespace NewGame

theorem getters_eq (g : NewGame) :
    g.game.getNumColumns = g.numColumns ∧ g.game.getNumRows = g.numRows ∧
      g.game.getCurrentPlayer = g.first := by
  have hnew := ValidGame.new_state g.isNew
  obtain ⟨hboard, _⟩ := FourAcross.new_spec hnew
  obtain ⟨_, hcols, hrows, _⟩ := Board.new_spec hboard
  have hplayers := FourAcross.new_players (UInt8.le_iff_toNat_le.mp g.enough)
    (UInt8.le_iff_toNat_le.mp g.first_pos) (UInt8.le_iff_toNat_le.mp g.first_le) hnew
  exact ⟨hcols, hrows, hplayers.2⟩

theorem onGameStart_eq (g : NewGame) (c : Connection) :
    c.onGameStart g.numPlayers g.game =
      c.sendMessage (.gameStart g.numPlayers g.numColumns g.numRows g.first) := by
  obtain ⟨hcols, hrows, hfirst⟩ := g.getters_eq
  rw [Connection.onGameStart, hcols, hrows, hfirst]

/-- The client constructs the same game. -/
theorem perform_startGame (g : NewGame) (cl : Client) :
    cl.perform (.startGame g.numPlayers g.first g.numColumns g.numRows) =
      .ok ({ cl with game := some g.game },
        [.onGameStart g.numPlayers g.first g.numColumns g.numRows]) := by
  rw [Client.perform, Client.startGame, g.isNew]

end NewGame

/-! ## From the server -/

namespace Connection

variable (client server : Host)

theorem writes_of_sent {server : Host} {c : Connection} {n : Notice} {ms : List Message}
    (h : (c.tell server n).sent = c.sent ++ ms) : c.writes server n = ms := by
  rw [writes, h, List.drop_left]

/-- One message `m`, and how a client is to take it: whether it goes by the id the
connection had when the call was made or by the one it has now. -/
structure Hands (client : Host) (c c' : Connection) (m : Message) (task : ClientTask) : Prop where
  alive : c'.isAlive = true
  sent : c'.sent = c.sent ++ [m]
  named : m.type.IsNamed
  dispatch : ∀ id, (id = c.id ∨ id = c'.id) → Client.dispatch client id m = some task
  idAfter : ∀ id, (id = c.id ∨ id = c'.id) → Client.idAfter id m = c'.id

theorem hands_sendMessage {client : Host} {c c' : Connection} {m : Message} {task : ClientTask}
    (halive : c'.isAlive = true) (hsent : c'.sent = c.sent) (hid : c'.id = c.id)
    (hnamed : m.type.IsNamed) (hother : m.type ≠ .connected)
    (htask : Client.dispatch client c.id m = some task) :
    Hands client c (c'.sendMessage m) m task := by
  rw [sendMessage_of_alive halive]
  refine ⟨halive, congrArg (· ++ [m]) hsent, hnamed, ?_, ?_⟩
  · rintro id (rfl | rfl)
    · exact htask
    · exact hid ▸ htask
  · intro id h
    have heq : id = c.id := h.elim (fun h => h) fun h => h.trans hid
    rw [heq, Client.idAfter]
    split
    · next hconnected => exact absurd hconnected hother
    · exact hid.symm

/-- A call writes nothing and the client has nothing to do, or it writes one message. -/
theorem tell_cases {c : Connection} (h : c.isAlive = true) (n : Notice) :
    (c.tell server n = c ∧ n.task? c.id = none) ∨
      ∃ m task, n.task? c.id = some task ∧ Hands client c (c.tell server n) m task := by
  have hsend {m : Message} {task : ClientTask} (hnamed : m.type.IsNamed)
      (hother : m.type ≠ .connected) (htask : Client.dispatch client c.id m = some task) :
      Hands client c (c.sendMessage m) m task :=
    hands_sendMessage h rfl rfl hnamed hother htask
  cases n with
  | setId new =>
      by_cases hid : c.id = 0
      · refine .inr ⟨.connected new, .setPlayerId new, if_pos hid, ?_⟩
        have htell : c.tell server (.setId new) =
            { c with id := new, sent := c.sent ++ [.connected new] } := by
          rw [tell, setId, if_pos (beq_iff_eq.mpr hid)]
          exact sendMessage_of_alive (c := { c with id := new }) h _
        rw [htell]
        exact ⟨h, rfl, nofun, fun _ _ => rfl, fun _ _ => rfl⟩
      · exact .inl ⟨if_neg (mt beq_iff_eq.mp hid), if_neg hid⟩
  | notifyQueuePosition position =>
      refine .inr ⟨.inQueue position, _, rfl, ?_⟩
      rw [tell, server.inQueue_eq]
      refine hsend nofun nofun ?_
      rw [Client.dispatch, client.queuePosition_eq]
      simp
  | sendPing => exact .inr ⟨.ping, _, rfl, hands_sendMessage h rfl rfl nofun nofun rfl⟩
  | onGameStart g =>
      refine .inr ⟨.gameStart g.numPlayers g.numColumns g.numRows g.first, _, rfl, ?_⟩
      rw [tell, g.onGameStart_eq]
      exact hsend nofun nofun rfl
  | onGameEnd player =>
      exact .inr ⟨.gameEnd player, _, rfl, hands_sendMessage h rfl rfl nofun nofun rfl⟩
  | onTurn playerId =>
      by_cases hid : playerId = c.id
      · refine .inr ⟨.takeTurn playerId requestTurn, _, if_pos hid, ?_⟩
        rw [tell, onTurn, if_pos (beq_iff_eq.mpr hid)]
        exact hsend nofun nofun (if_pos ⟨hid, rfl⟩)
      · exact .inl ⟨if_neg (mt beq_iff_eq.mp hid), if_neg hid⟩
  | onUpdate playerId col result =>
      by_cases hid : playerId = c.id
      · refine .inr ⟨.turnResult result col, _, if_pos hid, ?_⟩
        rw [tell, onUpdate, if_neg (by simp [hid])]
        exact hsend nofun nofun rfl
      · have hne : (playerId != c.id) = true := bne_iff_ne.mpr hid
        by_cases hresult : result = .success
        · refine .inr ⟨.update playerId col, _, (if_neg hid).trans (if_pos hresult), ?_⟩
          rw [tell, onUpdate, if_pos hne, if_pos (beq_iff_eq.mpr hresult)]
          exact hsend nofun nofun rfl
        · refine .inl ⟨?_, (if_neg hid).trans (if_neg hresult)⟩
          rw [tell, onUpdate, if_pos hne, if_neg (mt beq_iff_eq.mp hresult)]

/-- Calls on connections that write, made one after the other, for a client that goes by
this id: each is made on a connection with the id, or gives it the id. -/
def Spoken (server : Host) : UInt8 → List (Connection × Notice) → Prop
  | _, [] => True
  | id, (c, n) :: built =>
      c.isAlive = true ∧ (id = c.id ∨ id = (c.tell server n).id) ∧
        Spoken server (c.tell server n).id built

theorem spoken_of_id {server : Host} {id : UInt8} {built : List (Connection × Notice)}
    (h : ∀ b ∈ built, b.1.isAlive = true ∧ (b.1.tell server b.2).id = id) :
    Spoken server id built := by
  induction built with
  | nil => trivial
  | cons b built ih =>
      obtain ⟨halive, hid⟩ := h b List.mem_cons_self
      have hrest := ih fun b hb => h b (List.mem_cons_of_mem _ hb)
      exact ⟨halive, .inr hid.symm, hid ▸ hrest⟩

theorem tell_alive {c : Connection} (h : c.isAlive = true) (n : Notice) :
    (c.tell server n).isAlive = true := by
  rcases tell_cases server server h n with ⟨hsame, _⟩ | ⟨_, _, _, hm⟩
  · rw [hsame]
    exact h
  · exact hm.alive

theorem tell_sent {c : Connection} (h : c.isAlive = true) (n : Notice) :
    (c.tell server n).sent = c.sent ++ c.writes server n := by
  rcases tell_cases server server h n with ⟨hsame, _⟩ | ⟨m, _, _, hm⟩
  · rw [writes, hsame, List.drop_length, List.append_nil]
  · rw [writes_of_sent hm.sent, hm.sent]

theorem spoken_calls {c : Connection} (h : c.isAlive = true) (ns : List Notice) :
    Spoken server c.id (c.calls server ns) := by
  induction ns generalizing c with
  | nil => trivial
  | cons n ns ih => exact ⟨h, .inl rfl, ih (tell_alive server h n)⟩

theorem tellAll_sent {c : Connection} (h : c.isAlive = true) (ns : List Notice) :
    (c.tellAll server ns).sent =
      c.sent ++ (c.calls server ns).flatMap fun b => b.1.writes server b.2 := by
  induction ns generalizing c with
  | nil => exact (List.append_nil _).symm
  | cons n ns ih =>
      have hrest := ih (tell_alive server h n)
      rw [calls, List.flatMap_cons, ← List.append_assoc, ← tell_sent server h]
      exact hrest

/-- The messages of such calls come to the member functions that were meant. -/
theorem dispatches_writes {server : Host} {id : UInt8} {built : List (Connection × Notice)}
    (h : Spoken server id built) :
    (∀ m ∈ built.flatMap fun b => b.1.writes server b.2, m.type.IsNamed) ∧
      Client.dispatches client id (built.flatMap fun b => b.1.writes server b.2) =
        built.filterMap fun b => b.2.task? b.1.id := by
  induction built generalizing id with
  | nil => exact ⟨nofun, rfl⟩
  | cons b built ih =>
      obtain ⟨c, n⟩ := b
      obtain ⟨halive, hid, hrest⟩ := h
      obtain ⟨hnamed, htasks⟩ := ih hrest
      rw [List.flatMap_cons, List.filterMap_cons]
      rcases tell_cases client server halive n with ⟨hsame, htask⟩ | ⟨m, task, htask, hm⟩
      · have hid : id = c.id := hid.elim (fun h => h) fun h => h.trans (congrArg _ hsame)
        have hwrites : c.writes server n = [] := writes_of_sent (by rw [hsame, List.append_nil])
        rw [hwrites, List.nil_append, htask]
        rw [hsame, ← hid] at hrest
        exact ih hrest
      · rw [writes_of_sent hm.sent, List.singleton_append, Client.dispatches, htask,
          hm.dispatch id hid, hm.idAfter id hid, htasks]
        refine ⟨fun m' hm' => ?_, rfl⟩
        rcases List.mem_cons.mp hm' with rfl | hm'
        · exact hm.named
        · exact hnamed m' hm'

end Connection

/-! ## From the client -/

theorem say_named (cl : Client) (r : Request) : (cl.say r).type.IsNamed := by
  cases r <;> exact nofun

namespace Connection

theorem onReadSocket_eq (c : Connection) (m : Message) :
    c.onReadSocket (.message m) =
      ((c.perform (dispatch c.id m)).1.waitForMessages, (c.perform (dispatch c.id m)).2) := by
  rw [onReadSocket, dispatch]
  cases m.type with
  | ready =>
      by_cases h : (m.get 0 == c.id) = true
      · simp only [if_pos h]
        rfl
      · simp only [if_neg h]
        rfl
  | takeTurn =>
      by_cases h : (m.get 0 == c.id && m.get 1 != 255) = true
      · simp only [if_pos h]
        rfl
      · simp only [if_neg h]
        rfl
  | _ => rfl

theorem waitForMessages_id (c : Connection) : c.waitForMessages.id = c.id := by
  rw [waitForMessages]
  split <;> rfl

theorem perform_id (c : Connection) (task : Option ServerTask) : (c.perform task).1.id = c.id := by
  rcases task with - | - | - | - <;> rfl

theorem handleReads_eq (c : Connection) (ms : List Message) :
    c.handleReads ms = c.performs (ms.map (dispatch c.id)) := by
  induction ms generalizing c with
  | nil => rfl
  | cons m ms ih =>
      have hrest := ih (c.perform (dispatch c.id m)).1.waitForMessages
      rw [waitForMessages_id, perform_id] at hrest
      rw [handleReads, each, onReadSocket_eq, List.map_cons, performs, each]
      exact congrArg (fun done => (done.1, _ ++ done.2)) hrest

/-- A message of the client comes to the handler that was meant. -/
theorem dispatch_say {cl : Client} {id : UInt8} (h : cl.playerId = id) (r : Request) :
    dispatch id (cl.say r) = r.task? := by
  subst h
  cases r with
  | toggleReady => exact if_pos (beq_self_eq_true _)
  | sendTurn column =>
      have hid : ((cl.say (.sendTurn column)).get 0 == cl.playerId) = true :=
        beq_self_eq_true cl.playerId
      have hbyte : (cl.say (.sendTurn column)).get 1 = column := rfl
      show (if _ then _ else _) = _
      rw [hid, hbyte, Bool.true_and, Request.task?]
      by_cases hcolumn : column = requestTurn
      · rw [if_pos hcolumn, hcolumn]
        rfl
      · rw [if_neg hcolumn]
        exact if_pos (bne_iff_ne.mpr hcolumn)
  | sendPong => rfl

end Connection

/-! ## Both ways, through the bytes -/

theorem notices_decode (server client : Host) {id : UInt8} {cl : Client}
    {built : List (Connection × Notice)} (hcl : cl.playerId = id)
    (h : Connection.Spoken server id built) :
    let ms := readWire (wire (built.flatMap fun b => b.1.writes server b.2))
    let tasks := built.filterMap fun b => b.2.task? b.1.id
    Client.dispatches client id ms = tasks ∧ cl.handleReads ms = cl.performs tasks := by
  intro ms tasks
  obtain ⟨hnamed, htasks⟩ := Connection.dispatches_writes client h
  have hms : ms = _ := readWire_wire hnamed
  rw [hms, Client.handleReads_eq client, hcl, htasks]
  exact ⟨rfl, rfl⟩

theorem requests_decode {c : Connection} {built : List (Client × Request)}
    (h : ∀ b ∈ built, b.1.playerId = c.id) :
    let ms := readWire (wire (built.map fun b => b.1.say b.2))
    ms.map (Connection.dispatch c.id) = built.map (fun b => b.2.task?) ∧
      c.handleReads ms = c.performs (built.map fun b => b.2.task?) := by
  intro ms
  have hnamed : ∀ m ∈ built.map fun b => b.1.say b.2, m.type.IsNamed := by
    intro m hm
    obtain ⟨b, _, rfl⟩ := List.mem_map.mp hm
    exact say_named b.1 b.2
  have hms : ms = _ := readWire_wire hnamed
  have htasks : ms.map (Connection.dispatch c.id) = built.map fun b => b.2.task? := by
    rw [hms, List.map_map]
    exact List.map_congr_left fun b hb => Connection.dispatch_say (h b hb) b.2
  exact ⟨htasks, by rw [Connection.handleReads_eq, htasks]⟩

/-- What one side sends is what the other side does. The messages go through the bytes, cut
into the size of a message, between any two machines.

First, any sequence of messages that connections with the client's id build. Next, all
that one connection writes while calls are made on it, from the id it starts with. Then
the game a `gameStart` message makes the client construct, which is the one it announced.
Last, the way back, on which a turn in the column 255 is ignored. -/
theorem wire_decodes (server client : Host) :
    (∀ (id : UInt8) (cl : Client) (built : List (Connection × Notice)), cl.playerId = id →
      (∀ b ∈ built, b.1.isAlive = true ∧ (b.1.tell server b.2).id = id) →
      let ms := readWire (wire (built.flatMap fun b => b.1.writes server b.2))
      let tasks := built.filterMap fun b => b.2.task? b.1.id
      Client.dispatches client id ms = tasks ∧ cl.handleReads ms = cl.performs tasks) ∧
    (∀ (c : Connection) (cl : Client) (ns : List Notice), c.isAlive = true →
      cl.playerId = c.id → ∃ written, (c.tellAll server ns).sent = c.sent ++ written ∧
        let ms := readWire (wire written)
        let tasks := (c.calls server ns).filterMap fun b => b.2.task? b.1.id
        Client.dispatches client c.id ms = tasks ∧ cl.handleReads ms = cl.performs tasks) ∧
    (∀ (g : NewGame) (cl : Client),
      cl.perform (.startGame g.numPlayers g.first g.numColumns g.numRows) =
        .ok ({ cl with game := some g.game },
          [.onGameStart g.numPlayers g.first g.numColumns g.numRows])) ∧
    (∀ (c : Connection) (built : List (Client × Request)),
      (∀ b ∈ built, b.1.playerId = c.id) →
      let ms := readWire (wire (built.map fun b => b.1.say b.2))
      ms.map (Connection.dispatch c.id) = built.map (fun b => b.2.task?) ∧
        c.handleReads ms = c.performs (built.map fun b => b.2.task?)) := by
  refine ⟨fun id cl built hcl h => ?_, fun c cl ns h hcl => ?_, NewGame.perform_startGame,
    fun c built h => requests_decode h⟩
  · exact notices_decode server client hcl (Connection.spoken_of_id h)
  · exact ⟨_, Connection.tellAll_sent server h ns,
      notices_decode server client hcl (Connection.spoken_calls server h ns)⟩

/-- The first calls on a connection from `setId` to the end of a game of three, the server
on one kind of machine and the client on the other; then two messages of connections that
have the id already, and the client's turn and what is no turn. -/
theorem wire_decodes_game :
    (∃ written,
      (Connection.create.tellAll .little [.notifyQueuePosition 258, .setId 2, .sendPing,
        .onGameStart (.standard 3 2 (by decide) (by decide) (by decide)), .onTurn 2, .onTurn 3,
        .onUpdate 2 4 .success, .onUpdate 3 0 .success, .onUpdate 3 9 .badColumn,
        .onUpdate 2 255 .badColumn, .onGameEnd 2]).sent = written ∧
      Client.dispatches .big 0 (readWire (wire written)) = [.onQueueUpdate 258, .setPlayerId 2,
        .sendPong, .startGame 3 2 5 4, .handleTurnRequest, .checkTurnResult 1 4,
        .takeOpponentTurn 3 0, .checkTurnResult 3 255, .stopGame 2]) ∧
    Client.dispatches .big 2 (readWire (wire
      ([(Connection.create, .setId 2), ({ Connection.create with id := 2 }, .onTurn 2)].flatMap
        fun b => b.1.writes .little b.2))) = [.setPlayerId 2, .handleTurnRequest] ∧
    (readWire (wire ([({ Client.new with playerId := 2 }, .sendTurn 4),
      ({ Client.new with playerId := 2 }, .sendTurn 255)].map fun b => b.1.say b.2))).map
        (Connection.dispatch 2) = [some (.tookTurn 4), none] := by
  obtain ⟨hbuilt, hrun, _, hback⟩ := wire_decodes .little .big
  refine ⟨?_, ?_, ?_⟩
  · obtain ⟨written, hsent, hdispatches, _⟩ := hrun .create .new _ rfl rfl
    exact ⟨written, hsent, hdispatches⟩
  · exact (hbuilt 2 { Client.new with playerId := 2 } _ rfl (by decide)).1
  · exact (hback { Connection.create with id := 2 } _ (by decide)).1

end ConnectDisks.Net
