import ConnectDisks.Proofs.RoomStep
import ConnectDisks.Server.Server

/-!
# Four lobbies over one table of connections

Each lobby of the server, with the table of all connections, is a room in which
the representation invariant holds (`Rooms`). A method that ran on one room may
have changed connections the other rooms look at too, so what makes this an
invariant is that a connection belongs to one lobby at most: a method reaches
only its own lobby's connections and, in `addPlayer`, one that had no lobby.

`Moves` is the list of what one event of the server can do, in the terms of the
rooms. The events of a connection come down to the three handlers, run on the
room of the one lobby the connection is attached to.
-/

namespace ConnectDisks.Net

open ConnectDisks.Game Lib

/-- The message an event reads, and on which connection. -/
def ServerEvent.message? : ServerEvent → Option (ConnId × Message)
  | .read c (.message m) _ => some (c, m)
  | _ => none

namespace Server

@[simp] theorem modify_lobbies (s : Server) (c : ConnId) (f : Connection → Connection) :
    (s.modify c f).lobbies = s.lobbies := rfl

@[simp] theorem modify_conns_self (s : Server) (c : ConnId) (f : Connection → Connection) :
    (s.modify c f).conns c = f (s.conns c) :=
  Function.update_self ..

theorem modify_conns_of_ne (s : Server) {c d : ConnId} (h : d ≠ c)
    (f : Connection → Connection) : (s.modify c f).conns d = s.conns d :=
  Function.update_of_ne h ..

theorem putRoom_getElem? {s : Server} {l : LobbyId} {lobby : GameLobby}
    (hl : s.lobbies[l]? = some lobby) (r : Room) : (s.putRoom l r).lobbies[l]? = some r.lobby :=
  List.getElem?_set_self (List.getElem?_eq_some_iff.mp hl).1

theorem putRoom_cases {s : Server} {l l' : LobbyId} {lobby lobby' : GameLobby} {r : Room}
    (hl : s.lobbies[l]? = some lobby) (hl' : (s.putRoom l r).lobbies[l']? = some lobby') :
    (l' = l ∧ lobby' = r.lobby) ∨ (l' ≠ l ∧ s.lobbies[l']? = some lobby') := by
  by_cases hne : l' = l
  · rw [hne, putRoom_getElem? hl] at hl'
    exact .inl ⟨hne, (Option.some.inj hl').symm⟩
  · rw [putRoom, List.getElem?_set_ne (Ne.symm hne)] at hl'
    exact .inr ⟨hne, hl'⟩

/-- Every lobby satisfies its invariant, and every connection that is attached
anywhere was added to a lobby of the server. -/
structure Rooms (s : Server) : Prop where
  room : ∀ (l : LobbyId) (lobby : GameLobby), s.lobbies[l]? = some lobby → lobby.address = l ∧
    lobby.maxPlayers = FourAcross.minNumPlayers ∧ (s.room lobby).Inv
  attached : ∀ c, (s.conns c).handlers = [] ∨
    ∃ (l : LobbyId) (lobby : GameLobby), s.lobbies[l]? = some lobby ∧ c ∈ lobby.handlers

namespace Rooms

variable {s : Server} {l : LobbyId} {lobby : GameLobby}

theorem inv (h : s.Rooms) (hl : s.lobbies[l]? = some lobby) : (s.room lobby).Inv :=
  (h.room l lobby hl).2.2

theorem handlers_eq (h : s.Rooms) (hl : s.lobbies[l]? = some lobby) {c : ConnId}
    (hc : c ∈ lobby.handlers) : (s.conns c).handlers = [l] := by
  obtain ⟨haddr, _, hinv⟩ := h.room l lobby hl
  rw [← haddr]
  exact (hinv.seats.member c hc).2.1

theorem unique (h : s.Rooms) (hl : s.lobbies[l]? = some lobby) {l' : LobbyId}
    {lobby' : GameLobby} (hl' : s.lobbies[l']? = some lobby') {c : ConnId}
    (hc : c ∈ lobby.handlers) (hc' : c ∈ lobby'.handlers) : l = l' := by
  have := (h.handlers_eq hl hc).symm.trans (h.handlers_eq hl' hc')
  injection this

theorem mem_iff (h : s.Rooms) (hl : s.lobbies[l]? = some lobby) (c : ConnId) :
    c ∈ lobby.handlers ↔ l ∈ (s.conns c).handlers := by
  obtain ⟨haddr, _, hinv⟩ := h.room l lobby hl
  rw [← haddr]
  exact hinv.seats.mem_handlers c

theorem congr {s' : Server} (h : s.Rooms) (hl : s'.lobbies = s.lobbies)
    (hc : s'.conns = s.conns) : s'.Rooms := by
  refine ⟨fun l lobby hlobby => ?_, fun c => ?_⟩
  · rw [hl] at hlobby
    rw [Server.room, hc]
    exact h.room l lobby hlobby
  · rw [hc, hl]
    exact h.attached c

theorem modify (h : s.Rooms) {c : ConnId} {conn : Connection}
    (hseat : (s.conns c).KeepsSeat conn) : (s.modify c fun _ => conn).Rooms := by
  refine ⟨fun l lobby hl => ?_, fun d => ?_⟩
  · obtain ⟨haddr, hmax, hinv⟩ := h.room l lobby hl
    exact ⟨haddr, hmax, hinv.modify (r := s.room lobby) hseat⟩
  · by_cases hd : d = c
    · rw [hd, modify_conns_self, hseat.handlers]
      exact h.attached c
    · rw [modify_conns_of_ne s hd]
      exact h.attached d

/-- A method ran on one room: it may have added connections that had no lobby, and
left alone whatever its lobby does not hold. -/
theorem putRoom (h : s.Rooms) (hl : s.lobbies[l]? = some lobby) {r : Room} (hr : r.Inv)
    (hfixed : r.fixed = (s.room lobby).fixed)
    (hothers : ∀ c ∉ r.lobby.handlers, r.conns c = s.conns c)
    (hgrow : ∀ c ∈ lobby.handlers, c ∈ r.lobby.handlers)
    (hnew : ∀ c ∈ r.lobby.handlers, c ∈ lobby.handlers ∨ (s.conns c).handlers = []) :
    (s.putRoom l r).Rooms := by
  obtain ⟨haddr, hmax, _⟩ := h.room l lobby hl
  have haddr' : r.lobby.address = l := (congrArg Prod.snd hfixed).trans haddr
  have hget := putRoom_getElem? hl r
  have hapart : ∀ (l' : LobbyId) (lobby' : GameLobby), l' ≠ l → s.lobbies[l']? = some lobby' →
      ∀ c ∈ lobby'.handlers, c ∉ r.lobby.handlers := by
    intro l' lobby' hne hl' c hc hin
    rcases hnew c hin with hmem | hnil
    · exact hne (h.unique hl' hl hc hmem)
    · rw [h.handlers_eq hl' hc] at hnil
      cases hnil
  refine ⟨fun l' lobby' hl' => ?_, fun c => ?_⟩
  · rcases putRoom_cases hl hl' with ⟨rfl, rfl⟩ | ⟨hne, hl'⟩
    · exact ⟨haddr', (congrArg Prod.fst hfixed).trans hmax, hr⟩
    · obtain ⟨haddr₁, hmax₁, hinv₁⟩ := h.room l' lobby' hl'
      refine ⟨haddr₁, hmax₁, hinv₁.seats.congr rfl (fun c hc => ?_) (fun c hc hin => ?_),
        hinv₁.playing⟩
      · show (s.conns c).KeepsSeat (r.conns c)
        rw [hothers c (hapart l' lobby' hne hl' c hc)]
        exact .refl _
      · change lobby'.address ∈ (r.conns c).handlers at hin
        by_cases hmem : c ∈ r.lobby.handlers
        · rw [(hr.seats.member c hmem).2.1, haddr', haddr₁, List.mem_singleton] at hin
          exact hne hin
        · rw [hothers c hmem] at hin
          exact hc (hinv₁.seats.attached c hin)
  · show (r.conns c).handlers = [] ∨ _
    by_cases hmem : c ∈ r.lobby.handlers
    · exact .inr ⟨l, r.lobby, hget, hmem⟩
    · rw [hothers c hmem]
      rcases h.attached c with hnil | ⟨l', lobby', hl', hc⟩
      · exact .inl hnil
      · refine .inr ⟨l', lobby', ?_, hc⟩
        have hne : l' ≠ l := by
          rintro rfl
          rw [hl] at hl'
          exact hmem (hgrow c (Option.some.inj hl' ▸ hc))
        rw [Server.putRoom, List.getElem?_set_ne (Ne.symm hne)]
        exact hl'

theorem putRoom_within (h : s.Rooms) (hl : s.lobbies[l]? = some lobby) {r : Room}
    (hr : r.Inv) (hw : (s.room lobby).Within r) : (s.putRoom l r).Rooms := by
  have hhandlers : r.lobby.handlers = lobby.handlers := hw.handlers
  refine h.putRoom hl hr hw.fixed (fun c hc => hw.others c ?_) (fun c hc => ?_)
    (fun c hc => .inl ?_)
  · show c ∉ lobby.handlers
    rwa [← hhandlers]
  · rwa [hhandlers]
  · rwa [← hhandlers]

theorem addPlayer (h : s.Rooms) (l : LobbyId) {c : ConnId} (hid : (s.conns c).id = 0)
    (hnil : (s.conns c).handlers = []) : (s.addPlayer l c).Rooms := by
  rw [Server.addPlayer]
  split
  · exact h
  · next lobby hl =>
      refine congr (s := s.putRoom l ((s.room lobby).addPlayer c)) ?_ rfl rfl
      have hinv := h.inv hl
      have hjoin : (s.room lobby).Joinable c := ⟨hid, hnil⟩
      cases hcan : lobby.canAddPlayers with
      | false =>
          rw [Room.addPlayer_of_not (r := s.room lobby) hcan]
          exact h.putRoom_within hl hinv (.of_lobby rfl rfl rfl)
      | true =>
          have hadd := hinv.addPlayer hjoin
          obtain ⟨i, _, _, heq⟩ := Room.addPlayer_of_can hinv.seats hcan c
          rw [heq] at hadd ⊢
          refine h.putRoom hl hadd rfl (fun d hd => ?_) (fun d hd => ?_) (fun d hd => ?_)
          · refine Room.admitted_conns_of_ne _ (fun heq => hd ?_) i
            rw [heq]
            exact List.mem_append_right _ (List.mem_singleton_self c)
          · exact List.mem_append_left _ hd
          · rcases List.mem_append.mp hd with hd | hd
            · exact .inl hd
            · rw [List.mem_singleton.mp hd]
              exact .inr hnil

theorem makeNewLobby (h : s.Rooms) : s.makeNewLobby.1.Rooms := by
  have hhandlers : ∀ c, (s.conns c).handlers = [] ∨ ∃ l, l < s.lobbies.length ∧
      (s.conns c).handlers = [l] := by
    intro c
    rcases h.attached c with hnil | ⟨l, lobby, hl, hc⟩
    · exact .inl hnil
    · exact .inr ⟨l, (List.getElem?_eq_some_iff.mp hl).1, h.handlers_eq hl hc⟩
  refine ⟨fun l lobby hl => ?_, fun c => ?_⟩
  · by_cases hlt : l < s.lobbies.length
    · rw [Server.makeNewLobby, List.getElem?_append_left hlt] at hl
      exact h.room l lobby hl
    · have hle := Nat.le_of_not_lt hlt
      rw [Server.makeNewLobby, List.getElem?_append_right hle,
        List.getElem?_singleton] at hl
      split at hl
      · next heq =>
          have hl' : l = s.lobbies.length :=
            Nat.le_antisymm (Nat.sub_eq_zero_iff_le.mp heq) hle
          rw [← Option.some.inj hl, hl']
          refine ⟨rfl, rfl, Room.new_inv _ _ fun c hin => ?_⟩
          change s.lobbies.length ∈ (s.conns c).handlers at hin
          rcases hhandlers c with hnil | ⟨l', hlt', heq'⟩
          · rw [hnil] at hin
            cases hin
          · rw [heq', List.mem_singleton] at hin
            exact absurd hin (Nat.ne_of_gt hlt')
      · cases hl
  · rcases h.attached c with hnil | ⟨l, lobby, hl, hc⟩
    · exact .inl hnil
    · refine .inr ⟨l, lobby, ?_, hc⟩
      rw [Server.makeNewLobby, List.getElem?_append_left (List.getElem?_eq_some_iff.mp hl).1]
      exact hl

end Rooms

/-! ## What one event does -/

/-- The connection an event drops. -/
def drops (s : Server) : ServerEvent → Option ConnId
  | .read c result _ => if (s.conns c).dropsAtRead result then some c else none
  | .pingTimer c error => if (s.conns c).dropsAtTick error then some c else none
  | _ => none

/-- The room of a lobby after the occupant of slot `i` was dropped. -/
def leftRoom (s : Server) (c : ConnId) (conn : Connection) (lobby : GameLobby) (i : Nat) :
    Room :=
  (((s.room lobby).modify c fun _ => conn.dropped).vacated c i).ended

/-- The server then, before the slot is filled. -/
def left (s : Server) (c : ConnId) (conn : Connection) (l : LobbyId) (lobby : GameLobby)
    (i : Nat) : Server :=
  (s.modify c fun _ => conn.dropped).putRoom l (s.leftRoom c conn lobby i)

theorem left_lobby {s : Server} {l : LobbyId} {lobby : GameLobby}
    (hl : s.lobbies[l]? = some lobby) (c : ConnId) (conn : Connection) (i : Nat) :
    (s.left c conn l lobby i).lobbies[l]? = some (s.leftRoom c conn lobby i).lobby :=
  putRoom_getElem? (s := s.modify c fun _ => conn.dropped) hl _

@[simp] theorem left_playerQueue (s : Server) (c : ConnId) (conn : Connection) (l : LobbyId)
    (lobby : GameLobby) (i : Nat) : (s.left c conn l lobby i).playerQueue = s.playerQueue :=
  rfl

theorem left_seat (s : Server) {c d : ConnId} (hd : d ≠ c) (conn : Connection) (l : LobbyId)
    (lobby : GameLobby) (i : Nat) :
    ((s.left c conn l lobby i).conns d).seat = (s.conns d).seat := by
  have h := (Room.left_within ((s.room lobby).modify c fun _ => conn.dropped) c i).seat d
  rwa [Room.modify_conns_of_ne _ hd] at h

/-- Everything one event can do. A connection an event completes an operation of
is `busy`: it was accepted. -/
inductive Moves (s : Server) : ServerEvent → Server → Prop
  | refused {c : ConnId} {rest : List ConnId} (next : s.accepting = c :: rest) :
      Moves s (.accept true) { s with accepting := rest }
  | accepted {c : ConnId} {rest : List ConnId} (next : s.accepting = c :: rest) :
      Moves s (.accept false) (onConnectionAccepted { s with accepting := rest } c false)
  | sweep : Moves s .queueTimer (updateQueuePositions { s with timers := s.timers - 1 })
  | idle {e : ServerEvent} {c : ConnId} {conn : Connection}
      (busy : s.conns c ≠ Connection.create) (idles : (s.conns c).Idles conn)
      (unheeded : ∀ d m, e.message? = some (d, m) → ¬ (s.conns d).Heeds m)
      (kept : s.drops e = none) :
      Moves s e (s.modify c fun _ => conn)
  | outside {e : ServerEvent} {c : ConnId} {conn : Connection}
      (busy : s.conns c ≠ Connection.create) (out : (s.conns c).handlers = [])
      (wanders : (s.conns c).Wanders conn)
      (unheard : ∀ d m, e.message? = some (d, m) → d = c)
      (kept : ∀ d ∈ s.drops e, d = c) :
      Moves s e (s.modify c fun _ => conn)
  | ready {c : ConnId} {m : Message} {first : UInt8} {conn : Connection} {l : LobbyId}
      {lobby : GameLobby} (busy : s.conns c ≠ Connection.create)
      (found : s.lobbies[l]? = some lobby) (mem : c ∈ lobby.handlers)
      (idles : (s.conns c).Idles conn) (type : m.type = .ready)
      (id : m.get 0 = (s.conns c).id) :
      Moves s (.read c (.message m) first)
        ((s.modify c fun _ => conn.readied).putRoom l
          (((s.room lobby).modify c fun _ => conn.readied).onReady c first))
  | turn {c : ConnId} {m : Message} {first : UInt8} {conn : Connection} {l : LobbyId}
      {lobby : GameLobby} (busy : s.conns c ≠ Connection.create)
      (found : s.lobbies[l]? = some lobby) (mem : c ∈ lobby.handlers)
      (idles : (s.conns c).Idles conn) (type : m.type = .takeTurn)
      (id : m.get 0 = (s.conns c).id) (column : m.get 1 ≠ 255) :
      Moves s (.read c (.message m) first)
        ((s.modify c fun _ => conn).putRoom l
          (((s.room lobby).modify c fun _ => conn).onTakeTurn c (m.get 1)))
  | drop {e : ServerEvent} {c : ConnId} {conn : Connection} {l : LobbyId}
      {lobby : GameLobby} {i : Nat} (busy : s.conns c ≠ Connection.create)
      (found : s.lobbies[l]? = some lobby) (seated : (s.room lobby).Seated i c)
      (alive : (s.conns c).isAlive = true) (idles : (s.conns c).Idles conn)
      (silent : e.message? = none) (drops : s.drops e = some c) :
      Moves s e ((s.left c conn l lobby i).onLobbyAvailable l)

/-- The handlers that run are those of the lobby the connection was added to. -/
theorem complete_of_mem {s : Server} (h : s.Rooms) {c : ConnId} {conn : Connection}
    {l : LobbyId} {lobby : GameLobby} (hl : s.lobbies[l]? = some lobby)
    (hc : c ∈ lobby.handlers) (hseat : (s.conns c).KeepsSeat conn) (signal : Signal)
    (first : UInt8) :
    s.complete c (conn, some signal) first =
      (if (((s.room lobby).modify c fun _ => conn).handle c first signal).2 then
        ((s.modify c fun _ => conn).putRoom l
          (((s.room lobby).modify c fun _ => conn).handle c first signal).1).onLobbyAvailable l
      else (s.modify c fun _ => conn).putRoom l
        (((s.room lobby).modify c fun _ => conn).handle c first signal).1) := by
  have hh : ((s.modify c fun _ => conn).conns c).handlers = [l] := by
    rw [modify_conns_self, hseat.handlers, h.handlers_eq hl hc]
  have hl' : (s.modify c fun _ => conn).lobbies[l]? = some lobby := hl
  rw [complete, dispatch, hh, List.foldl_cons, List.foldl_nil, handle, hl']
  rfl

theorem complete_of_outside {s : Server} {c : ConnId} {conn : Connection}
    (hc : (s.conns c).handlers = []) (hseat : (s.conns c).KeepsSeat conn)
    (signal : Option Signal) (first : UInt8) :
    s.complete c (conn, signal) first = s.modify c fun _ => conn := by
  have hh : ((s.modify c fun _ => conn).conns c).handlers = [] := by
    rw [modify_conns_self, hseat.handlers, hc]
  cases signal with
  | none => rfl
  | some signal => rw [complete, dispatch, hh, List.foldl_nil]

theorem complete_moves {s : Server} (h : s.Rooms) {e : ServerEvent} {c : ConnId}
    {m : Option Message} {out : Connection × Option Signal} {first : UInt8}
    (hbusy : s.conns c ≠ Connection.create) (ho : (s.conns c).Outcome m out)
    (hnone : m = none → e.message? = none)
    (hread : ∀ m', m = some m' → e = .read c (.message m') first)
    (hdrops : s.drops e = if out.2 = some .disconnected then some c else none) :
    s.Moves e (s.complete c out first) := by
  have hmsg : ∀ d m', e.message? = some (d, m') → d = c ∧ m = some m' :=
    message_of_read hnone fun m' hm => by rw [hread m' hm]; rfl
  have hkept : ∀ d ∈ s.drops e, d = c := by
    intro d hd
    rw [hdrops] at hd
    split at hd
    · exact (Option.some.inj hd).symm
    · cases hd
  have hout : ∀ {conn : Connection} {signal : Option Signal}, (s.conns c).handlers = [] →
      (s.conns c).Wanders conn → s.Moves e (s.complete c (conn, signal) first) := by
    intro conn signal hc hw
    rw [complete_of_outside hc hw.seat]
    exact .outside hbusy hc hw (fun d m' he => (hmsg d m' he).1) hkept
  cases ho with
  | silent hi hn =>
      refine .idle hbusy hi (fun d m' he => ?_) hdrops
      obtain ⟨rfl, hm⟩ := hmsg d m' he
      exact hn m' hm
  | readied hi htype hid =>
      rcases h.attached c with hnil | ⟨l, lobby, hl, hc⟩
      · exact hout hnil (Room.ready_wanders hi)
      · rw [complete_of_mem h hl hc (Room.ready_wanders hi).seat, hread _ rfl]
        exact .ready hbusy hl hc hi htype hid
  | tookTurn hi htype hid hcol =>
      rcases h.attached c with hnil | ⟨l, lobby, hl, hc⟩
      · exact hout hnil hi.wanders
      · rw [complete_of_mem h hl hc hi.keepsSeat, hread _ rfl]
        exact .turn hbusy hl hc hi htype hid hcol
  | @dropped conn hi halive =>
      rcases h.attached c with hnil | ⟨l, lobby, hl, hc⟩
      · exact hout hnil (Room.dropped_wanders hi)
      · have hinv := h.inv hl
        have hseat := (Room.dropped_wanders hi).seat
        obtain ⟨i, hseated⟩ := hinv.seats.alive c hc halive
        have hseated' : ((s.room lobby).modify c fun _ => conn.dropped).Seated i c := hseated
        rw [complete_of_mem h hl hc hseat, Room.handle,
          Room.onDisconnect_eq (hinv.modify hseat) hseated', if_pos rfl]
        exact .drop hbusy hl hseated halive hi (hnone rfl) hdrops

theorem busy_of_reads {c : Connection} (h : 0 < c.reads) : c ≠ Connection.create := by
  rintro rfl
  exact absurd h (by decide)

theorem busy_of_waits {c : Connection} (h : 0 < c.waits) : c ≠ Connection.create := by
  rintro rfl
  exact absurd h (by decide)

theorem step_accept {s s' : Server} {failed : Bool} (hs : s.step (.accept failed) = some s') :
    ∃ c rest, s.accepting = c :: rest ∧
      s' = onConnectionAccepted { s with accepting := rest } c failed := by
  rw [step] at hs
  split at hs
  · cases hs
  · next c rest hnext => exact ⟨c, rest, hnext, (Option.some.inj hs).symm⟩

theorem step_moves {s s' : Server} {e : ServerEvent} (h : s.Rooms)
    (hs : s.step e = some s') : s.Moves e s' := by
  cases e with
  | accept failed =>
      obtain ⟨c, rest, hnext, rfl⟩ := step_accept hs
      cases failed with
      | true => exact .refused hnext
      | false => exact .accepted hnext
  | read c result first =>
      obtain ⟨hreads, heq⟩ := Option.ite_none_right_eq_some.mp hs
      rw [← Option.some.inj heq]
      refine complete_moves h (busy_of_reads hreads)
        ((Connection.onReadSocket_outcome _ result).of_idles (Connection.reads_idles _ _)) ?_ ?_ ?_
      · intro hm
        cases result <;> first | rfl | cases hm
      · intro m' hm
        cases result <;> cases hm
        rfl
      · exact if_congr (Connection.onReadSocket_signal
          { s.conns c with reads := (s.conns c).reads - 1 } result).symm rfl rfl
  | pingTimer c error =>
      obtain ⟨hwaits, heq⟩ := Option.ite_none_right_eq_some.mp hs
      rw [← Option.some.inj heq]
      refine complete_moves (e := .pingTimer c error) h (busy_of_waits hwaits)
        ((Connection.pingOnTimer_outcome _ error).of_idles (Connection.waits_idles _ _))
        (fun _ => rfl) (fun _ hm => by cases hm) ?_
      exact if_congr (Connection.pingOnTimer_signal
        { s.conns c with waits := (s.conns c).waits - 1 } error).symm rfl rfl
  | queueTimer =>
      obtain ⟨_, heq⟩ := Option.ite_none_right_eq_some.mp hs
      rw [← Option.some.inj heq]
      exact .sweep

end Server

end ConnectDisks.Net
