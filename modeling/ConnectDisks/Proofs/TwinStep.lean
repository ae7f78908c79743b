import ConnectDisks.Proofs.Unseen

/-!
# Two servers that differ in one connection

Nobody looks at a connection that waits in the queue except to ask whether it is alive. So
if two servers differ in the readiness of such a connection, and in how many reads it has
under way, they stay alike through every event: what the connection does itself has no
handler to run, and the lobbies do not see what differs (`Twin`).

The readiness is looked at again from the moment the connection gets a slot. Then the two
are alike only if they agree on it, and that is where `Twin.others` stops.
-/

namespace ConnectDisks.Net

open ConnectDisks.Game Lib

/-- The message that makes a connection with this id ready. -/
def Message.SaysReady (m : Message) (id : UInt8) : Prop := m.type = .ready ∧ m.get 0 = id

instance (m : Message) (id : UInt8) : Decidable (m.SaysReady id) := by
  unfold Message.SaysReady
  infer_instance

namespace Connection

/-- The same connection with another number of reads under way and another readiness. -/
def tuned (reads : Nat) (ready : Bool) (c : Connection) : Connection :=
  { c with reads := reads, clientIsReady := ready }

def reading (reads : Nat) (c : Connection) : Connection := { c with reads := reads }

def saying (ready : Bool) (c : Connection) : Connection := { c with clientIsReady := ready }

theorem sendMessage_comm {f : Connection → Connection}
    (halive : ∀ c, (f c).isAlive = c.isAlive)
    (hsent : ∀ c sent, f { c with sent := c.sent ++ sent } =
      { f c with sent := (f c).sent ++ sent }) (c : Connection) (m : Message) :
    f (c.sendMessage m) = (f c).sendMessage m := by
  cases h : c.isAlive with
  | true =>
      rw [sendMessage_of_alive h, sendMessage_of_alive ((halive c).trans h)]
      exact hsent c [m]
  | false => rw [sendMessage_of_dead h, sendMessage_of_dead ((halive c).trans h)]

theorem tuned_hidden (n : Nat) (b : Bool) : Hidden (tuned n b) :=
  ⟨fun _ => rfl, fun _ => rfl, fun _ => rfl, fun _ _ => rfl, fun _ _ => rfl, fun _ _ => rfl,
    sendMessage_comm (fun _ => rfl) fun _ _ => rfl⟩

theorem saying_hidden (b : Bool) : Hidden (saying b) :=
  ⟨fun _ => rfl, fun _ => rfl, fun _ => rfl, fun _ _ => rfl, fun _ _ => rfl, fun _ _ => rfl,
    sendMessage_comm (fun _ => rfl) fun _ _ => rfl⟩

theorem reading_invisible (n : Nat) : Invisible (reading n) where
  toHidden := ⟨fun _ => rfl, fun _ => rfl, fun _ => rfl, fun _ _ => rfl, fun _ _ => rfl,
    fun _ _ => rfl, sendMessage_comm (fun _ => rfl) fun _ _ => rfl⟩
  isReady := fun _ => rfl
  withReady := fun _ _ => rfl

theorem onAccept_saying (b : Bool) (c : Connection) :
    (c.saying b).onAccept = c.onAccept.saying b := by
  cases h : c.clientIsConnected with
  | true => simp [onAccept, waitForMessages, startPings, sendPing, sendMessage, startTimer,
      saying, h]
  | false => simp [onAccept, waitForMessages, startPings, sendPing, sendMessage, startTimer,
      saying, h]

theorem Outcome.isReady_iff {c : Connection} {m : Option Message}
    {out : Connection × Option Signal} (h : c.Outcome m out) :
    out.1.isReady = true ↔ c.isReady = true ∨ ∃ m', m = some m' ∧ m'.SaysReady c.id := by
  cases h with
  | silent hi hn =>
      rw [hi.isReady]
      refine (or_iff_left ?_).symm
      rintro ⟨m', hm, htype, hid⟩
      exact hn m' hm ⟨hid, .inl htype⟩
  | readied hi htype hid => exact iff_of_true rfl (.inr ⟨_, rfl, htype, hid⟩)
  | tookTurn hi htype _ _ =>
      rw [hi.isReady]
      refine (or_iff_left ?_).symm
      rintro ⟨m', hm, hready, _⟩
      cases hm
      exact absurd (hready.symm.trans htype) (by decide)
  | dropped hi _ =>
      rw [dropped_isReady, hi.isReady]
      refine (or_iff_left ?_).symm
      rintro ⟨m', hm, _⟩
      cases hm

theorem waitForMessages_tuned (c : Connection) (n : Nat) (b : Bool) :
    ∃ n', (c.tuned n b).waitForMessages = c.waitForMessages.tuned n' b := by
  cases h : c.clientIsConnected with
  | true => exact ⟨n + 1, by simp [waitForMessages, tuned, h]⟩
  | false => exact ⟨n, by simp [waitForMessages, tuned, h]⟩

theorem handleDisconnect_tuned (c : Connection) (n : Nat) (b : Bool) :
    (c.tuned n b).handleDisconnect = (c.handleDisconnect.1.tuned n b, c.handleDisconnect.2) := by
  cases h : c.isAlive with
  | true => rw [handleDisconnect_of_alive h, handleDisconnect_of_alive (c := c.tuned n b) h]; rfl
  | false => rw [handleDisconnect_of_dead h, handleDisconnect_of_dead (c := c.tuned n b) h]

theorem onReadSocket_tuned (c : Connection) (n : Nat) (b : Bool) (result : ReadResult) :
    ∃ n' b', (c.tuned n b).onReadSocket result =
      ((c.onReadSocket result).1.tuned n' b', (c.onReadSocket result).2) := by
  have hwait : ∀ (c : Connection) (b : Bool) (signal : Option Signal), ∃ n' b',
      ((c.tuned n b).waitForMessages, signal) = (c.waitForMessages.tuned n' b', signal) := by
    intro c b signal
    obtain ⟨n', heq⟩ := c.waitForMessages_tuned n b
    exact ⟨n', b, congrArg (·, signal) heq⟩
  cases result with
  | empty => exact ⟨n, b, rfl⟩
  | failed error =>
      cases error with
      | unknown => exact ⟨n, b, rfl⟩
      | _ => exact ⟨n, b, c.handleDisconnect_tuned n b⟩
  | message m =>
      cases htype : m.type with
      | ready =>
          simp only [onReadSocket, htype]
          by_cases hid : (m.get 0 == c.id) = true
          · rw [if_pos hid, if_pos (c := (m.get 0 == (c.tuned n b).id) = true) hid]
            exact hwait { c with clientIsReady := true } true _
          · rw [if_neg hid, if_neg (c := (m.get 0 == (c.tuned n b).id) = true) hid]
            exact hwait c b none
      | takeTurn =>
          simp only [onReadSocket, htype]
          by_cases hid : (m.get 0 == c.id && m.get 1 != 255) = true
          · rw [if_pos hid, if_pos (c := (m.get 0 == (c.tuned n b).id && m.get 1 != 255) = true) hid]
            exact hwait c b _
          · rw [if_neg hid, if_neg (c := (m.get 0 == (c.tuned n b).id && m.get 1 != 255) = true) hid]
            exact hwait c b none
      | pong =>
          simp only [onReadSocket, htype]
          exact hwait { c with receivedPong := true } b none
      | _ =>
          simp only [onReadSocket, htype]
          exact hwait c b none

theorem pingOnTimer_tuned (c : Connection) (n : Nat) (b error : Bool) :
    (c.tuned n b).pingOnTimer error =
      ((c.pingOnTimer error).1.tuned n b, (c.pingOnTimer error).2) := by
  cases error with
  | true => rfl
  | false =>
      cases halive : c.clientIsConnected with
      | false => simp [pingOnTimer, tuned, halive]
      | true =>
          cases hpong : c.receivedPong with
          | true =>
              simp [pingOnTimer, tuned, halive, hpong, sendPing, sendMessage, startTimer]
          | false =>
              by_cases hmissed : c.missedPongs + 1 > 3
              · simp [pingOnTimer, tuned, halive, hpong, hmissed, handleDisconnect]
              · simp [pingOnTimer, tuned, halive, hpong, hmissed, sendPing, sendMessage,
                  startTimer]

theorem Outcome.agree {c c' : Connection} {m : Option Message}
    {out out' : Connection × Option Signal} (h : c.Outcome m out) (h' : c'.Outcome m out')
    (hid : c'.id = c.id) (hready : c'.isReady = c.isReady) : out'.1.isReady = out.1.isReady := by
  rw [Bool.eq_iff_iff, h.isReady_iff, h'.isReady_iff, hid, hready]

/-- Whatever is read, unless it is a pong, changes these two fields at most. -/
theorem onReadSocket_of_not_pong (c : Connection) {m : Message} (hm : m.type ≠ .pong) :
    ∃ n b, (c.onReadSocket (.message m)).1 = c.tuned n b := by
  have hwait : ∀ b, ∃ n, (c.saying b).waitForMessages = c.tuned n b := by
    intro b
    cases h : c.clientIsConnected with
    | true => exact ⟨c.reads + 1, by simp [waitForMessages, tuned, saying, h]⟩
    | false => exact ⟨c.reads, by simp [waitForMessages, tuned, saying, h]⟩
  obtain ⟨n, hn⟩ := hwait c.isReady
  obtain ⟨n', hn'⟩ := hwait true
  simp only [onReadSocket]
  split
  · split
    · exact ⟨n', true, hn'⟩
    · exact ⟨n, _, hn⟩
  · split
    · exact ⟨n, _, hn⟩
    · exact ⟨n, _, hn⟩
  · next hpong => exact absurd hpong hm
  · exact ⟨n, _, hn⟩

theorem onReadSocket_alike (c : Connection) (n : Nat) (b : Bool) (result : ReadResult) :
    ∃ n' b', (c.tuned n b).onReadSocket result =
      ((c.onReadSocket result).1.tuned n' b', (c.onReadSocket result).2) ∧
      (b = c.isReady → b' = (c.onReadSocket result).1.isReady) := by
  obtain ⟨n', b', hsame⟩ := c.onReadSocket_tuned n b result
  refine ⟨n', b', hsame, fun hb => ?_⟩
  have hagree := (c.onReadSocket_outcome result).agree
    ((c.tuned n b).onReadSocket_outcome result) rfl hb
  rwa [hsame] at hagree

theorem pingOnTimer_alike (c : Connection) (n : Nat) (b error : Bool) :
    ∃ n' b', (c.tuned n b).pingOnTimer error =
      ((c.pingOnTimer error).1.tuned n' b', (c.pingOnTimer error).2) ∧
      (b = c.isReady → b' = (c.pingOnTimer error).1.isReady) := by
  have hsame := c.pingOnTimer_tuned n b error
  refine ⟨n, b, hsame, fun hb => ?_⟩
  have hagree := (c.pingOnTimer_outcome error).agree
    ((c.tuned n b).pingOnTimer_outcome error) rfl hb
  rwa [hsame] at hagree

end Connection

namespace Server

/-! ## Getting a lobby -/

theorem modify_conn_handlers (s : Server) {c : ConnId} {conn : Connection}
    (hseat : (s.conns c).KeepsSeat conn) (d : ConnId) :
    ((s.modify c fun _ => conn).conns d).handlers = (s.conns d).handlers := by
  by_cases hd : d = c
  · rw [hd, modify_conns_self, hseat.handlers]
  · rw [modify_conns_of_ne s hd]

theorem addPlayer_conns_of_ne (s : Server) (l : LobbyId) {c d : ConnId} (h : d ≠ c) :
    (s.addPlayer l c).conns d = s.conns d := by
  rw [addPlayer]
  split
  · rfl
  · next lobby _ =>
      show ((s.room lobby).addPlayer c).conns d = _
      rw [Room.addPlayer]
      split
      · rfl
      · simp only
        rw [Room.modify_conns_of_ne _ h]
        split <;> rfl

theorem onConnectionAccepted_conns_of_ne (s : Server) {c d : ConnId} (h : d ≠ c) :
    (s.onConnectionAccepted c false).conns d = s.conns d := by
  have hwelcomed : (s.welcomed c).conns d = s.conns d := modify_conns_of_ne s h _
  rcases onConnectionAccepted_cases s c with
    ⟨l, _, _, _, heq⟩ | ⟨_, _, heq⟩ | ⟨_, _, heq⟩ <;> rw [heq]
  · exact (addPlayer_conns_of_ne _ l h).trans hwelcomed
  · exact (addPlayer_conns_of_ne (s.welcomed c).makeNewLobby.1 _ h).trans hwelcomed
  · exact (Function.update_of_ne h _ _).trans hwelcomed

/-- A connection that was accepted stays attached to what it is attached to, or the
event takes it from the queue into a slot. -/
theorem Moves.attaches {s s' : Server} {e : ServerEvent} (h : s.Inv) (hm : s.Moves e s')
    {q : ConnId} (hacc : q ∈ s.accepted) :
    (s'.conns q).handlers = (s.conns q).handlers ∨
      (q ∈ s.playerQueue ∧ ∃ lobby ∈ s'.lobbies, some q ∈ lobby.players) := by
  cases hm with
  | refused _ => exact .inl rfl
  | @accepted c rest hnext =>
      have hne : q ≠ c := by
        rintro rfl
        exact h.book.next_new hnext hacc
      exact .inl (congrArg Connection.handlers
        (onConnectionAccepted_conns_of_ne { s with accepting := rest } hne))
  | sweep =>
      left
      rcases updateQueuePositions_conns { s with timers := s.timers - 1 } with heq | heq
      · rw [heq]
        exact (notifyFrom_idles _ _ _ q).handlers
      · rw [heq]
  | idle _ hi _ _ => exact .inl (modify_conn_handlers s hi.keepsSeat q)
  | outside _ _ hw _ _ => exact .inl (modify_conn_handlers s hw.seat q)
  | @ready c m first conn l lobby _ hl _ hi _ _ =>
      have hseat := (Room.ready_wanders hi).seat
      have hinv := (h.rooms.inv hl).modify (r := s.room lobby) hseat
      have hkept := (Room.onReady_within hinv.seats c first).seat q
      exact .inl ((congrArg (·.2.2.1) hkept).trans (modify_conn_handlers s hseat q))
  | @turn c m first conn l lobby _ hl _ hi _ _ _ =>
      have hinv := (h.rooms.inv hl).modify (r := s.room lobby) hi.keepsSeat
      have hkept := (Room.onTakeTurn_within hinv.playing c (m.get 1)).seat q
      exact .inl ((congrArg (·.2.2.1) hkept).trans (modify_conn_handlers s hi.keepsSeat q))
  | @drop e c conn l lobby i hbusy hl hc _ hi _ _ =>
      obtain ⟨hleft, hfull⟩ := h.dropped hbusy hl hc hi
      have hl' := left_lobby hl c conn i
      have hkept : ((s.left c conn l lobby i).conns q).handlers = (s.conns q).handlers :=
        (congrArg (·.2.2.1) ((Room.left_within _ c i).seat q)).trans
          (modify_conn_handlers s (Room.dropped_wanders hi).seat q)
      cases hq : s.playerQueue with
      | nil =>
          left
          rw [onLobbyAvailable, show (s.left c conn l lobby i).playerQueue = [] from hq]
          exact hkept
      | cons player rest =>
          obtain ⟨j, hlt, heq⟩ := onLobbyAvailable_admitted hleft.rooms hl' hfull hq
          rw [heq]
          by_cases hplayer : q = player
          · subst hplayer
            refine .inr ⟨List.mem_cons_self, _,
              List.mem_of_getElem? (putRoom_getElem? hl' _), ?_⟩
            exact List.mem_iff_getElem?.mpr ⟨j, List.getElem?_set_self hlt⟩
          · left
            exact (congrArg Connection.handlers (Room.admitted_conns_of_ne _ hplayer j)).trans
              hkept

/-! ## Two servers that differ in one connection -/

/-- The two servers are the same but for connection `q`. It may have another number of
reads under way in the second, and as long as it has no lobby another readiness. -/
inductive Twin (q : ConnId) (s : Server) : Server → Prop
  | same : Twin q s s
  | seated (accepted : q ∈ s.accepted) (n : Nat) : Twin q s (s.modify q (·.reading n))
  | waiting (accepted : q ∈ s.accepted) (out : (s.conns q).handlers = []) (n : Nat)
      (b : Bool) : Twin q s (s.modify q (·.tuned n b))

theorem modify_self {s : Server} {q : ConnId} {f : Connection → Connection}
    (h : f (s.conns q) = s.conns q) : s.modify q f = s := by
  rw [modify, h, Function.update_eq_self]

theorem Twin.exists_tuned {q : ConnId} {s t : Server} (h : Twin q s t) :
    ∃ n b, t = s.modify q (·.tuned n b) := by
  cases h with
  | same => exact ⟨(s.conns q).reads, (s.conns q).isReady, (modify_self rfl).symm⟩
  | seated _ n => exact ⟨n, (s.conns q).isReady, rfl⟩
  | waiting _ _ n b => exact ⟨n, b, rfl⟩

theorem modify_const (s : Server) (q : ConnId) (f g : Connection → Connection)
    (conn : Connection) :
    (s.modify q f).modify q (fun _ => g conn) = (s.modify q fun _ => conn).modify q g := by
  simp [modify]

/-- A completion of `q` itself: both servers answer it alike. -/
theorem own_step {s s' : Server} {q : ConnId} {e : ServerEvent} (he : e.conn? = some q)
    (hs : s.step e = some s') :
    ∃ out first, (s.conns q).Outcome (e.message?.map Prod.snd) out ∧
      s' = s.complete q out first ∧
      ∀ n b t', (s.modify q (·.tuned n b)).step e = some t' → ∃ n' b',
        t' = (s.modify q (·.tuned n b)).complete q (out.1.tuned n' b', out.2) first ∧
        (b = (s.conns q).isReady → b' = out.1.isReady) := by
  cases e with
  | accept failed => cases he
  | queueTimer => cases he
  | read c result first =>
      obtain rfl := Option.some.inj he
      obtain ⟨_, heq⟩ := Option.ite_none_right_eq_some.mp hs
      have hmsg : (ServerEvent.read c result first).message?.map Prod.snd = result.message? := by
        cases result <;> rfl
      rw [hmsg]
      refine ⟨_, first, (Connection.onReadSocket_outcome _ result).of_idles
        (Connection.reads_idles _ _), (Option.some.inj heq).symm, fun n b t' ht => ?_⟩
      obtain ⟨_, heq'⟩ := Option.ite_none_right_eq_some.mp ht
      rw [modify_conns_self] at heq'
      obtain ⟨n', b', hsame, hready⟩ := Connection.onReadSocket_alike
        { s.conns c with reads := (s.conns c).reads - 1 } (n - 1) b result
      refine ⟨n', b', ?_, hready⟩
      rw [← hsame]
      exact (Option.some.inj heq').symm
  | pingTimer c error =>
      obtain rfl := Option.some.inj he
      obtain ⟨_, heq⟩ := Option.ite_none_right_eq_some.mp hs
      refine ⟨_, 0, (Connection.pingOnTimer_outcome _ error).of_idles
        (Connection.waits_idles _ _), (Option.some.inj heq).symm, fun n b t' ht => ?_⟩
      obtain ⟨_, heq'⟩ := Option.ite_none_right_eq_some.mp ht
      rw [modify_conns_self] at heq'
      obtain ⟨n', b', hsame, hready⟩ := Connection.pingOnTimer_alike
        { s.conns c with waits := (s.conns c).waits - 1 } n b error
      refine ⟨n', b', ?_, hready⟩
      rw [← hsame]
      exact (Option.some.inj heq').symm

theorem QueueMoves.accepted {s s' : Server} {e : ServerEvent} (hm : s.QueueMoves e s')
    {c : ConnId} (hc : c ∈ s.accepted) : c ∈ s'.accepted := by
  cases hm with
  | stays _ hline _ _ => exact accepted_of_line hline ▸ hc
  | seated _ _ hline _ => exact accepted_of_line hline ▸ List.mem_append_left _ hc
  | queued _ _ hline _ _ _ => exact accepted_of_line hline ▸ List.mem_append_left _ hc
  | swept hline _ _ _ _ => exact accepted_of_line hline ▸ hc
  | filled _ _ hline _ _ => exact accepted_of_line hline ▸ hc

/-- What `q` itself does keeps the two servers alike. -/
theorem Twin.own {s t s' t' : Server} {q : ConnId} {e : ServerEvent} (hinv : s.Inv)
    (h : Twin q s t) (he : e.conn? = some q) (hs : s.step e = some s')
    (ht : t.step e = some t') : Twin q s' t' := by
  obtain ⟨out, first, hout, rfl, htuned⟩ := own_step he hs
  have hseat := hout.keepsSeat
  have haccepted : ∀ {c}, c ∈ s.accepted → c ∈ (s.complete q out first).accepted :=
    (step_queueMoves hinv hs).accepted
  cases h with
  | same =>
      obtain rfl := Option.some.inj (hs.symm.trans ht)
      exact .same
  | seated hacc n =>
      obtain ⟨n', b', rfl, hb⟩ := htuned n (s.conns q).isReady t' ht
      have hsame : (s.modify q (·.tuned n (s.conns q).isReady)).complete q
          (out.1.tuned n' b', out.2) first = (s.complete q out first).modify q (·.reading n') := by
        rw [hb rfl]
        exact (congrArg (fun u : Server => u.dispatch q first out.2)
          (modify_const s q _ (·.reading n') out.1)).trans
          (dispatch_modify_invisible (Connection.reading_invisible n') _ q q first out.2)
      rw [hsame]
      exact .seated (haccepted hacc) n'
  | waiting hacc hnil n b =>
      obtain ⟨n', b', rfl, _⟩ := htuned n b t' ht
      have hseat' : ((s.modify q (·.tuned n b)).conns q).KeepsSeat (out.1.tuned n' b') := by
        rw [modify_conns_self]
        exact ⟨hseat.lobby, hseat.id, hseat.handlers, hseat.isAlive⟩
      have hnil' : ((s.modify q (·.tuned n b)).conns q).handlers = [] := by
        rw [modify_conns_self]
        exact hnil
      rw [complete_of_outside hnil' hseat', modify_const s q _ (·.tuned n' b'),
        show s.complete q out first = _ from complete_of_outside hnil hseat out.2 first]
      refine Twin.waiting (s := s.modify q fun _ => out.1) hacc ?_ n' b'
      rw [modify_conns_self, hseat.handlers, hnil]

theorem step_isReady {s s' : Server} (hinv : s.Inv) {q : ConnId}
    (hnil : (s.conns q).handlers = []) {e : ServerEvent} (he : e.conn? ≠ some q)
    (hs : s.step e = some s') : (s'.conns q).isReady = (s.conns q).isReady := by
  have hself : s.modify q (·.saying (s.conns q).isReady) = s := modify_self rfl
  have hstep := step_modify hinv (Connection.saying_hidden (s.conns q).isReady)
    (.inr fun conn => conn.onAccept_saying _) (.inl hnil) he
  rw [hself, hs] at hstep
  rw [Option.some.inj hstep, modify_conns_self]
  rfl

/-- What the others do keeps the two servers alike, except that it may give `q` a
lobby while they differ in its readiness. -/
theorem Twin.others {s t s' t' : Server} {q : ConnId} {e : ServerEvent} (hinv : s.Inv)
    (h : Twin q s t) (he : e.conn? ≠ some q) (hs : s.step e = some s')
    (ht : t.step e = some t') :
    Twin q s' t' ∨ (q ∈ s.playerQueue ∧ (∃ lobby ∈ s'.lobbies, some q ∈ lobby.players) ∧
      ∃ n b, t = s.modify q (·.tuned n b) ∧ t' = s'.modify q (·.tuned n b)) := by
  have hm := step_queueMoves hinv hs
  cases h with
  | same =>
      obtain rfl := Option.some.inj (hs.symm.trans ht)
      exact .inl .same
  | seated hacc n =>
      rw [step_modify hinv (Connection.reading_invisible n).toHidden (.inl hacc)
        (.inr (Connection.reading_invisible n)) he, hs] at ht
      obtain rfl := Option.some.inj ht
      exact .inl (.seated (hm.accepted hacc) n)
  | waiting hacc hnil n b =>
      rw [step_modify hinv (Connection.tuned_hidden n b) (.inl hacc) (.inl hnil) he, hs] at ht
      obtain rfl := Option.some.inj ht
      rcases (step_moves hinv.rooms hs).attaches hinv hacc with hsame | ⟨hq, hslot⟩
      · exact .inl (.waiting (hm.accepted hacc) (hsame.trans hnil) n b)
      · exact .inr ⟨hq, hslot, n, b, rfl, rfl⟩

/-- What `q` says besides, while it waits in the queue, keeps them alike. -/
theorem Twin.extra {s t t' : Server} {q : ConnId} (hinv : s.Inv) (h : Twin q s t)
    (hq : q ∈ t.playerQueue) {m : Message} (hm : m.type ≠ .pong) {first : UInt8}
    (ht : t.step (.read q (.message m) first) = some t') : Twin q s t' := by
  obtain ⟨n, b, rfl⟩ := h.exists_tuned
  obtain ⟨hacc, _, hnil⟩ := hinv.book.queued q hq
  have hnil' : ((s.modify q (·.tuned n b)).conns q).handlers = [] := by
    rw [modify_conns_self]
    exact hnil
  obtain ⟨_, heq⟩ := Option.ite_none_right_eq_some.mp ht
  rw [modify_conns_self] at heq
  obtain ⟨n', b', hout⟩ := ((s.conns q).tuned (n - 1) b).onReadSocket_of_not_pong hm
  have hseat : ((s.modify q (·.tuned n b)).conns q).KeepsSeat ((s.conns q).tuned n' b') := by
    rw [modify_conns_self]
    exact .of_seat rfl
  have hdone : ∀ out : Connection × Option Signal, out.1 = (s.conns q).tuned n' b' →
      (s.modify q (·.tuned n b)).complete q out first = s.modify q (·.tuned n' b') := by
    rintro ⟨_, signal⟩ rfl
    rw [complete_of_outside hnil' hseat]
    simp [modify]
  have ht' : t' = s.modify q (·.tuned n' b') :=
    (Option.some.inj heq).symm.trans (hdone _ hout)
  rw [ht']
  exact .waiting hacc hnil n' b'

end Server

end ConnectDisks.Net
