import ConnectDisks.Server.Connection

/-!
# What a completion does to its connection

A connection's own methods never look at its lobby. So what a read or a tick of
the ping timer does to the connection can be said once and for all, in terms the
lobby cares about: the connection `Idles`, or it turns ready, or it hands out a
column, or it is dropped, and it emits the one signal that goes with that.

`Idles` allows only messages of housekeeping, pings and places in the queue. No
client lets those touch its game, which is why they may travel between any two
messages of a game.
-/

namespace ConnectDisks.Net

/-- A message that has nothing to do with a lobby. -/
def Message.Housekeeping (m : Message) : Prop :=
  m.type = .ping ∨ m.type = .inQueue

namespace Connection

/-- Nothing about the connection changes that its lobby could notice. -/
structure Idles (c c' : Connection) : Prop where
  lobby : c'.lobby = c.lobby
  id : c'.id = c.id
  isAlive : c'.isAlive = c.isAlive
  isReady : c'.isReady = c.isReady
  handlers : c'.handlers = c.handlers
  sent : ∃ ms, c'.sent = c.sent ++ ms ∧ ∀ m ∈ ms, m.Housekeeping

theorem Idles.refl (c : Connection) : c.Idles c :=
  ⟨rfl, rfl, rfl, rfl, rfl, [], (List.append_nil _).symm, fun _ h => by cases h⟩

theorem Idles.trans {a b c : Connection} (hab : a.Idles b) (hbc : b.Idles c) : a.Idles c := by
  obtain ⟨ms, hms, hhk⟩ := hab.sent
  obtain ⟨ms', hms', hhk'⟩ := hbc.sent
  refine ⟨hbc.lobby.trans hab.lobby, hbc.id.trans hab.id, hbc.isAlive.trans hab.isAlive,
    hbc.isReady.trans hab.isReady, hbc.handlers.trans hab.handlers, ms ++ ms', ?_, ?_⟩
  · rw [hms', hms, List.append_assoc]
  · intro m hm
    rcases List.mem_append.mp hm with hm | hm
    · exact hhk m hm
    · exact hhk' m hm

theorem sendMessage_of_alive {c : Connection} (h : c.isAlive = true) (m : Message) :
    c.sendMessage m = { c with sent := c.sent ++ [m] } := by
  simp only [isAlive] at h
  simp [sendMessage, h]

theorem sendMessage_of_dead {c : Connection} (h : c.isAlive = false) (m : Message) :
    c.sendMessage m = c := by
  simp only [isAlive] at h
  simp [sendMessage, h]

theorem sendMessage_idles (c : Connection) {m : Message} (hm : m.Housekeeping) :
    c.Idles (c.sendMessage m) := by
  cases h : c.isAlive with
  | true =>
      rw [sendMessage_of_alive h]
      refine ⟨rfl, rfl, rfl, rfl, rfl, [m], rfl, ?_⟩
      intro m' hm'
      rwa [List.mem_singleton.mp hm']
  | false =>
      rw [sendMessage_of_dead h]
      exact .refl c

theorem idles_of_eq {c c' : Connection} (hlobby : c'.lobby = c.lobby) (hid : c'.id = c.id)
    (halive : c'.isAlive = c.isAlive) (hready : c'.isReady = c.isReady)
    (hhandlers : c'.handlers = c.handlers) (hsent : c'.sent = c.sent) : c.Idles c' :=
  ⟨hlobby, hid, halive, hready, hhandlers, [], by rw [hsent, List.append_nil],
    fun _ h => by cases h⟩

theorem waitForMessages_idles (c : Connection) : c.Idles c.waitForMessages := by
  rw [waitForMessages]
  split
  · exact .refl c
  · exact idles_of_eq rfl rfl rfl rfl rfl rfl

theorem receivedPong_idles (c : Connection) (b : Bool) :
    c.Idles { c with receivedPong := b } :=
  idles_of_eq rfl rfl rfl rfl rfl rfl

theorem missedPongs_idles (c : Connection) (n : UInt8) :
    c.Idles { c with missedPongs := n } :=
  idles_of_eq rfl rfl rfl rfl rfl rfl

theorem sendPing_idles (c : Connection) : c.Idles c.sendPing :=
  (receivedPong_idles c false).trans (sendMessage_idles _ (.inl rfl))

theorem startTimer_idles (c : Connection) : c.Idles c.startTimer :=
  idles_of_eq rfl rfl rfl rfl rfl rfl

theorem reads_idles (c : Connection) (n : Nat) : c.Idles { c with reads := n } :=
  idles_of_eq rfl rfl rfl rfl rfl rfl

theorem waits_idles (c : Connection) (n : Nat) : c.Idles { c with waits := n } :=
  idles_of_eq rfl rfl rfl rfl rfl rfl

theorem onAccept_idles (c : Connection) : c.Idles c.onAccept :=
  ((waitForMessages_idles c).trans (sendPing_idles _)).trans (startTimer_idles _)

theorem notifyQueuePosition_idles (c : Connection) (position : UInt64) :
    c.Idles (c.notifyQueuePosition position) :=
  sendMessage_idles c (.inr rfl)

def readied (c : Connection) : Connection := { c with clientIsReady := true }

def dropped (c : Connection) : Connection := { c with clientIsConnected := false }

@[simp] theorem readied_isReady (c : Connection) : c.readied.isReady = true := rfl

@[simp] theorem dropped_isReady (c : Connection) : c.dropped.isReady = c.isReady := rfl

@[simp] theorem dropped_isAlive (c : Connection) : c.dropped.isAlive = false := rfl

theorem handleDisconnect_of_alive {c : Connection} (h : c.isAlive = true) :
    c.handleDisconnect = (c.dropped, some .disconnected) := by
  simp only [isAlive] at h
  simp [handleDisconnect, h, dropped]

theorem handleDisconnect_of_dead {c : Connection} (h : c.isAlive = false) :
    c.handleDisconnect = (c, none) := by
  simp only [isAlive] at h
  simp [handleDisconnect, h]

/-! ## The two completion handlers -/

/-- The messages `onReadSocket` emits a signal for: those that carry the
connection's own id. -/
def Heeds (c : Connection) (m : Message) : Prop :=
  m.get 0 = c.id ∧ (m.type = .ready ∨ m.type = .takeTurn ∧ m.get 1 ≠ 255)

/-- What a completion handler can do to its connection and the signal it hands
out. A signal that carries a message's meaning says which message was read. -/
inductive Outcome (c : Connection) : Option Message → Connection × Option Signal → Prop
  | silent {m : Option Message} {c' : Connection} (idles : c.Idles c')
      (unheeded : ∀ m', m = some m' → ¬ c.Heeds m') : Outcome c m (c', none)
  | readied {m : Message} {c' : Connection} (idles : c.Idles c') (type : m.type = .ready)
      (id : m.get 0 = c.id) :
      Outcome c (some m) (c'.readied, some .readied)
  | tookTurn {m : Message} {c' : Connection} (idles : c.Idles c')
      (type : m.type = .takeTurn) (id : m.get 0 = c.id) (column : m.get 1 ≠ 255) :
      Outcome c (some m) (c', some (.tookTurn (m.get 1)))
  | dropped {c' : Connection} (idles : c.Idles c') (alive : c.isAlive = true) :
      Outcome c none (c'.dropped, some .disconnected)

theorem Outcome.idle {c c' : Connection} (h : c.Idles c') : c.Outcome none (c', none) :=
  .silent h fun _ hm => by cases hm

theorem handleDisconnect_outcome (c : Connection) : c.Outcome none c.handleDisconnect := by
  cases h : c.isAlive with
  | true =>
      rw [handleDisconnect_of_alive h]
      exact .dropped (.refl c) h
  | false =>
      rw [handleDisconnect_of_dead h]
      exact .idle (.refl c)

/-- Turning ready and starting the next read do not get in each other's way. -/
theorem waitForMessages_ready (c : Connection) :
    c.readied.waitForMessages = c.waitForMessages.readied := by
  cases h : c.clientIsConnected <;> simp [waitForMessages, readied, h]

end Connection

/-- The end of the stream, and the two errors that mean as much. -/
def ReadResult.closes : ReadResult → Bool
  | .failed .eof => true
  | .failed .connectionAborted => true
  | .failed .connectionReset => true
  | _ => false

/-- The message a read completes with, if it does. -/
def ReadResult.message? : ReadResult → Option Message
  | .message m => some m
  | _ => none

theorem message_of_read {c : ConnId} {m : Option Message} {read? : Option (ConnId × Message)}
    (hnone : m = none → read? = none) (hread : ∀ m', m = some m' → read? = some (c, m')) :
    ∀ d m', read? = some (d, m') → d = c ∧ m = some m' := by
  intro d m' he
  cases m with
  | none =>
      rw [hnone rfl] at he
      cases he
  | some m =>
      rw [hread m rfl] at he
      cases he
      exact ⟨rfl, rfl⟩

namespace Connection

theorem onReadSocket_outcome (c : Connection) (result : ReadResult) :
    c.Outcome result.message? (c.onReadSocket result) := by
  cases result with
  | empty => exact .idle (.refl c)
  | failed error =>
      cases error with
      | unknown => exact .idle (.refl c)
      | _ => exact handleDisconnect_outcome c
  | message m =>
      -- a message that is not heeded has another type, another id or no column
      have hsilent : ∀ {c' : Connection}, c.Idles c' → ¬ c.Heeds m →
          c.Outcome (some m) (c', none) := fun hi hn =>
        .silent hi fun m' hm' => Option.some.inj hm' ▸ hn
      simp only [onReadSocket, ReadResult.message?]
      split
      · next htype =>
          split
          · next hid =>
              rw [show c.handleClientReady.1 = c.readied from rfl,
                waitForMessages_ready]
              exact .readied (waitForMessages_idles c) htype (by simpa using hid)
          · next hid =>
              exact hsilent (waitForMessages_idles c) fun h => hid (by simpa using h.1)
      · next htype =>
          split
          · next h =>
              simp only [Bool.and_eq_true, beq_iff_eq, bne_iff_ne] at h
              exact .tookTurn (waitForMessages_idles c) htype h.1 h.2
          · next h =>
              refine hsilent (waitForMessages_idles c) fun hh => h ?_
              rcases hh.2 with hready | hturn
              · rw [htype] at hready
                cases hready
              · simpa using ⟨hh.1, hturn.2⟩
      · next htype =>
          exact hsilent ((receivedPong_idles c true).trans (waitForMessages_idles _))
            fun h => by simp [Heeds, htype] at h
      · next hready hturn _ =>
          refine hsilent (waitForMessages_idles c) fun h => ?_
          rcases h.2 with h | h
          · exact hready h
          · exact hturn h.1

theorem pingOnTimer_outcome (c : Connection) (error : Bool) :
    c.Outcome none (c.pingOnTimer error) := by
  have hpong : ∀ n, c.Idles (startTimer (sendPing { c with missedPongs := n })) := fun n =>
    ((missedPongs_idles c n).trans (sendPing_idles _)).trans (startTimer_idles _)
  rw [pingOnTimer]
  split
  · exact .idle (.refl c)
  · split
    · next halive =>
        split
        · exact .idle (hpong 0)
        · simp only
          split
          · rw [handleDisconnect_of_alive (by exact halive)]
            exact .dropped (missedPongs_idles c _) halive
          · exact .idle (hpong _)
    · exact .idle (.refl c)

/-- The read that ends a live connection. -/
def dropsAtRead (c : Connection) (result : ReadResult) : Bool :=
  result.closes && c.isAlive

/-- The tick that ends a live connection: the fourth in a row without a pong. -/
def dropsAtTick (c : Connection) (error : Bool) : Bool :=
  !error && c.isAlive && !c.receivedPong && decide (c.missedPongs + 1 > 3)

theorem handleDisconnect_signal (c : Connection) :
    c.handleDisconnect.2 = some .disconnected ↔ c.isAlive = true := by
  cases h : c.isAlive with
  | true => simp [handleDisconnect_of_alive h]
  | false => simp [handleDisconnect_of_dead h]

theorem onReadSocket_signal (c : Connection) (result : ReadResult) :
    (c.onReadSocket result).2 = some .disconnected ↔ c.dropsAtRead result = true := by
  cases result with
  | empty => simp [onReadSocket, dropsAtRead, ReadResult.closes]
  | message m =>
      simp only [onReadSocket, dropsAtRead, ReadResult.closes, handleClientReady]
      split <;> try split
      all_goals simp
  | failed error =>
      cases error with
      | unknown => simp [onReadSocket, dropsAtRead, ReadResult.closes]
      | _ => exact handleDisconnect_signal c

theorem pingOnTimer_signal (c : Connection) (error : Bool) :
    (c.pingOnTimer error).2 = some .disconnected ↔ c.dropsAtTick error = true := by
  cases error with
  | true => simp [pingOnTimer, dropsAtTick]
  | false =>
      cases halive : c.clientIsConnected with
      | false => simp [pingOnTimer, dropsAtTick, isAlive, halive]
      | true =>
          cases hpong : c.receivedPong with
          | true => simp [pingOnTimer, dropsAtTick, halive, hpong]
          | false =>
              by_cases hmissed : c.missedPongs + 1 > 3
              · simp [pingOnTimer, dropsAtTick, isAlive, halive, hpong, hmissed,
                  handleDisconnect]
              · simp [pingOnTimer, dropsAtTick, isAlive, halive, hpong, hmissed]

/-- Completing a read takes it off the connection, which its lobby does not see. -/
theorem Outcome.of_idles {c c' : Connection} {m : Option Message}
    {out : Connection × Option Signal} (h : c.Idles c') (ho : c'.Outcome m out) :
    c.Outcome m out := by
  cases ho with
  | silent hi hn =>
      refine .silent (h.trans hi) fun m' hm' hh => hn m' hm' ?_
      rwa [Heeds, h.id]
  | readied hi htype hid => exact .readied (h.trans hi) htype (by rw [hid, h.id])
  | tookTurn hi htype hid hcol => exact .tookTurn (h.trans hi) htype (by rw [hid, h.id]) hcol
  | dropped hi halive => exact .dropped (h.trans hi) (by rw [← h.isAlive, halive])

end Connection

end ConnectDisks.Net
