import ConnectDisks.Proofs.ConnectionSpec
import ConnectDisks.Server.Session

/-!
# The ping watchdog

`receivedPong` says whether a pong was handled since the last ping, and
`missedPongs` how many ticks in a row found that it was not. Both are wiped late: the
flag by the next ping, the counter only by the tick after the pong. So while a pong is
waiting to be noticed the counter is stale, and what it is worth depends on the flag
(`Watched`).

What the two of them stand for is a number of silent ticks, counted from the last tick
that was not silent or from the beginning (`Silent`).
-/

namespace ConnectDisks.Net

def ConnectionEvent.isPong : ConnectionEvent → Bool
  | .read (.message m) => m.type == .pong
  | _ => false

/-- The last `n` ticks, and the time after them, were without a pong since the tick
before them or since the beginning. -/
def Silent (n : ℕ) (es : List ConnectionEvent) : Prop :=
  ∃ pre post, es = pre ++ post ∧ (∀ e ∈ pre.getLast?, e = .tick) ∧
    post.count .tick = n ∧ ∀ e ∈ post, e.isPong = false

theorem silent_nil {n : ℕ} : Silent n [] ↔ n = 0 := by
  constructor
  · rintro ⟨pre, post, heq, _, hcount, _⟩
    rw [(List.append_eq_nil_iff.mp heq.symm).2] at hcount
    exact hcount.symm
  · rintro rfl
    exact ⟨[], [], rfl, by simp, rfl, by simp⟩

theorem silent_zero_tick (es : List ConnectionEvent) : Silent 0 (es ++ [.tick]) := by
  refine ⟨es ++ [.tick], [], (List.append_nil _).symm, fun e he => ?_, rfl, by simp⟩
  rw [List.getLast?_concat] at he
  exact (Option.some.inj he).symm

/-- Where the last event is, if the count does not start after it. -/
theorem silent_concat {n : ℕ} {es : List ConnectionEvent} {e : ConnectionEvent}
    (h : Silent n (es ++ [e])) (hstart : e = .tick → n ≠ 0) :
    e.isPong = false ∧ ∃ m, Silent m es ∧ n = m + if e = .tick then 1 else 0 := by
  obtain ⟨pre, post, heq, hpre, hcount, hquiet⟩ := h
  rcases List.eq_nil_or_concat post with rfl | ⟨post, e', rfl⟩
  · rw [List.append_nil] at heq
    rw [← heq, List.getLast?_concat] at hpre
    exact absurd hcount.symm (hstart (hpre e rfl))
  · rw [List.concat_eq_append] at heq hcount hquiet
    rw [← List.append_assoc] at heq
    obtain ⟨rfl, he⟩ := List.append_inj' heq rfl
    injection he with he
    subst he
    refine ⟨hquiet e (by simp), post.count .tick, ⟨pre, post, rfl, hpre, rfl, fun e' he' => ?_⟩, ?_⟩
    · exact hquiet e' (List.mem_append_left _ he')
    · rw [← hcount, List.count_append, List.count_singleton]
      simp

theorem Silent.concat {n : ℕ} {es : List ConnectionEvent} (h : Silent n es)
    {e : ConnectionEvent} (he : e.isPong = false) :
    Silent (n + if e = .tick then 1 else 0) (es ++ [e]) := by
  obtain ⟨pre, post, rfl, hpre, hcount, hquiet⟩ := h
  refine ⟨pre, post ++ [e], List.append_assoc .., hpre, ?_, fun e' he' => ?_⟩
  · rw [List.count_append, List.count_singleton, hcount]
    simp
  · rcases List.mem_append.mp he' with he' | he'
    · exact hquiet e' he'
    · rw [List.mem_singleton.mp he']
      exact he

theorem not_silent_pong {n : ℕ} {es : List ConnectionEvent} {e : ConnectionEvent}
    (he : e.isPong = true) : ¬ Silent n (es ++ [e]) := by
  intro h
  have hnot := (silent_concat h (by rintro rfl; cases he)).1
  exact absurd (he.symm.trans hnot) (by decide)

theorem silent_read {n : ℕ} {es : List ConnectionEvent} {result : ReadResult}
    (he : (ConnectionEvent.read result).isPong = false) :
    Silent n (es ++ [.read result]) ↔ Silent n es := by
  constructor
  · intro h
    obtain ⟨_, m, hm, rfl⟩ := silent_concat h (by simp)
    exact hm
  · exact fun h => h.concat he

theorem silent_tick {n : ℕ} {es : List ConnectionEvent} :
    Silent (n + 1) (es ++ [.tick]) ↔ Silent n es := by
  constructor
  · intro h
    obtain ⟨_, m, hm, hn⟩ := silent_concat h (by simp)
    obtain rfl : n = m := by simpa using hn
    exact hm
  · exact fun h => h.concat rfl

namespace Connection

/-- What the watchdog looks at, and what it does. -/
structure WatchedAs (c c' : Connection) : Prop where
  missedPongs : c'.missedPongs = c.missedPongs
  waits : c'.waits = c.waits
  sent : c'.sent = c.sent

theorem waitForMessages_watched (c : Connection) :
    c.WatchedAs c.waitForMessages ∧ c.waitForMessages.receivedPong = c.receivedPong := by
  rw [waitForMessages]
  split
  · exact ⟨⟨rfl, rfl, rfl⟩, rfl⟩
  · exact ⟨⟨rfl, rfl, rfl⟩, rfl⟩

theorem handleDisconnect_watched (c : Connection) :
    c.WatchedAs c.handleDisconnect.1 ∧ c.handleDisconnect.1.receivedPong = c.receivedPong := by
  rw [handleDisconnect]
  split
  · exact ⟨⟨rfl, rfl, rfl⟩, rfl⟩
  · exact ⟨⟨rfl, rfl, rfl⟩, rfl⟩

theorem onReadSocket_watched (c : Connection) (result : ReadResult) :
    c.WatchedAs (c.onReadSocket result).1 ∧ (c.onReadSocket result).1.receivedPong =
      (c.receivedPong || (ConnectionEvent.read result).isPong) := by
  have hself : c.WatchedAs c := ⟨rfl, rfl, rfl⟩
  have hwait : ∀ {c' : Connection} {pong : Bool}, c.WatchedAs c' → c'.receivedPong = pong →
      c.WatchedAs c'.waitForMessages ∧ c'.waitForMessages.receivedPong = pong := by
    intro c' pong h hpong
    obtain ⟨h', hpong'⟩ := waitForMessages_watched c'
    exact ⟨⟨h'.missedPongs.trans h.missedPongs, h'.waits.trans h.waits, h'.sent.trans h.sent⟩,
      hpong'.trans hpong⟩
  cases result with
  | empty => simp [onReadSocket, ConnectionEvent.isPong, hself]
  | failed error =>
      rw [show (ConnectionEvent.read (.failed error)).isPong = false from rfl, Bool.or_false]
      cases error with
      | unknown => exact ⟨hself, rfl⟩
      | _ => exact handleDisconnect_watched c
  | message m =>
      simp only [onReadSocket, handleClientReady, ConnectionEvent.isPong]
      split
      · next htype =>
          split
          · exact hwait ⟨rfl, rfl, rfl⟩ (by simp [htype])
          · exact hwait hself (by simp [htype])
      · next htype =>
          split
          · exact hwait hself (by simp [htype])
          · exact hwait hself (by simp [htype])
      · next htype => exact hwait ⟨rfl, rfl, rfl⟩ (by simp [htype])
      · next hpong =>
          have hnot : (m.type == .pong) = false := by simpa using hpong
          exact hwait hself (by rw [hnot, Bool.or_false])

theorem handleDisconnect_isAlive (c : Connection) : c.handleDisconnect.1.isAlive = false := by
  cases h : c.isAlive with
  | true => rw [handleDisconnect_of_alive h]; rfl
  | false => rw [handleDisconnect_of_dead h]; exact h

theorem onReadSocket_isAlive (c : Connection) (result : ReadResult) :
    (c.onReadSocket result).1.isAlive = (c.isAlive && !c.dropsAtRead result) := by
  have hkeep : ∀ m, c.isAlive = (c.isAlive && !c.dropsAtRead (.message m)) := by
    intro m
    simp [dropsAtRead, ReadResult.closes]
  cases result with
  | empty => simp [onReadSocket, dropsAtRead, ReadResult.closes]
  | failed error =>
      cases error with
      | unknown => simp [onReadSocket, dropsAtRead, ReadResult.closes]
      | _ =>
          rw [onReadSocket, handleDisconnect_isAlive]
          simp [dropsAtRead, ReadResult.closes]
  | message m =>
      rw [← hkeep m]
      have h := onReadSocket_outcome c (.message m)
      generalize hout : c.onReadSocket (.message m) = out at h
      cases h with
      | silent hi _ => exact hi.isAlive
      | readied hi _ _ => exact hi.isAlive
      | tookTurn hi _ _ _ => exact hi.isAlive

end Connection

namespace Session

theorem after_concat (es : List ConnectionEvent) (e : ConnectionEvent) :
    after (es ++ [e]) = (after es).handle e := by
  rw [after, List.foldl_append]
  rfl

def pinged (c : Connection) (missed : UInt8) : Connection :=
  { c with
    receivedPong := false
    missedPongs := missed
    waits := c.waits - 1 + 1
    sent := c.sent ++ [.ping] }

/-- The three ways of a tick on a live connection. -/
theorem handle_tick {s : Session} (h : s.conn.isAlive = true) :
    (s.conn.receivedPong = true ∧ s.handle .tick = ⟨pinged s.conn 0, s.signals⟩) ∨
    (s.conn.receivedPong = false ∧ s.conn.missedPongs + 1 ≤ 3 ∧
      s.handle .tick = ⟨pinged s.conn (s.conn.missedPongs + 1), s.signals⟩) ∨
    (s.conn.receivedPong = false ∧ 3 < s.conn.missedPongs + 1 ∧
      s.handle .tick = ⟨{ s.conn with
        clientIsConnected := false
        missedPongs := s.conn.missedPongs + 1
        waits := s.conn.waits - 1 }, s.signals ++ [.disconnected]⟩) := by
  obtain ⟨c, signals⟩ := s
  simp only [Connection.isAlive] at h
  simp only [handle, emit, Connection.pingOnTimer, Bool.false_eq_true, if_false, h, if_true]
  cases hpong : c.receivedPong with
  | true =>
      left
      simp [Connection.sendPing, Connection.sendMessage, Connection.startTimer, pinged, h]
  | false =>
      right
      by_cases hmissed : c.missedPongs + 1 > 3
      · right
        simp [hmissed, Connection.handleDisconnect]
      · left
        have hle : c.missedPongs + 1 ≤ 3 := UInt8.not_lt.mp hmissed
        simp [hmissed, hle, Connection.sendPing, Connection.sendMessage, Connection.startTimer,
          pinged, h]

theorem handle_tick_dead {s : Session} (h : s.conn.isAlive = false) :
    s.handle .tick = ⟨{ s.conn with waits := s.conn.waits - 1 }, s.signals⟩ := by
  obtain ⟨c, signals⟩ := s
  simp only [Connection.isAlive] at h
  simp [handle, emit, Connection.pingOnTimer, h]

theorem handle_read (s : Session) (result : ReadResult) :
    (s.handle (.read result)).conn.isAlive = (s.conn.isAlive && !s.conn.dropsAtRead result) ∧
    (s.handle (.read result)).signals.count .disconnected =
      s.signals.count .disconnected + if s.conn.dropsAtRead result then 1 else 0 := by
  refine ⟨Connection.onReadSocket_isAlive _ result, ?_⟩
  have hsignal := Connection.onReadSocket_signal
    { s.conn with reads := s.conn.reads - 1 } result
  rw [handle, emit, List.count_append]
  congr 1
  change _ ↔ s.conn.dropsAtRead result = true at hsignal
  split
  · next hdrops =>
      rw [hsignal.mpr hdrops]
      rfl
  · next hdrops =>
      rw [List.count_eq_zero]
      intro hin
      exact hdrops (hsignal.mp (Option.mem_toList.mp hin))

/-! ## The invariant -/

/-- What the flag, the counter and the timer are worth after some events. -/
structure Watches (es : List ConnectionEvent) (s : Session) : Prop where
  counted : s.conn.isAlive = true → s.conn.receivedPong = false →
    ∀ n, Silent n es ↔ n ≤ s.conn.missedPongs.toNat
  noticed : s.conn.isAlive = true → s.conn.receivedPong = true → ∀ n, ¬ Silent n es
  missed : s.conn.isAlive = true → s.conn.missedPongs.toNat ≤ 3
  sent : s.conn.isAlive = true → s.conn.sent = List.replicate (es.count .tick + 1) .ping
  waits : s.conn.isAlive = true → s.conn.waits = 1
  once : s.signals.count .disconnected = if s.conn.isAlive then 0 else 1

theorem accepted_watches : Watches [] accepted := by
  refine ⟨fun _ _ n => ?_, fun _ h => (by cases h), fun _ => Nat.zero_le 3, fun _ => rfl,
    fun _ => rfl, rfl⟩
  rw [silent_nil]
  exact Nat.le_zero.symm

namespace Watches

variable {es : List ConnectionEvent} {s : Session}

/-- Nothing is asked of a dropped connection but that it was dropped once. -/
theorem of_dead (hdead : s.conn.isAlive = false) (h : s.signals.count .disconnected = 1) :
    Watches es s := by
  have hnot : ∀ {p : Prop}, s.conn.isAlive = true → p := fun h =>
    absurd (h.symm.trans hdead) (by decide)
  exact ⟨fun h => hnot h, fun h => hnot h, fun h => hnot h, fun h => hnot h, fun h => hnot h,
    by rw [h, hdead]; rfl⟩

theorem read (h : Watches es s) (result : ReadResult) :
    Watches (es ++ [.read result]) (s.handle (.read result)) := by
  obtain ⟨halive', hcount⟩ := handle_read s result
  obtain ⟨hsame, hpong⟩ := Connection.onReadSocket_watched
    { s.conn with reads := s.conn.reads - 1 } result
  have hold : (s.handle (.read result)).conn.isAlive = true → s.conn.isAlive = true := by
    rw [halive', Bool.and_eq_true]
    exact And.left
  change (s.handle (.read result)).conn.receivedPong = (s.conn.receivedPong || _) at hpong
  refine ⟨fun halive hno n => ?_, fun halive hyes n => ?_, fun halive => ?_, fun halive => ?_,
    fun halive => ?_, ?_⟩
  · rw [hpong, Bool.or_eq_false_iff] at hno
    rw [silent_read hno.2, h.counted (hold halive) hno.1]
    exact hsame.missedPongs ▸ Iff.rfl
  · rw [hpong, Bool.or_eq_true] at hyes
    rcases hyes with hyes | hyes
    · intro hsilent
      cases hp : (ConnectionEvent.read result).isPong with
      | true => exact not_silent_pong hp hsilent
      | false => exact h.noticed (hold halive) hyes n ((silent_read hp).mp hsilent)
    · exact not_silent_pong hyes
  · rw [show (s.handle (.read result)).conn.missedPongs = _ from hsame.missedPongs]
    exact h.missed (hold halive)
  · rw [show (s.handle (.read result)).conn.sent = _ from hsame.sent, List.count_append]
    exact h.sent (hold halive)
  · rw [show (s.handle (.read result)).conn.waits = _ from hsame.waits]
    exact h.waits (hold halive)
  · rw [hcount, h.once, halive', Connection.dropsAtRead]
    cases s.conn.isAlive <;> cases result.closes <;> rfl

theorem tick (h : Watches es s) : Watches (es ++ [.tick]) (s.handle .tick) := by
  have hcount : (es ++ [ConnectionEvent.tick]).count .tick = es.count .tick + 1 := by simp
  cases halive : s.conn.isAlive with
  | false =>
      have honce := h.once
      rw [halive] at honce
      rw [handle_tick_dead halive]
      exact of_dead halive honce
  | true =>
      have hpinged : ∀ missed : UInt8, missed.toNat ≤ 3 →
          (∀ n, Silent n (es ++ [.tick]) ↔ n ≤ missed.toNat) →
          Watches (es ++ [.tick]) ⟨pinged s.conn missed, s.signals⟩ := by
        intro missed hle hsilent
        refine ⟨fun _ _ => hsilent, fun _ h => (by cases h), fun _ => hle, fun _ => ?_,
          fun _ => ?_, h.once⟩
        · rw [pinged, h.sent halive, hcount, List.replicate_succ' (n := es.count .tick + 1)]
        · rw [pinged, h.waits halive]
      have hmissed := h.missed halive
      rcases handle_tick halive with ⟨hpong, heq⟩ | ⟨hpong, hle, heq⟩ | ⟨_, _, heq⟩ <;> rw [heq]
      · refine hpinged 0 (Nat.zero_le 3) fun n => ?_
        cases n with
        | zero => exact iff_of_true (silent_zero_tick es) (Nat.le_refl 0)
        | succ n =>
            rw [silent_tick]
            exact iff_of_false (h.noticed halive hpong n) (Nat.not_succ_le_zero n)
      · have hnext : (s.conn.missedPongs + 1).toNat = s.conn.missedPongs.toNat + 1 := by
          rw [UInt8.toNat_add]
          exact Nat.mod_eq_of_lt (show s.conn.missedPongs.toNat + 1 < 256 by omega)
        refine hpinged _ (UInt8.le_iff_toNat_le.mp hle) fun n => ?_
        rw [hnext]
        cases n with
        | zero => exact iff_of_true (silent_zero_tick es) (Nat.zero_le _)
        | succ n =>
            rw [silent_tick, h.counted halive hpong]
            omega
      · refine of_dead rfl ?_
        rw [List.count_append, h.once, halive]
        rfl

end Watches

theorem watches (es : List ConnectionEvent) : Watches es (after es) := by
  induction es using List.reverseRecOn with
  | nil => exact accepted_watches
  | append_singleton es e ih =>
      rw [after_concat]
      cases e with
      | read result => exact ih.read result
      | tick => exact ih.tick

/-! ## The watchdog -/

/-- Everything the ping timer does, after any events. -/
structure Watchdog (es : List ConnectionEvent) : Prop where
  drops : (after es).conn.isAlive = true →
    ((after (es ++ [.tick])).conn.isAlive = false ↔ Silent 3 es)
  survives : (after es).conn.isAlive = true → (after (es ++ [.tick])).conn.isAlive = true →
    (after (es ++ [.tick])).conn.sent = (after es).conn.sent ++ [.ping] ∧
      (after (es ++ [.tick])).conn.waits = (after es).conn.waits
  last : (after es).conn.isAlive = true → (after (es ++ [.tick])).conn.isAlive = false →
    (after (es ++ [.tick])).conn.sent = (after es).conn.sent ∧
      (after (es ++ [.tick])).conn.waits = 0
  armed : (after es).conn.isAlive = true → (after es).conn.waits = 1 ∧
    (after es).conn.sent = List.replicate (es.count .tick + 1) .ping
  dead : (after es).conn.isAlive = false → ∀ e, (after (es ++ [e])).conn.isAlive = false ∧
    (after (es ++ [e])).conn.sent = (after es).conn.sent ∧
      (after (es ++ [e])).conn.waits ≤ (after es).conn.waits
  once : (after es).signals.count .disconnected ≤ 1

/-- A silent client is dropped by the fourth tick in a row that hears nothing of it, a
client that answers never is, and whatever ends the connection ends it once. -/
theorem watchdog (es : List ConnectionEvent) : Watchdog es := by
  have h := watches es
  have hsilent : (after es).conn.isAlive = true → (after es).conn.receivedPong = false →
      (3 < (after es).conn.missedPongs + 1 ↔ Silent 3 es) := by
    intro halive hpong
    have hmissed := h.missed halive
    rw [h.counted halive hpong, UInt8.lt_iff_toNat_lt, UInt8.toNat_add]
    show 3 < ((after es).conn.missedPongs.toNat + 1) % 256 ↔ _
    omega
  refine ⟨fun halive => ?_, fun halive hnext => ?_, fun halive hnext => ?_,
    fun halive => ⟨h.waits halive, h.sent halive⟩, fun hdead e => ?_, ?_⟩
  · rw [after_concat]
    rcases handle_tick halive with ⟨hpong, heq⟩ | ⟨hpong, hle, heq⟩ | ⟨hpong, hlt, heq⟩ <;> rw [heq]
    · exact iff_of_false (by rw [show (pinged (after es).conn 0).isAlive = _ from halive]; simp)
        (h.noticed halive hpong 3)
    · rw [← hsilent halive hpong]
      exact iff_of_false
        (by rw [show (pinged (after es).conn _).isAlive = _ from halive]; simp)
        (UInt8.not_lt.mpr hle)
    · exact iff_of_true rfl ((hsilent halive hpong).mp hlt)
  · rw [after_concat] at hnext ⊢
    have hwaits := h.waits halive
    rcases handle_tick halive with ⟨_, heq⟩ | ⟨_, _, heq⟩ | ⟨_, _, heq⟩ <;> rw [heq] at hnext ⊢
    · exact ⟨rfl, by rw [pinged, hwaits]⟩
    · exact ⟨rfl, by rw [pinged, hwaits]⟩
    · cases hnext
  · rw [after_concat] at hnext ⊢
    have hwaits := h.waits halive
    rcases handle_tick halive with ⟨_, heq⟩ | ⟨_, _, heq⟩ | ⟨_, _, heq⟩ <;> rw [heq] at hnext ⊢
    · exact absurd (hnext.symm.trans halive) (by decide)
    · exact absurd (hnext.symm.trans halive) (by decide)
    · exact ⟨rfl, by rw [hwaits]⟩
  · rw [after_concat]
    cases e with
    | tick =>
        rw [handle_tick_dead hdead]
        exact ⟨hdead, rfl, Nat.sub_le _ _⟩
    | read result =>
        obtain ⟨hsame, _⟩ := Connection.onReadSocket_watched
          { (after es).conn with reads := (after es).conn.reads - 1 } result
        refine ⟨?_, hsame.sent, Nat.le_of_eq hsame.waits⟩
        rw [(handle_read _ result).1, hdead]
        rfl
  · rw [h.once]
    split <;> omega

end Session

end ConnectDisks.Net
