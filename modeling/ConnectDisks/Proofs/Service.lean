import ConnectDisks.Net.Service
import ConnectDisks.Proofs.Dialogue

/-!
# Clients of this server are safe with it

The server keeps to the order of its messages with everybody (`Dialogue`), whatever
lobby they come to: what a connection was sent on the server is what the lone room of
its lobby sends it. So a client that has read some of it is at a stage of that order and
knows what belongs to the stage (`Known`), and there its handler of the next message
neither follows the null game pointer nor throws, and makes only calls that are meant.
-/

namespace ConnectDisks.Net

open ConnectDisks.Game Lib

namespace Server

theorem reachable_solo {s : Server} (h : Reachable step new s) (l : LobbyId) :
    ∃ r, Reachable Room.step (Room.started FourAcross.minNumPlayers) r ∧ Solo l s r :=
  h.projects (fun _ _ _ _ => Solo.step) (new_solo l)

theorem Rooms.mem_lobbyAt {s : Server} (h : s.Rooms) {l : LobbyId} {c : ConnId} :
    c ∈ (s.lobbyAt l).handlers ↔ (s.conns c).handlers = [l] := by
  have hseats := (h.roomAt l).seats
  have haddr : (s.roomAt l).lobby.address = l := h.lobbyAt_address l
  constructor
  · intro hc
    obtain ⟨_, hhandlers, _⟩ := hseats.member c hc
    exact haddr ▸ hhandlers
  · intro hc
    refine hseats.attached c ?_
    rw [haddr, show (s.roomAt l).conns = s.conns from rfl, hc]
    exact List.mem_singleton_self l

theorem Solo.handlers {l : LobbyId} {s : Server} {r : Room} (h : Solo l s r) :
    r.lobby.handlers = (s.lobbyAt l).handlers := by
  rw [h.mirrors.lobby]
  rfl

theorem step_attached {s s' : Server} {e : ServerEvent} (h : Reachable step new s)
    (hs : s.step e = some s') {l : LobbyId} {c : ConnId} (hc : (s.conns c).handlers = [l]) :
    (s'.conns c).handlers = [l] := by
  obtain ⟨r, hr, hsolo⟩ := reachable_solo h l
  obtain ⟨r', hrun, hsolo'⟩ := hsolo.step hs
  have hgrows := (Room.run_grows (by decide) hr hrun).2
  rw [hsolo.handlers, hsolo'.handlers] at hgrows
  exact hsolo'.inv.rooms.mem_lobbyAt.mp (hgrows (hsolo.inv.rooms.mem_lobbyAt.mpr hc))

/-- A connection is attached to nothing, or to one lobby. -/
theorem Rooms.attached_cases {s : Server} (h : s.Rooms) (c : ConnId) :
    ∃ l, (s.conns c).handlers = [] ∨ (s.conns c).handlers = [l] := by
  rcases h.attached c with hnil | ⟨l, _, hl, hc⟩
  · exact ⟨0, .inl hnil⟩
  · exact ⟨l, .inr (h.handlers_eq hl hc)⟩

theorem step_sent {s s' : Server} {e : ServerEvent} (h : Reachable step new s)
    (hs : s.step e = some s') (c : ConnId) : (s.conns c).sent <+: (s'.conns c).sent := by
  obtain ⟨l, hafter⟩ := (reachable_inv (.step h trivial hs)).rooms.attached_cases c
  have hbefore : (s.conns c).handlers = [] ∨ (s.conns c).handlers = [l] := by
    obtain ⟨l', hnil | hl'⟩ := (reachable_inv h).rooms.attached_cases c
    · exact .inl hnil
    · have hkept := step_attached h hs hl'
      rcases hafter with hnil | hl
      · cases hkept.symm.trans hnil
      · exact .inr (hl'.trans (hkept.symm.trans hl))
  obtain ⟨r, hr, hsolo⟩ := reachable_solo h l
  obtain ⟨r', hrun, hsolo'⟩ := hsolo.step hs
  have hgrows := (Room.run_grows (by decide) hr hrun).1 c
  rw [hsolo.conns hbefore, hsolo'.conns hafter] at hgrows
  exact hgrows

/-- The stage of a connection is that of its lone room. -/
theorem Solo.stage {l : LobbyId} {s : Server} {r : Room} (h : Solo l s r) {c : ConnId}
    (hc : (s.conns c).handlers = [] ∨ (s.conns c).handlers = [l]) :
    r.stage c = s.stage c := by
  have hmem : c ∈ r.lobby.handlers ↔ (s.conns c).handlers = [l] := by
    rw [h.handlers, h.inv.rooms.mem_lobbyAt]
  rw [Room.stage, Server.stage, h.conns hc]
  rcases hc with hc | hc
  · rw [if_neg (by rw [hmem, hc]; simp), hc]
  · rw [if_pos (hmem.mpr hc), hc, h.mirrors.lobby]
    rfl

/-- Each connection was sent a word of the order of messages, and the client that has read
it all is at the stage its lobby is in, as long as the connection is alive. -/
theorem reachable_word {s : Server} (h : Reachable step new s) (c : ConnId) :
    ∃ st, run (Stage.next FourAcross.minNumPlayers) .waiting (s.conns c).sent = some st ∧
      ((s.conns c).isAlive = true → st = s.stage c) := by
  obtain ⟨l, hc⟩ := (reachable_inv h).rooms.attached_cases c
  obtain ⟨r, hr, hsolo⟩ := reachable_solo h l
  obtain ⟨st, hword, hst⟩ := (Room.reachable_dialogue (by decide) hr).word c
  rw [Room.reachable_maxPlayers hr] at hword
  rw [hsolo.conns hc] at hword hst
  exact ⟨st, hword, fun halive => (hst halive).trans (hsolo.stage hc)⟩

theorem run_sent {s s' : Server} {es : List ServerEvent} (h : Reachable step new s)
    (hrun : run step s es = some s') (c : ConnId) :
    (s.conns c).sent <+: (s'.conns c).sent := by
  induction es generalizing s with
  | nil =>
      injection hrun with hrun
      exact hrun ▸ List.prefix_refl _
  | cons e es ih =>
      obtain ⟨mid, hmid, hrest⟩ := Option.bind_eq_some_iff.mp hrun
      exact (step_sent h hmid c).trans (ih (.step h trivial hmid) hrest)

/-- From any moment of any run of the server to any later one: what a connection was sent
up to the first, and what it was sent from there to the second, are words of the order of
messages that follow one another, and lead to the stages its lobby was in at the two
moments, as long as the connection was alive. -/
theorem keeps_order {s s' : Server} {es : List ServerEvent} (h : Reachable step new s)
    (hrun : run step s es = some s') (c : ConnId) :
    ∃ said st st', (s'.conns c).sent = (s.conns c).sent ++ said ∧
      run (Stage.next FourAcross.minNumPlayers) .waiting (s.conns c).sent = some st ∧
      run (Stage.next FourAcross.minNumPlayers) st said = some st' ∧
      ((s.conns c).isAlive = true → st = s.stage c) ∧
      ((s'.conns c).isAlive = true → st' = s'.stage c) := by
  obtain ⟨said, hsaid⟩ := run_sent h hrun c
  obtain ⟨st, hword, hst⟩ := reachable_word h c
  obtain ⟨st', hword', hst'⟩ := reachable_word (h.extend hrun) c
  rw [← hsaid, run_append, hword] at hword'
  exact ⟨said, st, st', hsaid.symm, hword, hword', hst, hst'⟩

/-- Two players arrive and say they are ready, -/
def bothReady : List ServerEvent :=
  [.accept false, .accept false, .read 0 (.message (.ready 1)) 1,
    .read 1 (.message (.ready 2)) 1]

/-- and the first one moves. -/
def firstMove : List ServerEvent := [.read 0 (.message (.takeTurn 1 3)) 1]

theorem keeps_order_firstTurn : ∃ s s' said, run step new bothReady = some s ∧
    run step s firstMove = some s' ∧ (s'.conns 1).sent = (s.conns 1).sent ++ said ∧
    run (Stage.next FourAcross.minNumPlayers) (.playing 2) said = some (.playing 2) := by
  have hrun : (run step new bothReady).any (fun s => (run step s firstMove).any fun s' =>
      decide ((s.conns 1).isAlive = true ∧ s.stage 1 = .playing 2 ∧
        (s'.conns 1).isAlive = true ∧ s'.stage 1 = .playing 2)) = true := by
    decide +kernel
  obtain ⟨s, hs, hn⟩ := (Option.any_eq_true ..).mp hrun
  obtain ⟨s', hs', hn'⟩ := (Option.any_eq_true ..).mp hn
  obtain ⟨halive, hstage, halive', hstage'⟩ := of_decide_eq_true hn'
  obtain ⟨said, st, st', hsaid, _, hword, hst, hst'⟩ := keeps_order (.of_run hs) hs' 1
  rw [hst halive, hst' halive', hstage, hstage'] at hword
  exact ⟨s, s', said, hs, hs', hsaid, hword⟩

end Server

/-! ## What a client does with such a word -/

namespace Stage

variable {maxPlayers : UInt8} {cl : Client} {m : Message} {st st' : Stage}

/-- The message is handled, with calls that are meant, and the client knows the stage
it has come to. -/
def Handled (maxPlayers : UInt8) (cl : Client) (m : Message) (st' : Stage) : Prop :=
  ∃ cl' calls, cl.handleRead m = .ok (cl', calls) ∧ st'.Known maxPlayers cl' ∧
    ∀ call ∈ calls, call.Meant maxPlayers cl

theorem handled_ping (hm : m.type = .ping) (h : st.Known maxPlayers cl) :
    Handled maxPlayers cl m st := by
  refine ⟨cl, [.sendMessage .pong], ?_, h, ?_⟩
  · rw [Client.handleRead, hm]
    rfl
  · simp [Call.Meant]

theorem Known.waiting_step (h : Stage.waiting.Known maxPlayers cl)
    (hm : Stage.waiting.next maxPlayers m = some st') : Handled maxPlayers cl m st' := by
  have ⟨_, hconn, _⟩ := h
  simp only [next] at hm
  split at hm
  · next htype =>
      cases hm
      exact handled_ping htype h
  · next htype =>
      cases hm
      refine ⟨cl, [.onQueueUpdate (Client.queuePosition m)], ?_, h, ?_⟩
      · rw [Client.handleRead, htype]
      · simpa [Call.Meant] using hconn
  · next htype =>
      obtain ⟨hplayer, heq⟩ := Option.ite_none_right_eq_some.mp hm
      cases heq
      refine ⟨{ cl.setPlayerId (m.get 0) with isConnected := true }, [.onConnect (m.get 0)],
        ?_, ⟨rfl, rfl, hplayer⟩, ?_⟩
      · rw [Client.handleRead, htype]
      · simpa [Call.Meant] using ⟨hconn, hplayer⟩
  · cases hm

theorem Known.seated_step (htwo : 2 ≤ maxPlayers.toNat) {id : UInt8}
    (h : (Stage.seated id).Known maxPlayers cl)
    (hm : (Stage.seated id).next maxPlayers m = some st') : Handled maxPlayers cl m st' := by
  have ⟨hid, hconn, hplayer⟩ := h
  simp only [next] at hm
  split at hm
  · next htype =>
      cases hm
      exact handled_ping htype h
  · next htype =>
      obtain ⟨⟨hn, hcols, hrows, hfirst⟩, heq⟩ := Option.ite_none_right_eq_some.mp hm
      cases heq
      refine ⟨{ cl with game := some (.standard maxPlayers (m.get 3)) },
        [.onGameStart maxPlayers (m.get 3) Board.minColumns Board.minRows], ?_,
        ⟨hid, hconn, hplayer, _, rfl, ValidGame.standard_numPlayers htwo _, rfl, rfl⟩, ?_⟩
      · rw [Client.handleRead, htype]
        simp only [hn, hcols, hrows, Client.startGame, ValidGame.new_standard]
      · simpa [Call.Meant] using ⟨hconn, hfirst⟩
  · next htype =>
      obtain ⟨herr, heq⟩ := Option.ite_none_right_eq_some.mp hm
      cases heq
      refine ⟨cl, [], ?_, h, by simp⟩
      rw [Client.handleRead, htype]
      simp only [herr, Client.checkTurnResult, turnResultByte_inj, reduceCtorEq, if_false,
        if_true]
  · cases hm

theorem Known.turned {id player column : UInt8} {game : ValidGame}
    (h : (Stage.playing id).Known maxPlayers cl) (hgame : cl.game = some game) :
    (Stage.playing id).Known maxPlayers
      { cl with game := some (game.takeTurn player column).1 } := by
  obtain ⟨hid, hconn, hplayer, g, hg, hn, hcols, hrows⟩ := h
  obtain rfl := Option.some.inj (hg.symm.trans hgame)
  have hturn : g.takeTurn player column =
      ((g.takeTurn player column).1, (g.takeTurn player column).2) := rfl
  obtain ⟨hcols', hrows'⟩ := Room.takeTurn_regular hturn
  exact ⟨hid, hconn, hplayer, _, rfl, (g.takeTurn_numPlayers player column).trans hn,
    hcols'.trans hcols, hrows'.trans hrows⟩

theorem handled_turnResult {id : UInt8} (h : (Stage.playing id).Known maxPlayers cl)
    (hm : m.type = .turnResult) (hanswer : IsAnswer (m.get 0))
    (hcolumn : m.get 0 = turnResultByte .success → IsColumn (m.get 1)) :
    Handled maxPlayers cl m (.playing id) := by
  obtain ⟨game, hgame⟩ : ∃ game, cl.game = some game := h.2.2.2.imp fun _ hg => hg.1
  have hsome : cl.game ≠ none := by simp [hgame]
  have hread : cl.handleRead m = cl.checkTurnResult (m.get 0) (m.get 1) := by
    rw [Client.handleRead, hm]
  have hmeant : (Call.onTurnResult (m.get 0) (m.get 1)).Meant maxPlayers cl :=
    ⟨hsome, hanswer, hcolumn⟩
  rw [Client.checkTurnResult] at hread
  by_cases hsucc : m.get 0 = turnResultByte .success
  · rw [if_pos hsucc, hgame] at hread
    exact ⟨_, _, hread, h.turned hgame, by simpa using hmeant⟩
  · have herr : m.get 0 ≠ turnResultByte .error := fun heq =>
      absurd (heq ▸ hanswer.1) (by decide)
    rw [if_neg hsucc, if_neg herr] at hread
    refine ⟨_, _, hread, h, ?_⟩
    simpa [Call.Meant] using ⟨hmeant, hsome⟩

theorem Known.playing_step {id : UInt8} (h : (Stage.playing id).Known maxPlayers cl)
    (hm : (Stage.playing id).next maxPlayers m = some st') : Handled maxPlayers cl m st' := by
  have ⟨hid, hconn, hplayer, game, hgame, _⟩ := h
  have hsome : cl.game ≠ none := by simp [hgame]
  simp only [next] at hm
  split at hm
  · next htype =>
      cases hm
      exact handled_ping htype h
  · next htype =>
      obtain ⟨⟨hself, hrequest⟩, heq⟩ := Option.ite_none_right_eq_some.mp hm
      cases heq
      refine ⟨cl, [.handleTurnRequest], ?_, h, ?_⟩
      · rw [Client.handleRead, htype]
        exact if_pos ⟨hself.trans hid.symm, hrequest⟩
      · simpa [Call.Meant] using hsome
  · next htype =>
      obtain ⟨⟨hanswer, hcolumn⟩, heq⟩ := Option.ite_none_right_eq_some.mp hm
      cases heq
      exact handled_turnResult h htype hanswer hcolumn
  · next htype =>
      obtain ⟨⟨hother, hne, hcolumn⟩, heq⟩ := Option.ite_none_right_eq_some.mp hm
      cases heq
      refine ⟨{ cl with game := some (game.takeTurn (m.get 0) (m.get 1)).1 },
        [.onGameUpdate (m.get 0) (m.get 1)], ?_, h.turned hgame, ?_⟩
      · rw [Client.handleRead, htype]
        simp only [Client.takeOpponentTurn, hgame]
      · simpa [Call.Meant] using ⟨hsome, hid ▸ hne, hother, hcolumn⟩
  · next htype =>
      obtain ⟨hwinner, heq⟩ := Option.ite_none_right_eq_some.mp hm
      cases heq
      refine ⟨cl, [.onGameEnd (m.get 0)], ?_, ⟨hid, hconn, hplayer⟩, ?_⟩
      · rw [Client.handleRead, htype]
        rfl
      · simpa [Call.Meant] using ⟨hsome, hwinner⟩
  · cases hm

theorem Known.step (htwo : 2 ≤ maxPlayers.toNat) (h : st.Known maxPlayers cl)
    (hm : st.next maxPlayers m = some st') : Handled maxPlayers cl m st' := by
  cases st with
  | waiting => exact h.waiting_step hm
  | seated id => exact h.seated_step htwo hm
  | playing id => exact h.playing_step hm

/-- A client that has read a word of the order knows the stage it leads to. -/
theorem Known.run (htwo : 2 ≤ maxPlayers.toNat) {ms : List Message} {cl' : Client}
    (h : st.Known maxPlayers cl) (hword : Lib.run (next maxPlayers) st ms = some st')
    (hread : Lib.run Client.receive cl ms = some cl') : st'.Known maxPlayers cl' := by
  induction ms generalizing st cl with
  | nil =>
      injection hword with hword
      injection hread with hread
      exact hword ▸ hread ▸ h
  | cons m ms ih =>
      obtain ⟨mid, hmid, hrest⟩ := Option.bind_eq_some_iff.mp hword
      obtain ⟨cl₁, hcl₁, hrest'⟩ := Option.bind_eq_some_iff.mp hread
      obtain ⟨cl₂, calls, hok, hknown, _⟩ := h.step htwo hmid
      rw [Client.receive, hok] at hcl₁
      obtain rfl := Option.some.inj hcl₁
      exact ih hknown hrest hrest'

end Stage

namespace Service

theorem new_known (maxPlayers : UInt8) : Stage.waiting.Known maxPlayers Client.new :=
  ⟨rfl, rfl, rfl⟩

/-- Where every client is, in every state that is reached. -/
theorem reachable_known {n : Service} (h : Reachable step started n) (c : ConnId) :
    ∃ st last, st.Known FourAcross.minNumPlayers (n.receiver c) ∧
      Lib.run (Stage.next FourAcross.minNumPlayers) st (n.inFlight sent c) = some last ∧
      ((n.sender.conns c).isAlive = true → last = n.sender.stage c) := by
  have hwhen : Reaches step (Net.When fun _ _ => True) started n :=
    h.mono fun _ e _ => by cases e <;> trivial
  have hreplayed := Net.replayed (fun s e s' hs _ hstep c => Server.step_sent hs hstep c) hwhen
  obtain ⟨last, hword, hlast⟩ := Server.reachable_word hreplayed.sender c
  have hsplit : sent n.sender c = n.arrived sent c ++ n.inFlight sent c :=
    (List.take_append_drop ..).symm
  rw [show (n.sender.conns c).sent = sent n.sender c from rfl, hsplit, run_append] at hword
  obtain ⟨st, harrived, hrest⟩ := Option.bind_eq_some_iff.mp hword
  exact ⟨st, last, (new_known _).run (by decide) harrived (hreplayed.receiver c), hrest, hlast⟩

/-- Whatever the clients send and however deliveries are interleaved with the server's
events: the next message of every client is handled without a fault and with calls that
are meant, and a client whose connection lives and which has read everything knows where
it is. -/
theorem clients_safe {es : List (NetEvent ServerEvent ConnId)} {n : Service}
    (hrun : Lib.run step started es = some n) (c : ConnId) :
    (∀ m, (n.inFlight sent c).head? = some m →
      ∃ cl calls, (n.receiver c).handleRead m = .ok (cl, calls) ∧
        ∀ call ∈ calls, call.Meant FourAcross.minNumPlayers (n.receiver c)) ∧
    ((n.sender.conns c).isAlive = true → n.inFlight sent c = [] →
      (n.sender.stage c).Known FourAcross.minNumPlayers (n.receiver c)) := by
  obtain ⟨st, last, hknown, hword, hlast⟩ := reachable_known (.of_run hrun) c
  refine ⟨fun m hm => ?_, fun halive hnone => ?_⟩
  · obtain ⟨ms, hms⟩ := List.head?_eq_some_iff.mp hm
    rw [hms] at hword
    obtain ⟨st', hst', _⟩ := Option.bind_eq_some_iff.mp hword
    obtain ⟨cl, calls, hok, _, hmeant⟩ := hknown.step (by decide) hst'
    exact ⟨cl, calls, hok, hmeant⟩
  · rw [hnone] at hword
    rw [← hlast halive, ← Option.some.inj hword]
    exact hknown

/-- The first player has heard everything, the second all but the first turn. -/
def turnUnderWay : List (NetEvent ServerEvent ConnId) :=
  (Server.bothReady ++ Server.firstMove).map .send ++ List.replicate 5 (.deliver 0) ++
    List.replicate 3 (.deliver 1)

theorem clients_safe_underWay : ∃ n, Lib.run step started turnUnderWay = some n ∧
    (n.inFlight sent 1).head? = some (.update 1 3) ∧
    (∃ cl calls, (n.receiver 1).handleRead (.update 1 3) = .ok (cl, calls) ∧
      ∀ call ∈ calls, call.Meant FourAcross.minNumPlayers (n.receiver 1)) ∧
    (Stage.playing 1).Known FourAcross.minNumPlayers (n.receiver 0) := by
  have hrun : (Lib.run step started turnUnderWay).any (fun n =>
      decide ((n.inFlight sent 1).head? = some (.update 1 3) ∧ n.inFlight sent 0 = [] ∧
        (n.sender.conns 0).isAlive = true ∧ n.sender.stage 0 = .playing 1)) = true := by
    decide +kernel
  obtain ⟨n, hn, hfacts⟩ := (Option.any_eq_true ..).mp hrun
  obtain ⟨hnext, hnone, halive, hstage⟩ := of_decide_eq_true hfacts
  exact ⟨n, hn, hnext, (clients_safe hn 1).1 _ hnext,
    hstage ▸ (clients_safe hn 0).2 halive hnone⟩

end Service

end ConnectDisks.Net
