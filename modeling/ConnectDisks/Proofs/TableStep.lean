import ConnectDisks.Lib.Loop
import ConnectDisks.Net.Table
import ConnectDisks.Proofs.Replicas

/-!
# The table as loops

Every player at the table is on a loop with the lobby: `Message.down` and
`Message.up` say which messages are tokens on it and which say hello, done and
ready, and `loop` what a player's loop looks like at a moment.

Two things are settled here once and for all. What the players do are turns of their
loops (`deliver_turns`). And forgetting the users leaves a step of the network of
the lobby and its clients, or nothing (`step_network`), so that what is known
about the streams and the clients' copies holds at the table.
-/

namespace ConnectDisks.Net

open ConnectDisks.Game Lib

/-- The message makes its client ask for a turn: a request, or the answer to a turn
that was refused, but not because there is no game. -/
def Message.AsksForTurn (m : Message) : Prop :=
  m.type = .takeTurn ∨ (m.type = .turnResult ∧ m.get 0 ≠ turnResultByte .success ∧
    m.get 0 ≠ turnResultByte .error)

instance (m : Message) : Decidable m.AsksForTurn := by
  unfold Message.AsksForTurn
  infer_instance

def Message.down (m : Message) : Down :=
  if m.type = .connected then .hello
  else if m.type = .gameEnd then .done
  else if m.AsksForTurn then .token
  else .plain

def Message.up (m : Message) : Up :=
  if m.type = .ready then .ready
  else if m.type = .takeTurn then .token
  else .plain

theorem Message.down_eq_token {m : Message} : m.down = .token ↔ m.AsksForTurn := by
  by_cases h : m.AsksForTurn
  · have htype : m.type ≠ .connected ∧ m.type ≠ .gameEnd := by
      rcases h with h | h <;> simp [h]
    simp [down, h, htype.1, htype.2]
  · simp only [down, h, if_false, iff_false]
    grind

theorem Message.down_eq_hello {m : Message} : m.down = .hello ↔ m.type = .connected := by
  rw [down]
  grind

theorem Message.up_eq_token {m : Message} : m.up = .token ↔ m.type = .takeTurn := by
  rw [up]
  grind

theorem Message.up_eq_ready {m : Message} : m.up = .ready ↔ m.type = .ready := by
  rw [up]
  grind

theorem Message.Housekeeping.down {m : Message} (h : m.Housekeeping) : m.down = .plain := by
  rcases h with h | h <;> simp [Message.down, AsksForTurn, h]

namespace Player

/-- What handling a message does to the user's part of a loop. A request that does
not carry the client's id would be overlooked. -/
theorem receive_handle {p p' : Player} {m : Message} (h : p.receive m = some p')
    (hid : m.type = .takeTurn → m.get 0 = p.client.playerId ∧ m.get 1 = requestTurn)
    (ds : List Down) (us : List Up) :
    (Loop.handle ⟨ds, p.prompts, p.readies, us⟩ m.down).prompts = p'.prompts ∧
      (Loop.handle ⟨ds, p.prompts, p.readies, us⟩ m.down).due = p'.readies ∧
      ∃ replies, p'.outbox = p.outbox ++ replies ∧ ∀ m' ∈ replies, m'.up = .plain := by
  have hnone : ∃ replies, p.outbox = p.outbox ++ replies ∧ ∀ m' ∈ replies, m'.up = .plain :=
    ⟨[], (List.append_nil _).symm, fun _ hm => by cases hm⟩
  have hpong : ∀ m' ∈ [Message.pong], m'.up = .plain := fun m' hm' => by
    rw [List.mem_singleton.mp hm']
    rfl
  rw [receive] at h
  split at h
  case h_2 => cases h
  case h_1 client calls heq =>
    cases h
    rw [Client.handleRead] at heq
    split at heq
    · next htype =>
        cases heq
        rw [Message.down, if_pos htype]
        exact ⟨rfl, rfl, hnone⟩
    · next htype =>
        cases heq
        rw [Message.Housekeeping.down (.inr htype)]
        exact ⟨rfl, rfl, hnone⟩
    · next htype =>
        cases heq
        rw [Message.Housekeeping.down (.inl htype)]
        exact ⟨rfl, rfl, _, rfl, hpong⟩
    · next htype =>
        have hdown : m.down = .plain := by simp [Message.down, Message.AsksForTurn, htype]
        rw [hdown]
        rw [Client.startGame] at heq
        split at heq <;> cases heq
        exact ⟨rfl, rfl, hnone⟩
    · next htype =>
        cases heq
        have hdown : m.down = .done := by simp [Message.down, htype]
        rw [hdown]
        exact ⟨rfl, rfl, hnone⟩
    · next htype =>
        rw [if_pos (hid htype)] at heq
        cases heq
        rw [Message.down_eq_token.mpr (.inl htype)]
        exact ⟨rfl, rfl, hnone⟩
    · next htype =>
        rw [Client.checkTurnResult] at heq
        split at heq
        · next hsucc =>
            have hdown : m.down = .plain := by
              simp [Message.down, Message.AsksForTurn, htype, hsucc]
            rw [hdown]
            split at heq <;> cases heq
            exact ⟨rfl, rfl, hnone⟩
        · next hsucc =>
            split at heq
            · next herr =>
                cases heq
                have hdown : m.down = .plain := by
                  simp [Message.down, Message.AsksForTurn, htype, herr]
                rw [hdown]
                exact ⟨rfl, rfl, hnone⟩
            · next herr =>
                cases heq
                rw [Message.down_eq_token.mpr (.inr ⟨htype, hsucc, herr⟩)]
                exact ⟨rfl, rfl, hnone⟩
    · next htype =>
        have hdown : m.down = .plain := by simp [Message.down, Message.AsksForTurn, htype]
        rw [hdown]
        rw [Client.takeOpponentTurn] at heq
        split at heq <;> cases heq
        exact ⟨rfl, rfl, hnone⟩
    · next hconnected _ _ _ hend hturn hresult _ =>
        cases heq
        have hasks : ¬ m.AsksForTurn := fun h => h.elim hturn fun h => hresult h.1
        rw [Message.down, if_neg hconnected, if_neg hend, if_neg hasks]
        exact ⟨rfl, rfl, hnone⟩

theorem receive_client {p p' : Player} {m : Message} (h : p.receive m = some p') :
    p.client.receive m = some p'.client := by
  have hreact : ∀ (calls : List Call) (p : Player),
      (calls.foldl react p).client = p.client := by
    intro calls
    induction calls with
    | nil => exact fun _ => rfl
    | cons call calls ih =>
        intro p
        rw [List.foldl_cons, ih]
        cases call <;> rfl
  rw [receive] at h
  split at h
  · next client calls heq =>
      cases h
      rw [Client.receive, heq, hreact]
  · cases h

theorem receive_of_client {p : Player} {m : Message} {out : Client × List Call}
    (h : p.client.handleRead m = .ok out) : ∃ p', p.receive m = some p' := by
  rw [receive, h]
  exact ⟨_, rfl⟩

end Player

namespace Table

variable {t t' : Table}

@[simp] theorem modify_room (t : Table) (c : ConnId) (f : Player → Player) :
    (t.modify c f).room = t.room := rfl

@[simp] theorem modify_players_self (t : Table) (c : ConnId) (f : Player → Player) :
    (t.modify c f).players c = f (t.players c) :=
  Function.update_self ..

theorem modify_players_of_ne (t : Table) {c d : ConnId} (h : d ≠ c) (f : Player → Player) :
    (t.modify c f).players d = t.players d :=
  Function.update_of_ne h ..

/-- The table after player `c` handled a message and became `p`. -/
def received (t : Table) (c : ConnId) (p : Player) : Table :=
  { t with delivered := Function.update t.delivered c (t.delivered c + 1) }.modify c
    fun old => if (t.room.conns c).isAlive then p else { p with outbox := old.outbox }

/-! ## The events -/

inductive Moves (t : Table) : TableEvent → Table → Prop
  | room {e : RoomEvent} {r : Room} (silent : e.message? = none)
      (step : t.room.step e = some r) : Moves t (.room e) { t with room := r }
  | receive {c : ConnId} {first : UInt8} {m : Message} {rest : List Message} {r : Room}
      (outbox : (t.players c).outbox = m :: rest)
      (step : t.room.step (.read c (.message m) first none) = some r) :
      Moves t (.receive c first)
        ({ t with room := r }.modify c fun p => { p with outbox := rest })
  | deliver {c : ConnId} {m : Message} {p : Player}
      (next : (Network.sent t.room c)[t.delivered c]? = some m)
      (handled : (t.players c).receive m = some p) : Moves t (.deliver c) (t.received c p)
  | sendTurn {c : ConnId} {column : UInt8} (alive : (t.room.conns c).isAlive = true)
      (prompted : 0 < (t.players c).prompts) (column_ : column ≠ 255) :
      Moves t (.sendTurn c column) (t.modify c fun p => { p with
        prompts := p.prompts - 1
        outbox := p.outbox ++ [p.client.sendTurn column] })
  | toggleReady {c : ConnId} (alive : (t.room.conns c).isAlive = true)
      (due : 0 < (t.players c).readies) :
      Moves t (.toggleReady c) (t.modify c fun p => { p with
        readies := p.readies - 1
        outbox := p.outbox ++ [p.client.toggleReady] })

theorem readsMessage_eq_false {e : RoomEvent} (h : ¬ readsMessage e = true) :
    e.message? = none := by
  cases e with
  | read c result first refill => cases result <;> first | rfl | exact absurd rfl h
  | _ => rfl

theorem step_moves {e : TableEvent} (hs : t.step e = some t') : t.Moves e t' := by
  cases e with
  | room e =>
      obtain ⟨hread, hs⟩ := Option.ite_none_left_eq_some.mp hs
      obtain ⟨r, hr, rfl⟩ := Option.map_eq_some_iff.mp hs
      exact .room (readsMessage_eq_false hread) hr
  | receive c first =>
      rw [step] at hs
      split at hs
      · cases hs
      · next m rest hbox =>
          obtain ⟨r, hr, rfl⟩ := Option.map_eq_some_iff.mp hs
          exact .receive hbox hr
  | deliver c =>
      obtain ⟨m, hm, hs⟩ := Option.bind_eq_some_iff.mp hs
      obtain ⟨p, hp, rfl⟩ := Option.map_eq_some_iff.mp hs
      exact .deliver hm hp
  | sendTurn c column =>
      obtain ⟨⟨halive, hprompts, hcol⟩, hs⟩ := Option.ite_none_right_eq_some.mp hs
      cases hs
      exact .sendTurn halive hprompts hcol
  | toggleReady c =>
      obtain ⟨⟨halive, hdue⟩, hs⟩ := Option.ite_none_right_eq_some.mp hs
      cases hs
      exact .toggleReady halive hdue

/-! ## The table without its users -/

/-- The lobby, the clients, and how far the channels have come. -/
def network (t : Table) : Network where
  sender := t.room
  receiver := fun c => (t.players c).client
  delivered := t.delivered

/-- The room's part of an event. -/
def roomEvent (t : Table) : TableEvent → Option RoomEvent
  | .room e => some e
  | .receive c first =>
      (t.players c).outbox.head?.map fun m => .read c (.message m) first none
  | _ => none

theorem modify_network (t : Table) (c : ConnId) {f : Player → Player}
    (hf : (f (t.players c)).client = (t.players c).client) :
    (t.modify c f).network = t.network := by
  rw [network, network]
  congr 1
  funext d
  by_cases hd : d = c
  · rw [hd, modify_players_self, hf]
  · rw [modify_players_of_ne t hd]

/-- An event of the table is an event of the network, or none. -/
theorem step_network {e : TableEvent} (hm : t.Moves e t')
    {ok : Room → RoomEvent → Prop} (hok : ∀ e' ∈ t.roomEvent e, ok t.room e') :
    t'.network = t.network ∨
      ∃ e', Net.When ok t.network e' ∧ Network.step t.network e' = some t'.network := by
  cases hm with
  | @room e r _ hs =>
      refine .inr ⟨.send e, hok e rfl, ?_⟩
      rw [Network.step, Net.step, show t.network.sender = t.room from rfl, hs]
      rfl
  | @receive c first m rest r hbox hs =>
      refine .inr ⟨.send (.read c (.message m) first none), hok _ ?_, ?_⟩
      · rw [roomEvent, hbox]
        rfl
      · rw [Network.step, Net.step, show t.network.sender = t.room from rfl, hs]
        rw [modify_network]
        · rfl
        · rfl
  | @deliver c m p hnext hhandled =>
      refine .inr ⟨.deliver c, trivial, ?_⟩
      have hclient := Player.receive_client hhandled
      rw [Network.step, Net.step, show t.network.sender = t.room from rfl,
        show t.network.delivered = t.delivered from rfl, hnext]
      simp only [Option.bind_some]
      rw [show t.network.receiver c = (t.players c).client from rfl, hclient, Option.map_some]
      have hreceiver : ∀ d, Function.update (fun d => (t.players d).client) c p.client d =
          ((t.received c p).players d).client := by
        intro d
        by_cases hd : d = c
        · rw [hd, received, modify_players_self, Function.update_self]
          split <;> rfl
        · rw [received, modify_players_of_ne _ hd, Function.update_of_ne hd]
      exact congrArg some (congrArg
        (fun k => Net.mk t.room k (Function.update t.delivered c (t.delivered c + 1)))
        (funext hreceiver))
  | sendTurn _ _ _ => exact .inl (modify_network t _ rfl)
  | toggleReady _ _ => exact .inl (modify_network t _ rfl)

/-! ## Loops -/

def loop (t : Table) (c : ConnId) : Loop where
  down := (t.inFlight c).map Message.down
  prompts := (t.players c).prompts
  due := (t.players c).readies
  up := (t.players c).outbox.map Message.up

theorem loop_congr {c : ConnId} (hsent : Network.sent t'.room c = Network.sent t.room c)
    (hdelivered : t'.delivered c = t.delivered c) (hplayer : t'.players c = t.players c) :
    t'.loop c = t.loop c := by
  rw [loop, loop, inFlight, inFlight, hsent, hdelivered, hplayer]

theorem loop_modify (t : Table) (c : ConnId) (f : Player → Player) :
    (t.modify c f).loop c = ⟨(t.loop c).down, (f (t.players c)).prompts,
      (f (t.players c)).readies, (f (t.players c)).outbox.map Message.up⟩ := by
  rw [loop, modify_players_self]
  rfl

theorem loop_push {c : ConnId} {ms : List Message}
    (hle : t.delivered c ≤ (Network.sent t.room c).length)
    (hsent : Network.sent t'.room c = Network.sent t.room c ++ ms)
    (hdelivered : t'.delivered c = t.delivered c) (hplayer : t'.players c = t.players c) :
    t'.loop c = (t.loop c).push (ms.map Message.down) := by
  rw [loop, loop, Loop.push, inFlight, inFlight, hsent, hdelivered, hplayer,
    List.drop_append_of_le_length hle, List.map_append]

/-- Delivering a message is a turn of the loop, if a request carries the client's
id. -/
theorem deliver_turns {c : ConnId} {m : Message} {p : Player}
    (hnext : (Network.sent t.room c)[t.delivered c]? = some m)
    (hhandled : (t.players c).receive m = some p)
    (hid : m.down = .token → m.type = .takeTurn →
      m.get 0 = (t.players c).client.playerId ∧ m.get 1 = requestTurn) :
    (t.loop c).Turns ((t.received c p).loop c) := by
  obtain ⟨hlt, hget⟩ := List.getElem?_eq_some_iff.mp hnext
  have hflight : t.inFlight c = m :: (t.received c p).inFlight c := by
    rw [inFlight, inFlight, received, modify_room]
    show _ = m :: (Network.sent t.room c).drop
      (Function.update t.delivered c (t.delivered c + 1) c)
    rw [Function.update_self, ← hget]
    exact List.drop_eq_getElem_cons hlt
  have hdown : (t.loop c).down = m.down :: ((t.received c p).inFlight c).map Message.down := by
    rw [loop, hflight]
    rfl
  obtain ⟨hprompts, hdue, replies, hreplies, hplain⟩ := Player.receive_handle hhandled
    (fun htype => hid (Message.down_eq_token.mpr (.inl htype)) htype)
    ((t.inFlight c).map Message.down) ((t.players c).outbox.map Message.up)
  obtain ⟨sent, hsent, hplayer⟩ : ∃ sent, (∀ m' ∈ sent, m'.up = .plain) ∧
      (t.received c p).players c =
        { p with outbox := (t.players c).outbox ++ sent } := by
    rw [received, modify_players_self]
    split
    · exact ⟨replies, hplain, by rw [← hreplies]⟩
    · exact ⟨[], fun _ hm => absurd hm List.not_mem_nil, by rw [List.append_nil]⟩
  have hup : ∀ u ∈ sent.map Message.up, u = .plain := by
    intro u hu
    obtain ⟨m', hm', rfl⟩ := List.mem_map.mp hu
    exact hsent m' hm'
  have hturn := Loop.Turns.deliver hdown hup
  have hloop : (t.received c p).loop c =
      { (t.loop c).handle m.down with
        down := ((t.received c p).inFlight c).map Message.down
        up := (t.loop c).up ++ sent.map Message.up } := by
    rw [loop, hplayer, Loop.mk.injEq]
    exact ⟨rfl, hprompts.symm, hdue.symm, List.map_append⟩
  rw [hloop]
  exact hturn

end Table

end ConnectDisks.Net
