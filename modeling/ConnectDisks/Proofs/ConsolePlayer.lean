import ConnectDisks.Proofs.ConsoleSafety
import ConnectDisks.Proofs.Decoding
import ConnectDisks.Proofs.TableStep
import ConnectDisks.Proofs.TurnInput

/-!
# A player follows a console

`Table` takes a player to be a client and a count of what its user owes, and to handle a
message at one stroke. A console client makes its calls one by one, waits for its own
thread in the middle of them, and may have its user answer a question that is out of date.

A player follows it (`Follows`) who handles a message at the moment the console makes the
last of the calls, since only that one counts for anything but the screen, and where it
stops the input thread, at the moment that was joined. Until then the player is one
message behind (`Behind`), and what the input thread still sends, it sends before. When the
user has quit, or the client will not read again, the player just stops receiving.

Every step of the console is then one move of the player, or none (`Follows.step`,
`Follows.hears`).
-/

namespace ConnectDisks.Net

open ConnectDisks.Game Lib

/-! ## The calls of a message -/

theorem Client.handleRead_calls {cl cl' : Client} {m : Message} {calls : List Call}
    (h : cl.handleRead m = .ok (cl', calls)) :
    calls.length ≤ 1 ∨
      ∃ result column, calls = [.onTurnResult result column, .handleTurnRequest] := by
  rw [handleRead] at h
  split at h
  · cases h
    exact .inl (Nat.le_refl _)
  · cases h
    exact .inl (Nat.le_refl _)
  · cases h
    exact .inl (Nat.le_refl _)
  · simp only [startGame] at h
    split at h
    · cases h
      exact .inl (Nat.le_refl _)
    · cases h
  · cases h
    exact .inl (Nat.le_refl _)
  · dsimp only at h
    split at h
    · cases h
      exact .inl (Nat.le_refl _)
    · cases h
      exact .inl (Nat.zero_le _)
  · rw [checkTurnResult] at h
    split at h
    · split at h
      · cases h
      · cases h
        exact .inl (Nat.le_refl _)
    · split at h
      · cases h
        exact .inl (Nat.zero_le _)
      · cases h
        exact .inr ⟨_, _, rfl⟩
  · rw [takeOpponentTurn] at h
    split at h
    · cases h
    · cases h
      exact .inl (Nat.le_refl _)
  · cases h
    exact .inl (Nat.zero_le _)

/-- All calls but the last only print something. -/
theorem Client.handleRead_last {cl cl' : Client} {m : Message} {done calls : List Call}
    {call : Call} (h : cl.handleRead m = .ok (cl', done ++ call :: calls)) :
    calls = [] ∨ call.Tells := by
  rcases handleRead_calls h with hlength | ⟨result, column, heq⟩
  · refine .inl (List.eq_nil_of_length_eq_zero ?_)
    rw [List.length_append, List.length_cons] at hlength
    omega
  · cases done with
    | nil =>
        obtain ⟨rfl, _⟩ := List.cons.inj heq
        exact .inr trivial
    | cons call₁ done =>
        obtain ⟨_, heq⟩ := List.cons.inj heq
        cases done with
        | nil => exact .inl (List.cons.inj heq).2
        | cons call₂ done =>
            exact absurd (List.cons.inj heq).2
              (List.append_ne_nil_of_right_ne_nil done (List.cons_ne_nil call calls))

theorem Call.Asks.not_tells {cl : Client} {call : Call} {callback : InputCallback}
    (h : call.Asks cl callback) : ¬call.Tells := by
  cases h <;> exact id

theorem Stage.next_type {maxPlayers : UInt8} {st st' : Stage} {m : Message}
    (h : st ≠ .waiting) (hm : st.next maxPlayers m = some st') : m.type ≠ .connected := by
  intro htype
  cases st with
  | waiting => exact h rfl
  | seated id =>
      rw [next, htype] at hm
      cases hm
  | playing id =>
      rw [next, htype] at hm
      cases hm

namespace Player

theorem react_tells (p : Player) {call : Call} (h : call.Tells) : p.react call = p := by
  cases call <;> first | rfl | exact h.elim

theorem foldl_react_tells (p : Player) {calls : List Call} (h : ∀ call ∈ calls, call.Tells) :
    calls.foldl react p = p := by
  induction calls with
  | nil => rfl
  | cons call calls ih =>
      rw [List.foldl_cons, react_tells p (h call List.mem_cons_self)]
      exact ih fun call' hin => h call' (List.mem_cons_of_mem call hin)

theorem react_client (p : Player) (call : Call) : (p.react call).client = p.client := by
  cases call <;> rfl

theorem receive_eq {p : Player} {m : Message} {cl : Client} {done : List Call} {call : Call}
    (h : p.client.handleRead m = .ok (cl, done ++ [call])) (hdone : ∀ call ∈ done, call.Tells) :
    p.receive m = some (react { p with client := cl } call) := by
  rw [receive, h]
  show some ((done ++ [call]).foldl react { p with client := cl }) = _
  rw [List.foldl_append, foldl_react_tells _ hdone]
  rfl

end Player

namespace ConsoleClient

/-! ## How a player follows a console -/

/-- The user owes an answer to this. -/
def Owes (p : Player) : InputCallback → Prop
  | .turn _ => 0 < p.prompts
  | _ => 0 < p.readies

/-- It will not tell the player anything any more. -/
def Quiet (c : ConsoleClient) : Prop := c.socket = false ∨ c.Deaf

/-- The calls that are not made yet, with the one the main thread waits in. -/
def Pending (c : ConsoleClient) (rest : List Call) : Prop :=
  (c.main = .handling rest ∧ rest ≠ []) ∨
    ∃ callback call calls, c.main = .joining (.start callback calls) ∧ rest = call :: calls ∧
      call.Asks c.client callback

/-- The player has received what the console has handled. -/
def Level (c : ConsoleClient) (delivered told : Nat) (p : Player) : Prop :=
  (c.main = .polling ∨ c.main = .handling []) ∧ p.client = c.client ∧ told = delivered

/-- The player is yet to receive the message the console is handling. -/
def Behind (sent : List Message) (c : ConsoleClient) (delivered told : Nat) (p : Player) :
    Prop :=
  delivered = told + 1 ∧ ∃ m done rest, sent[told]? = some m ∧
    p.client.handleRead m = .ok (c.client, done ++ rest) ∧ (∀ call ∈ done, call.Tells) ∧
    c.Pending rest

/-- The player follows the console, apart from what they sent. -/
structure Follows (sent : List Message) (c : ConsoleClient) (delivered told : Nat)
    (p : Player) : Prop where
  id : c.socket = true → c.inputWorker.thread ≠ none →
    p.client.playerId = c.client.playerId
  owed : c.socket = true → ∀ callback position,
    c.inputWorker.thread = some ⟨callback, position⟩ → position ≠ .returned → Owes p callback
  place : c.Quiet ∨ c.Level delivered told p ∨ c.Behind sent delivered told p

/-- What one player can do at the table. -/
inductive PlayerMoves (alive : Bool) (sent : List Message) (told : Nat) (p : Player) :
    Nat → Player → Prop
  | stay : PlayerMoves alive sent told p told p
  | receive {m : Message} {p' : Player} : sent[told]? = some m → p.receive m = some p' →
      PlayerMoves alive sent told p (told + 1)
        (if alive then p' else { p' with outbox := p.outbox })
  | sendTurn {column : UInt8} : alive = true → 0 < p.prompts → column ≠ 255 →
      PlayerMoves alive sent told p told { p with
        prompts := p.prompts - 1
        outbox := p.outbox ++ [p.client.sendTurn column] }
  | toggleReady : alive = true → 0 < p.readies →
      PlayerMoves alive sent told p told { p with
        readies := p.readies - 1
        outbox := p.outbox ++ [p.client.toggleReady] }

/-- What a console is to the network when its connection was dropped. -/
def kept (alive : Bool) (c c' : ConsoleClient) : ConsoleClient :=
  if alive then c' else { c' with outbox := c.outbox }

/-- The step of a console is a move of the player who follows it. -/
def Answered (alive : Bool) (sent : List Message) (c c' : ConsoleClient)
    (delivered told : Nat) (p : Player) : Prop :=
  ∃ told' p', PlayerMoves alive sent told p told' p' ∧ (kept alive c c').outbox = p'.outbox ∧
    (kept alive c c').Follows sent delivered told' p'

variable {alive : Bool} {sent : List Message} {c c' : ConsoleClient} {delivered told : Nat}
  {p p' : Player}

theorem Follows.kept (h : c'.Follows sent delivered told p) (alive : Bool)
    (c : ConsoleClient) : (kept alive c c').Follows sent delivered told p := by
  cases alive with
  | true => exact h
  | false => exact ⟨h.id, h.owed, h.place⟩

theorem Follows.outbox (h : c.Follows sent delivered told p) (outbox : List Message) :
    c.Follows sent delivered told { p with outbox := outbox } :=
  ⟨h.id, h.owed, h.place⟩

theorem Follows.stays (h : c'.Follows sent delivered told p) (houtbox : c.outbox = p.outbox)
    (hsame : c'.outbox = c.outbox) : Answered alive sent c c' delivered told p := by
  refine ⟨told, p, .stay, ?_, h.kept alive c⟩
  rw [ConsoleClient.kept]
  split
  · exact hsame.trans houtbox
  · exact houtbox

/-! ## A client that has quit -/

theorem Follows.of_closed (h : c.socket = false) : c.Follows sent delivered told p :=
  ⟨fun hsocket => absurd (h.symm.trans hsocket) (by decide),
    fun hsocket => absurd (h.symm.trans hsocket) (by decide), .inl (.inl h)⟩

theorem sendMessage_closed (h : c.socket = false) (m : Message) : c.sendMessage m = c := by
  rw [sendMessage, h]
  rfl

theorem Printed.outbox (h : c.Printed c') : c'.outbox = c.outbox := by
  obtain ⟨_, rfl⟩ := h
  rfl

/-- The main thread, when it stops the input thread, neither sends nor closes anything. -/
theorem Threads.stopInput_keeps (h : c.Threads) (hjoins : ¬c.Joins) {next : AfterStop}
    (hs : c.stopInput next = .ok c') : c'.socket = c.socket ∧ c'.outbox = c.outbox := by
  rcases h.stopInput hjoins next with ⟨_, heq⟩ | ⟨_, hthread, heq⟩ <;>
    obtain rfl := Except.ok.inj (hs.symm.trans heq)
  · exact ⟨rfl, rfl⟩
  · cases next <;> exact ⟨rfl, rfl⟩

theorem Threads.performs_closed (h : c.Threads) {call : Call} {calls : List Call}
    (hmain : c.main = .handling (call :: calls)) (hp : c.Performs calls call (.ok c'))
    (hclosed : c.socket = false) : c'.socket = false ∧ c'.outbox = c.outbox := by
  generalize hresult : Except.ok c' = result at hp
  cases hp with
  | tells _ hprinted =>
      cases hresult
      exact ⟨hprinted.socket.trans hclosed, hprinted.outbox⟩
  | sends m =>
      cases hresult
      rw [sendMessage_closed hclosed]
      exact ⟨hclosed, rfl⟩
  | greets _ hprinted =>
      rcases (h.congr hprinted.worker hprinted.main).start
        (not_joins_handling (hprinted.main.trans hmain)) .ready calls with
        ⟨_, heq⟩ | ⟨_, _, heq⟩ <;> obtain rfl := Except.ok.inj (hresult.trans heq)
      · exact ⟨hprinted.socket.trans hclosed, hprinted.outbox⟩
      · exact ⟨hprinted.socket.trans hclosed, hprinted.outbox⟩
  | asks _ hprinted =>
      obtain ⟨hsocket, houtbox⟩ := (h.congr hprinted.worker hprinted.main).stopInput_keeps
        (not_joins_handling (hprinted.main.trans hmain)) hresult.symm
      exact ⟨(hsocket.trans hprinted.socket).trans hclosed, houtbox.trans hprinted.outbox⟩
  | crashes => cases hresult

/-- Once the socket is closed it stays closed, and nothing is sent. -/
theorem Threads.step_closed (h : c.Threads) {e : ConsoleEvent} (hs : c.next e = some c')
    (hclosed : c.socket = false) : c'.socket = false ∧ c'.outbox = c.outbox := by
  have hsteps := next_steps hs
  generalize hresult : Except.ok c' = result at hsteps
  cases hsteps with
  | hears =>
      cases hresult
      exact ⟨hclosed, rfl⟩
  | nullGame => cases hresult
  | throws hmain =>
      have hd : Threads { c with reading := false } := h.congr rfl rfl
      obtain ⟨hsocket, houtbox⟩ := hd.stopInput_keeps (not_joins_polling hmain) hresult.symm
      exact ⟨hsocket.trans hclosed, houtbox⟩
  | empty =>
      cases hresult
      exact ⟨hclosed, rfl⟩
  | fails hmain hprinted =>
      obtain ⟨hsocket, houtbox⟩ := (h.congr hprinted.worker hprinted.main).stopInput_keeps
        (not_joins_polling (hprinted.main.trans hmain)) hresult.symm
      exact ⟨(hsocket.trans hprinted.socket).trans hclosed, houtbox.trans hprinted.outbox⟩
  | performs hmain hp =>
      cases hresult
      exact h.performs_closed hmain hp hclosed
  | waits =>
      cases hresult
      exact ⟨hclosed, rfl⟩
  | @joined next _ hmain _ =>
      obtain rfl := Except.ok.inj
        (hresult.trans (resume_joined (h.stopped ⟨next, hmain⟩) next))
      cases next <;> exact ⟨hclosed, rfl⟩
  | leaves hmain =>
      obtain ⟨hsocket, houtbox⟩ := h.stopInput_keeps (not_joins_polling hmain) hresult.symm
      exact ⟨hsocket.trans hclosed, houtbox⟩
  | proceeds =>
      cases hresult
      exact ⟨hclosed, rfl⟩
  | answers _ ha =>
      cases hresult
      cases ha with
      | confirms _ hprinted =>
          have hd := hprinted.socket.trans hclosed
          rw [toggleReady, sendMessage_closed hd]
          exact ⟨hd, hprinted.outbox⟩
      | turns =>
          rw [sendTurn, sendMessage_closed hclosed]
          exact ⟨hclosed, rfl⟩
      | quits _ _ _ hprinted => exact ⟨rfl, hprinted.outbox⟩
      | refuses hprinted => exact ⟨hprinted.socket.trans hclosed, hprinted.outbox⟩
  | crashes => cases hresult
  | stops =>
      cases hresult
      exact ⟨hclosed, rfl⟩

/-! ## A client that is still there -/

theorem kept_outbox (h : alive = true → c'.outbox = p.outbox) {outbox : List Message}
    (hbefore : c.outbox = outbox) :
    (kept alive c c').outbox = (if alive then p else { p with outbox := outbox }).outbox := by
  cases alive with
  | true => exact h rfl
  | false => exact hbefore

/-- The console is about to make `call`, of a message the player is yet to receive. -/
structure Makes (sent : List Message) (c : ConsoleClient) (delivered told : Nat) (p : Player)
    (m : Message) (done : List Call) (call : Call) (calls : List Call) : Prop where
  socket : c.socket = true
  outbox : c.outbox = p.outbox
  message : sent[told]? = some m
  delivered : delivered = told + 1
  read : p.client.handleRead m = .ok (c.client, done ++ call :: calls)
  told : ∀ call ∈ done, call.Tells

theorem Follows.makes (h : c.Follows sent delivered told p) (houtbox : c.outbox = p.outbox)
    (hsocket : c.socket = true) {call : Call} {calls : List Call}
    (hmain : c.main = .handling (call :: calls)) :
    ∃ m done, c.Makes sent delivered told p m done call calls := by
  rcases h.place with (hclosed | hdeaf) | ⟨hpolling | hdone, _⟩ | hbehind
  · exact absurd (hclosed.symm.trans hsocket) (by decide)
  · exact absurd hdeaf (not_deaf_of hmain (.inl ⟨_, rfl⟩))
  · cases hmain.symm.trans hpolling
  · cases hmain.symm.trans hdone
  · obtain ⟨hdelivered, m, done, rest, hm, hread, hdone, hpending⟩ := hbehind
    rcases hpending with ⟨hhandling, _⟩ | ⟨_, _, _, hjoining, _⟩
    · obtain rfl := MainThread.handling.inj (hmain.symm.trans hhandling)
      exact ⟨m, done, hsocket, houtbox, hm, hdelivered, hread, hdone⟩
    · cases hmain.symm.trans hjoining

section Calls

variable {m : Message} {done : List Call} {call : Call} {calls : List Call} {d : ConsoleClient}

/-- The message is not handled yet, so the player stays as it is. -/
theorem Makes.later (h : c.Makes sent delivered told p m done call calls)
    (hf : c.Follows sent delivered told p) (hclient : c'.client = c.client)
    (hthread : c'.inputWorker.thread = c.inputWorker.thread) (hsame : c'.outbox = c.outbox)
    {done' rest : List Call} (hcalls : done ++ call :: calls = done' ++ rest)
    (htold : ∀ call ∈ done', call.Tells) (hpending : c'.Pending rest) :
    Answered alive sent c c' delivered told p := by
  refine Follows.stays ⟨fun _ hd => ?_, fun _ callback position hd => ?_, ?_⟩ h.outbox hsame
  · rw [hclient]
    exact hf.id h.socket (hthread ▸ hd)
  · exact hf.owed h.socket callback position (hthread ▸ hd)
  · refine .inr (.inr ⟨h.delivered, m, done', rest, h.message, ?_, htold, hpending⟩)
    rw [hclient, ← hcalls]
    exact h.read

/-- The last call is made, and the player receives the message. -/
theorem Makes.last (h : c.Makes sent delivered told p m done call [])
    (hmain : c'.main = .handling []) (hclient : c'.client = c.client)
    (hsent : c'.outbox = (Player.react { p with client := c.client } call).outbox)
    (howed : ∀ callback position, c'.inputWorker.thread = some ⟨callback, position⟩ →
      position ≠ .returned → Owes (Player.react { p with client := c.client } call) callback) :
    Answered alive sent c c' delivered told p := by
  have hsame := (Player.react_client { p with client := c.client } call).trans hclient.symm
  have hfollows : c'.Follows sent delivered (told + 1)
      (Player.react { p with client := c.client } call) :=
    ⟨fun _ _ => congrArg Client.playerId hsame, fun _ => howed,
      .inr (.inl ⟨.inr hmain, hsame, h.delivered.symm⟩)⟩
  refine ⟨told + 1, _, .receive h.message (Player.receive_eq h.read h.told), ?_, ?_⟩
  · exact kept_outbox (fun _ => hsent) h.outbox
  · refine Follows.kept ?_ alive c
    cases alive with
    | true => exact hfollows
    | false => exact hfollows.outbox _

theorem Makes.tells (h : c.Makes sent delivered told p m done call calls)
    (hf : c.Follows sent delivered told p) (htells : call.Tells) (hprinted : c.Printed d) :
    Answered alive sent c { d with main := .handling calls } delivered told p := by
  cases calls with
  | nil =>
      have hreact : Player.react { p with client := c.client } call =
          { p with client := c.client } := Player.react_tells _ htells
      refine h.last rfl hprinted.client ?_ ?_
      · rw [hreact]
        exact hprinted.outbox.trans h.outbox
      · rw [hreact]
        intro callback position hd
        exact hf.owed h.socket callback position (hprinted.worker ▸ hd)
  | cons next calls =>
      refine h.later hf hprinted.client (congrArg InputWorker.thread hprinted.worker)
        hprinted.outbox (List.append_cons done call (next :: calls)) ?_
        (.inl ⟨rfl, List.cons_ne_nil _ _⟩)
      intro call' hcall
      rcases List.mem_append.mp hcall with hin | hin
      · exact h.told call' hin
      · exact List.mem_singleton.mp hin ▸ htells

theorem Makes.greets {id : UInt8} (h : c.Makes sent delivered told p m done (.onConnect id) [])
    (hf : c.Follows sent delivered told p) (hprinted : c.Printed d) (hthreads : d.Threads)
    (hjoins : ¬d.Joins) (hs : d.start .ready [] = .ok c') :
    Answered alive sent c c' delivered told p := by
  rcases hthreads.start hjoins .ready [] with ⟨_, heq⟩ | ⟨_, _, heq⟩ <;>
    obtain rfl := Except.ok.inj (hs.symm.trans heq)
  · refine h.last rfl hprinted.client (hprinted.outbox.trans h.outbox) ?_
    intro callback position hd hreturned
    have howes := hf.owed h.socket callback position (hprinted.worker ▸ hd) hreturned
    cases callback with
    | turn maxColumns => exact howes
    | ready => exact Nat.succ_pos _
    | rematch => exact Nat.succ_pos _
  · refine h.last rfl hprinted.client (hprinted.outbox.trans h.outbox) ?_
    intro callback position hd _
    cases hd
    exact Nat.succ_pos _

theorem Makes.asks (h : c.Makes sent delivered told p m done call [])
    (hf : c.Follows sent delivered told p) {callback : InputCallback}
    (hasks : call.Asks c.client callback) (hprinted : c.Printed d) (hthreads : d.Threads)
    (hjoins : ¬d.Joins) (hs : d.stopInput (.start callback []) = .ok c') :
    Answered alive sent c c' delivered told p := by
  rcases hthreads.stopInput hjoins (.start callback []) with ⟨_, heq⟩ | ⟨_, _, heq⟩ <;>
    obtain rfl := Except.ok.inj (hs.symm.trans heq)
  · have hthread := congrArg InputWorker.thread hprinted.worker
    refine h.later hf hprinted.client hthread hprinted.outbox rfl h.told
      (.inr ⟨callback, call, [], rfl, rfl, ?_⟩)
    show call.Asks d.client callback
    rw [hprinted.client]
    exact hasks
  · refine h.last rfl hprinted.client ?_ ?_
    · show d.outbox = _
      rw [hprinted.outbox, h.outbox]
      cases hasks <;> rfl
    · intro callback' position hd _
      cases hd
      cases hasks with
      | rematch => exact Nat.succ_pos _
      | turn => exact Nat.succ_pos _

theorem Follows.performs (h : c.Follows sent delivered told p) (hthreads : c.Threads)
    (houtbox : c.outbox = p.outbox) (hsocket : c.socket = true)
    (hmain : c.main = .handling (call :: calls)) (hp : c.Performs calls call (.ok c')) :
    Answered alive sent c c' delivered told p := by
  obtain ⟨m, done, hmakes⟩ := h.makes houtbox hsocket hmain
  have hlast : ¬call.Tells → calls = [] := (Client.handleRead_last hmakes.read).resolve_right
  generalize hresult : Except.ok c' = result at hp
  cases hp with
  | tells htells hprinted =>
      cases hresult
      exact hmakes.tells h htells hprinted
  | sends message =>
      cases hresult
      obtain rfl := hlast fun htells => htells
      refine hmakes.last rfl (sendMessage_client _ _) ?_ ?_
      · show (c.sendMessage message).outbox = p.outbox ++ [message]
        rw [sendMessage, if_pos hsocket, ← houtbox]
      · intro callback position hd
        exact h.owed hsocket callback position (sendMessage_worker c message ▸ hd)
  | greets id hprinted =>
      obtain rfl := hlast fun htells => htells
      exact hmakes.greets h hprinted (hthreads.congr hprinted.worker hprinted.main)
        (not_joins_handling (hprinted.main.trans hmain)) hresult.symm
  | asks hasks hprinted =>
      obtain rfl := hlast hasks.not_tells
      exact hmakes.asks h hasks hprinted (hthreads.congr hprinted.worker hprinted.main)
        (not_joins_handling (hprinted.main.trans hmain)) hresult.symm
  | crashes => cases hresult

end Calls

/-- The main thread stops, to go on as somebody who will not read again. -/
theorem Follows.stopInput (h : c.Follows sent delivered told p) {d : ConsoleClient}
    (hd : d.Threads) (hjoins : ¬d.Joins) {next : AfterStop}
    (hnext : next = .destroyed ∨ next = .disconnected ∧ d.reading = false)
    (hsocket : d.socket = c.socket) (hworker : d.inputWorker = c.inputWorker)
    (hid : d.client.playerId = c.client.playerId) (hs : d.stopInput next = .ok c') :
    c'.Follows sent delivered told p := by
  rcases hd.stopInput hjoins next with ⟨_, heq⟩ | ⟨_, hthread, heq⟩ <;>
    obtain rfl := Except.ok.inj (hs.symm.trans heq)
  · refine ⟨fun hopen hthread => ?_, fun hopen callback position hthread => ?_, .inl (.inr ?_)⟩
    · exact (h.id (hsocket ▸ hopen) (hworker ▸ hthread)).trans hid.symm
    · exact h.owed (hsocket ▸ hopen) callback position (hworker ▸ hthread)
    · rcases hnext with rfl | ⟨rfl, hreading⟩
      · trivial
      · exact hreading
  · have hnone : (d.resumed next).inputWorker.thread = none := by
      rcases hnext with rfl | ⟨rfl, _⟩ <;> exact hthread
    refine ⟨fun _ hsome => absurd hnone hsome, fun _ callback position hsome => ?_,
      .inl (.inr ?_)⟩
    · cases hnone.symm.trans hsome
    · rcases hnext with rfl | ⟨rfl, hreading⟩
      · trivial
      · exact hreading

theorem Follows.moves (h : c.Follows sent delivered told p) {callback : InputCallback}
    {position position' : Position}
    (hthread : c.inputWorker.thread = some ⟨callback, position⟩)
    (howes : position' ≠ .returned → position ≠ .returned) (hclient : c'.client = c.client)
    (hmain : c'.main = c.main) (hreading : c'.reading = c.reading)
    (hsocket : c'.socket = c.socket) :
    (c'.moveTo callback position').Follows sent delivered told p := by
  refine ⟨fun hopen _ => ?_, fun hopen callback' position'' hmoved hreturned => ?_, ?_⟩
  · show p.client.playerId = c'.client.playerId
    rw [hclient]
    exact h.id (hsocket ▸ hopen) (Option.ne_none_iff_exists'.mpr ⟨_, hthread⟩)
  · cases hmoved
    exact h.owed (hsocket ▸ hopen) callback position hthread (howes hreturned)
  · refine h.place.imp ?_ (Or.imp ?_ ?_)
    · exact Or.imp hsocket.trans fun hdeaf => hdeaf.congr hmain hreading
    · rintro ⟨hplace, hsame, htold⟩
      refine ⟨?_, hsame.trans hclient.symm, htold⟩
      show c'.main = .polling ∨ c'.main = .handling []
      rwa [hmain]
    · rintro ⟨hdelivered, m, done, rest, hm, hread, hdone, hpending⟩
      refine ⟨hdelivered, m, done, rest, hm, ?_, hdone, ?_⟩
      · show p.client.handleRead m = .ok (c'.client, done ++ rest)
        rwa [hclient]
      · refine hpending.imp ?_ ?_
        · rintro ⟨hhandling, hrest⟩
          exact ⟨hmain.trans hhandling, hrest⟩
        · rintro ⟨cb, call, calls, hjoining, hrest, hasks⟩
          refine ⟨cb, call, calls, hmain.trans hjoining, hrest, ?_⟩
          show call.Asks c'.client cb
          rwa [hclient]

theorem Follows.returned (h : c.Follows sent delivered told p) {callback : InputCallback}
    (hthread : c.inputWorker.thread = some ⟨callback, .returned⟩)
    (hclient : p'.client = p.client) : c.Follows sent delivered told p' := by
  refine ⟨fun hopen hsome => ?_, fun _ callback' position hsome hreturned => ?_, ?_⟩
  · rw [hclient]
    exact h.id hopen hsome
  · cases hthread.symm.trans hsome
    exact absurd rfl hreturned
  · rw [Level, Behind, hclient]
    exact h.place

theorem Follows.sends (h : c.Follows sent delivered told p) {callback : InputCallback}
    {input : List Char} (hthread : c.inputWorker.thread = some ⟨callback, .calling input⟩)
    (hopen : c.socket = true) (houtbox : c.outbox = p.outbox) {d : ConsoleClient}
    (hprinted : c.Printed d) {m : Message} (hclient : p'.client = p.client)
    (hsent : p'.outbox = p.outbox ++ [m])
    (hmove : alive = true → PlayerMoves alive sent told p told p') :
    Answered alive sent c ((d.sendMessage m).moveTo callback .returned) delivered told p := by
  have hmoved : ((d.sendMessage m).moveTo callback .returned).Follows sent delivered told p := by
    refine h.moves hthread (fun habs => absurd rfl habs) ?_ ?_ ?_ ?_
    · exact (sendMessage_client d m).trans hprinted.client
    · exact (sendMessage_main d m).trans hprinted.main
    · exact (sendMessage_reading d m).trans hprinted.reading
    · exact (sendMessage_socket d m).trans hprinted.socket
  cases alive with
  | true =>
      refine ⟨told, p', hmove rfl, ?_, hmoved.returned rfl hclient⟩
      show (d.sendMessage m).outbox = p'.outbox
      rw [sendMessage, if_pos (hprinted.socket.trans hopen), hsent, ← houtbox]
      exact congrArg (· ++ [m]) hprinted.outbox
  | false => exact ⟨told, p, .stay, houtbox, hmoved.kept false c⟩

theorem Follows.answers (h : c.Follows sent delivered told p) {callback : InputCallback}
    {input : List Char} (hthread : c.inputWorker.thread = some ⟨callback, .calling input⟩)
    (hopen : c.socket = true) (houtbox : c.outbox = p.outbox) {position : Position}
    (ha : c.Answers input callback (.ok (c', position))) :
    Answered alive sent c (c'.moveTo callback position) delivered told p := by
  have hid : p.client.playerId = c.client.playerId :=
    h.id hopen (Option.ne_none_iff_exists'.mpr ⟨_, hthread⟩)
  have howes : Owes p callback := h.owed hopen callback _ hthread (by rintro ⟨⟩)
  generalize hresult : Except.ok (c', position) = result at ha
  cases ha with
  | @confirms _ d hconfirms hprinted =>
      cases hresult
      have hready : p.client.toggleReady = d.client.toggleReady := by
        rw [Client.toggleReady, Client.toggleReady, hid, hprinted.client]
      have howes' : 0 < p.readies := by
        cases callback with
        | ready => exact howes
        | rematch => exact howes
        | turn maxColumns => exact hconfirms.elim
      refine h.sends hthread hopen houtbox hprinted ?_ ?_ fun halive =>
        .toggleReady halive howes'
      · rfl
      · rw [hready]
  | @turns maxColumns column hcolumn =>
      cases hresult
      have hturn : p.client.sendTurn column = c.client.sendTurn column := by
        rw [Client.sendTurn, Client.sendTurn, hid]
      have hlt := turnColumn_lt hcolumn
      have hreal : column ≠ 255 := by
        rintro rfl
        have hmax := maxColumns.toNat_lt
        exact absurd hlt (by simp; omega)
      refine h.sends hthread hopen houtbox (Printed.refl c) ?_ ?_ fun halive =>
        .sendTurn halive howes hreal
      · rfl
      · rw [hturn]
  | quits _ _ _ hprinted =>
      cases hresult
      exact (Follows.of_closed rfl).stays houtbox hprinted.outbox
  | crashes => cases hresult
  | refuses hprinted =>
      cases hresult
      refine (h.moves hthread (fun _ => by rintro ⟨⟩) ?_ ?_ ?_ ?_).stays houtbox hprinted.outbox
      · exact hprinted.client
      · exact hprinted.main
      · exact hprinted.reading
      · exact hprinted.socket

/-- The input thread was joined, and what the main thread had stopped it for goes on. -/
theorem Follows.joined (h : c.Follows sent delivered told p) (hthreads : c.Threads)
    (hopen : c.socket = true) (houtbox : c.outbox = p.outbox) {next : AfterStop}
    (hmain : c.main = .joining next)
    (hs : Except.ok c' =
      ({ c with inputWorker := { c.inputWorker with thread := none } } : ConsoleClient).resume
        next) :
    Answered alive sent c c' delivered told p := by
  obtain rfl := Except.ok.inj (hs.trans (resume_joined (hthreads.stopped ⟨next, hmain⟩) next))
  have hlevel : ¬c.Level delivered told p := by
    rintro ⟨hpolling | hdone, _⟩
    · cases hmain.symm.trans hpolling
    · cases hmain.symm.trans hdone
  have hplace : c.Deaf ∨ c.Behind sent delivered told p := by
    rcases h.place with (hclosed | hdeaf) | hlevel' | hbehind
    · exact absurd (hclosed.symm.trans hopen) (by decide)
    · exact .inl hdeaf
    · exact absurd hlevel' hlevel
    · exact .inr hbehind
  cases next with
  | start callback calls =>
      obtain ⟨hdelivered, m, done, rest, hm, hread, hdone, hpending⟩ :=
        hplace.resolve_left (not_deaf_of hmain (.inr ⟨_, _, rfl⟩))
      obtain ⟨hhandling, _⟩ | ⟨callback', call, calls', hjoining, rfl, hasks⟩ := hpending
      · cases hmain.symm.trans hhandling
      cases hmain.symm.trans hjoining
      obtain rfl := (Client.handleRead_last hread).resolve_right hasks.not_tells
      have hmakes : c.Makes sent delivered told p m done call [] :=
        ⟨hopen, houtbox, hm, hdelivered, hread, hdone⟩
      refine hmakes.last rfl rfl ?_ ?_
      · refine houtbox.trans ?_
        cases hasks <;> rfl
      · intro callback' position hthread _
        cases hthread
        cases hasks with
        | rematch => exact Nat.succ_pos _
        | turn => exact Nat.succ_pos _
  | disconnected =>
      refine Follows.stays ⟨fun _ hsome => absurd rfl hsome,
        fun _ _ _ hsome => (by cases hsome), ?_⟩ houtbox rfl
      rcases hplace with hdeaf | ⟨_, _, _, _, _, _, _, hpending⟩
      · rw [Deaf, hmain] at hdeaf
        exact .inl (.inr hdeaf)
      · rcases hpending with ⟨hhandling, _⟩ | ⟨_, _, _, hjoining, _⟩
        · cases hmain.symm.trans hhandling
        · cases hmain.symm.trans hjoining
  | destroyed =>
      exact Follows.stays ⟨fun _ hsome => absurd rfl hsome,
        fun _ _ _ hsome => (by cases hsome), .inl (.inr trivial)⟩ houtbox rfl

theorem Follows.step (h : c.Follows sent delivered told p) (hthreads : c.Threads)
    (houtbox : c.outbox = p.outbox) {e : ConsoleEvent}
    (he : ConsoleTable.hearsMessage e = false) (hs : c.next e = some c') (alive : Bool) :
    Answered alive sent c c' delivered told p := by
  cases hopen : c.socket with
  | false =>
      obtain ⟨hclosed, hsame⟩ := hthreads.step_closed hs hopen
      exact (Follows.of_closed hclosed).stays houtbox hsame
  | true =>
      have hsteps := next_steps hs
      generalize hresult : Except.ok c' = result at hsteps
      cases hsteps with
      | hears => cases he
      | nullGame => cases he
      | throws => cases he
      | empty hmain =>
          cases hresult
          refine Follows.stays ⟨h.id, h.owed, .inl (.inr ?_)⟩ houtbox rfl
          rw [Deaf, hmain]
      | @fails d hmain hprinted =>
          have hd : d.Threads := hthreads.congr hprinted.worker hprinted.main
          have hjoins := not_joins_polling (hprinted.main.trans hmain)
          obtain ⟨_, hsame⟩ := hd.stopInput_keeps hjoins hresult.symm
          refine Follows.stays ?_ houtbox (hsame.trans hprinted.outbox)
          have hid : d.client.playerId = c.client.playerId := by rw [hprinted.client]
          exact h.stopInput hd hjoins (.inr ⟨rfl, hprinted.reading⟩) hprinted.socket
            hprinted.worker hid hresult.symm
      | performs hmain hp =>
          cases hresult
          exact h.performs hthreads houtbox hopen hmain hp
      | waits hmain =>
          cases hresult
          refine Follows.stays ⟨h.id, h.owed, ?_⟩ houtbox rfl
          rcases h.place with (hclosed | hdeaf) | ⟨_, hsame, htold⟩ |
            ⟨_, _, _, _, _, _, _, hpending⟩
          · exact absurd (hclosed.symm.trans hopen) (by decide)
          · exact absurd hdeaf (not_deaf_of hmain (.inl ⟨_, rfl⟩))
          · exact .inr (.inl ⟨.inl rfl, hsame, htold⟩)
          · rcases hpending with ⟨hhandling, hrest⟩ | ⟨_, _, _, hjoining, _⟩
            · exact absurd (MainThread.handling.inj (hmain.symm.trans hhandling)).symm hrest
            · cases hmain.symm.trans hjoining
      | joined hmain _ => exact h.joined hthreads hopen houtbox hmain hresult
      | leaves hmain =>
          have hjoins := not_joins_polling hmain
          obtain ⟨_, hsame⟩ := hthreads.stopInput_keeps hjoins hresult.symm
          exact (h.stopInput hthreads hjoins (.inl rfl) rfl rfl rfl hresult.symm).stays houtbox
            hsame
      | proceeds hthread hp =>
          cases hresult
          refine (h.moves hthread (fun _ => ?_) rfl rfl rfl rfl).stays houtbox rfl
          cases hp <;> rintro ⟨⟩
      | answers hthread ha =>
          cases hresult
          exact h.answers hthread hopen houtbox ha
      | crashes => cases hresult
      | stops hthread =>
          cases hresult
          refine Follows.stays (h.moves hthread (fun _ => by rintro ⟨⟩) ?_ ?_ ?_ ?_) houtbox ?_
          all_goals rfl

/-- Whom the client is known as does not change once the user was asked for something. -/
theorem Informed.hears_id {maxPlayers : UInt8} (htwo : 2 ≤ maxPlayers.toNat)
    (h : c.Informed maxPlayers sent delivered) (hawake : ¬c.Deaf) {m : Message}
    (hm : sent[delivered]? = some m)
    (hword : ∃ last, run (Stage.next maxPlayers) .waiting sent = some last)
    (hthread : c.inputWorker.thread ≠ none) {client : Client} {calls : List Call}
    (hread : c.client.handleRead m = .ok (client, calls)) :
    client.playerId = c.client.playerId := by
  obtain ⟨st, st', _, _, hnext, _, hunasked, _⟩ := h.handled htwo hawake hm hword
  have htype := Stage.next_type (fun hst => hthread (hunasked hst).1) hnext
  rw [Client.handleRead_playerId hread, Client.idAfter]
  split
  · next hconnected => exact absurd hconnected htype
  · rfl

/-- The step that hears a message. Unless it comes to nothing, the player receives it
later. -/
theorem Follows.hears {maxPlayers : UInt8} (h : c.Follows sent delivered told p)
    (htwo : 2 ≤ maxPlayers.toNat) (hinformed : c.Informed maxPlayers sent delivered)
    (houtbox : c.outbox = p.outbox) {m : Message} (hm : sent[delivered]? = some m)
    (hword : ∃ last, run (Stage.next maxPlayers) .waiting sent = some last)
    (hs : c.next (.read (.message m)) = some c') (alive : Bool) :
    ∃ told' p', PlayerMoves alive sent told p told' p' ∧ c'.outbox = p'.outbox ∧
      c'.Follows sent (delivered + 1) told' p' := by
  obtain ⟨⟨client, calls, hread, hmain, hreading, rfl⟩, _⟩ :=
    hinformed.hears htwo hm hword hs
  have hawake := not_deaf_of_reading hmain hreading
  by_cases hclosed : c.socket = false
  · exact ⟨told, p, .stay, houtbox, Follows.of_closed hclosed⟩
  · have hlevel : c.Level delivered told p := by
      rcases h.place with (hclosed' | hdeaf) | hlevel | ⟨_, _, _, _, _, _, _, hpending⟩
      · exact absurd hclosed' hclosed
      · exact absurd hdeaf hawake
      · exact hlevel
      · rcases hpending with ⟨hhandling, _⟩ | ⟨_, _, _, hjoining, _⟩
        · cases hmain.symm.trans hhandling
        · cases hmain.symm.trans hjoining
    obtain ⟨_, hsame, rfl⟩ := hlevel
    have hpread : p.client.handleRead m = .ok (client, calls) := hsame ▸ hread
    cases calls with
    | nil =>
        have hreceive : p.receive m = some { p with client := client } := by
          rw [Player.receive, hpread]
          rfl
        refine ⟨told + 1, _, .receive hm hreceive, ?_, ?_⟩
        · cases alive <;> exact houtbox
        · have hfollows : Follows sent
              { c with reading := false, client := client, main := .handling [] } (told + 1)
              (told + 1) { p with client := client } :=
            ⟨fun _ _ => rfl, h.owed, .inr (.inl ⟨.inr rfl, rfl, rfl⟩)⟩
          cases alive with
          | true => exact hfollows
          | false => exact hfollows.outbox _
    | cons call calls =>
        refine ⟨told, p, .stay, houtbox, fun _ hthread => ?_, h.owed, .inr (.inr ?_)⟩
        · rw [hsame]
          exact (hinformed.hears_id htwo hawake hm hword hthread hread).symm
        · exact ⟨rfl, m, [], call :: calls, hm, hpread, List.forall_mem_nil _,
            .inl ⟨rfl, List.cons_ne_nil _ _⟩⟩

/-- The console waits for its next message. -/
def Listens (c : ConsoleClient) : Prop :=
  c.main = .polling ∧ c.reading = true ∧ c.socket = true

theorem Follows.listens (h : c.Follows sent delivered told p) (hlistens : c.Listens) :
    p.client = c.client ∧ told = delivered := by
  obtain ⟨hmain, hreading, hopen⟩ := hlistens
  rcases h.place with (hclosed | hdeaf) | ⟨_, hsame⟩ | ⟨_, _, _, _, _, _, _, hpending⟩
  · exact absurd (hclosed.symm.trans hopen) (by decide)
  · exact absurd hdeaf (not_deaf_of_reading hmain hreading)
  · exact hsame
  · rcases hpending with ⟨hhandling, _⟩ | ⟨_, _, _, hjoining, _⟩
    · cases hmain.symm.trans hhandling
    · cases hmain.symm.trans hjoining

theorem Follows.grows {sent' : List Message} (h : c.Follows sent delivered told p)
    (hsent : sent <+: sent') : c.Follows sent' delivered told p := by
  refine ⟨h.id, h.owed, h.place.imp_right (Or.imp_right ?_)⟩
  rintro ⟨hdelivered, m, done, rest, hm, hread⟩
  obtain ⟨hlt, hget⟩ := List.getElem?_eq_some_iff.mp hm
  have hm' := (List.prefix_iff_getElem?.mp hsent _ hlt).trans (congrArg some hget)
  exact ⟨hdelivered, m, done, rest, hm', hread⟩

end ConsoleClient

end ConnectDisks.Net
