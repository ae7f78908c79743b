import ConnectDisks.Net.ConsoleTable
import ConnectDisks.Proofs.InputThread
import ConnectDisks.Proofs.Service

/-!
# Players at consoles

What a console client needs to know of its server is the order of the server's messages:
between two messages it is at a stage of that order (`Informed`), so every message it
hears is handled, and a call that prints the game finds one. With `Threads` that leaves one
way for it to crash, which is the user's: to type quit, and to do it once more before the
client is gone, since the second one closes a socket that is not there any more
(`run_crashes`).
-/

namespace ConnectDisks.Net

open ConnectDisks.Game Lib

/-- A call that may start the input thread. -/
def Call.Prompts : Call → Prop
  | .onConnect _ => True
  | .onGameEnd _ => True
  | .handleTurnRequest => True
  | _ => False

theorem Call.Asks.prompts {cl : Client} {call : Call} {callback : InputCallback}
    (h : call.Asks cl callback) : call.Prompts := by
  cases h with
  | rematch => trivial
  | turn => trivial

theorem Call.Meant.game {maxPlayers : UInt8} {cl : Client} {call : Call}
    (h : call.Meant maxPlayers cl) (hshows : call.ShowsGame) : cl.game ≠ none := by
  cases call with
  | onGameUpdate player col => exact h.1
  | onTurnResult result column => exact h.1
  | handleTurnRequest => exact h
  | _ => exact hshows.elim

theorem Client.handleRead_game {cl cl' : Client} {m : Message} {calls : List Call}
    (h : cl.handleRead m = .ok (cl', calls)) (hgame : cl.game ≠ none) : cl'.game ≠ none := by
  rw [handleRead] at h
  split at h
  · cases h
    exact hgame
  · cases h
    exact hgame
  · cases h
    exact hgame
  · simp only [startGame] at h
    split at h
    · cases h
      exact Option.some_ne_none _
    · cases h
  · cases h
    exact hgame
  · dsimp only at h
    split at h <;> cases h <;> exact hgame
  · rw [checkTurnResult] at h
    split at h
    · split at h
      · cases h
      · cases h
        exact Option.some_ne_none _
    · split at h <;> cases h <;> exact hgame
  · rw [takeOpponentTurn] at h
    split at h
    · cases h
    · cases h
      exact Option.some_ne_none _
  · cases h
    exact hgame

/-- The word is one that quits, where the callback takes it as one. -/
def quitWord (input : List Char) : Nat := if input = "quit".toList then 1 else 0

/-- How many words to quit an event brings. -/
def ConsoleEvent.quits : ConsoleEvent → Nat
  | .type input => quitWord input
  | _ => 0

namespace Stage

theorem waiting_unprompted {maxPlayers : UInt8} {st : Stage} {m : Message}
    (hm : st.next maxPlayers m = some .waiting) :
    st = .waiting ∧ ∀ {cl cl' : Client} {calls : List Call},
      cl.handleRead m = .ok (cl', calls) → ∀ call ∈ calls, ¬call.Prompts := by
  cases st with
  | waiting =>
      refine ⟨rfl, fun {cl cl' calls} hread => ?_⟩
      simp only [next] at hm
      split at hm
      · next htype =>
          rw [Client.handleRead, htype] at hread
          cases hread
          intro call hcall
          rw [List.mem_singleton.mp hcall]
          exact id
      · next htype =>
          rw [Client.handleRead, htype] at hread
          cases hread
          intro call hcall
          rw [List.mem_singleton.mp hcall]
          exact id
      · obtain ⟨_, heq⟩ := Option.ite_none_right_eq_some.mp hm
        cases heq
      · cases hm
  | seated id =>
      simp only [next] at hm
      split at hm
      · cases hm
      · obtain ⟨_, heq⟩ := Option.ite_none_right_eq_some.mp hm
        cases heq
      · obtain ⟨_, heq⟩ := Option.ite_none_right_eq_some.mp hm
        cases heq
      · cases hm
  | playing id =>
      simp only [next] at hm
      split at hm
      · cases hm
      all_goals
        first
        | cases hm
        | obtain ⟨_, heq⟩ := Option.ite_none_right_eq_some.mp hm
          cases heq

end Stage

namespace ConsoleClient

/-! ## What a console client knows -/

def todo (c : ConsoleClient) : List Call :=
  match c.main with
  | .handling calls => calls
  | .joining (.start _ calls) => calls
  | _ => []

/-- It will not read again. -/
def Deaf (c : ConsoleClient) : Prop :=
  match c.main with
  | .polling => c.reading = false
  | .joining .disconnected => c.reading = false
  | .joining .destroyed => True
  | .gone => True
  | _ => False

/-- It did not get to the point after which it will not. -/
def Awake (c : ConsoleClient) : Prop :=
  match c.main with
  | .polling => True
  | .handling _ => True
  | .joining (.start _ _) => True
  | _ => False

/-- The user was asked for nothing yet, and is not about to be. -/
def Unasked (c : ConsoleClient) : Prop :=
  c.inputWorker.thread = none ∧ ∀ call ∈ c.todo, ¬call.Prompts

/-- A console client that has read this much of what it was sent. -/
structure Informed (maxPlayers : UInt8) (sent : List Message) (delivered : Nat)
    (c : ConsoleClient) : Prop where
  bound : delivered ≤ sent.length
  threads : c.Threads
  shown : ∀ call ∈ c.todo, call.ShowsGame → c.client.game ≠ none
  place : c.Deaf ∨ c.Awake ∧ ∃ st,
    run (Stage.next maxPlayers) .waiting (sent.take delivered) = some st ∧
      st.Known maxPlayers c.client ∧ (st = .waiting → c.Unasked)

variable {maxPlayers : UInt8} {sent : List Message} {delivered : Nat} {c c' : ConsoleClient}

theorem connected_informed (sent : List Message) : Informed maxPlayers sent 0 connected :=
  ⟨Nat.zero_le _, connected_threads, List.forall_mem_nil _,
    .inr ⟨trivial, .waiting, rfl, ⟨rfl, rfl, rfl⟩, fun _ => ⟨rfl, List.forall_mem_nil _⟩⟩⟩

theorem Informed.grows {sent' : List Message} (h : c.Informed maxPlayers sent delivered)
    (hsent : sent <+: sent') : c.Informed maxPlayers sent' delivered := by
  refine ⟨h.bound.trans hsent.length_le, h.threads, h.shown, ?_⟩
  obtain ⟨ms, rfl⟩ := hsent
  rw [List.take_append_of_le_length h.bound]
  exact h.place

theorem Deaf.congr (h : c.Deaf) (hmain : c'.main = c.main)
    (hreading : c'.reading = c.reading) : c'.Deaf := by
  rw [Deaf, hmain, hreading]
  exact h

theorem Informed.input (h : c.Informed maxPlayers sent delivered) (hthreads : c'.Threads)
    (hclient : c'.client = c.client) (hmain : c'.main = c.main)
    (hreading : c'.reading = c.reading) (hthread : c.inputWorker.thread ≠ none) :
    c'.Informed maxPlayers sent delivered := by
  have htodo : c'.todo = c.todo := by rw [todo, hmain, todo]
  refine ⟨h.bound, hthreads, ?_, ?_⟩
  · rw [htodo, hclient]
    exact h.shown
  · refine h.place.imp (fun hdeaf => hdeaf.congr hmain hreading) ?_
    · rintro ⟨hawake, st, hword, hknown, hunasked⟩
      refine ⟨by rwa [Awake, hmain], st, hword, hclient ▸ hknown, fun hst => ?_⟩
      exact absurd (hunasked hst).1 hthread

/-- The main thread goes on, as somebody who will not read again. -/
theorem Informed.deaf (h : c.Informed maxPlayers sent delivered) (hthreads : c'.Threads)
    (hdeaf : c'.Deaf) : c'.Informed maxPlayers sent delivered := by
  refine ⟨h.bound, hthreads, fun call hcall => ?_, .inl hdeaf⟩
  have hnone : c'.todo = [] := by
    rw [Deaf] at hdeaf
    rw [todo]
    split
    · next hmain =>
        rw [hmain] at hdeaf
        exact hdeaf.elim
    · next hmain =>
        rw [hmain] at hdeaf
        exact hdeaf.elim
    · rfl
  rw [hnone] at hcall
  cases hcall

theorem Informed.goes (h : c.Informed maxPlayers sent delivered) (hthreads : c'.Threads)
    (hclient : c'.client = c.client) (hlive : ¬c.Deaf) (hawake : c'.Awake)
    (htodo : c'.todo ⊆ c.todo)
    (hthread : c.Unasked → c'.inputWorker.thread = none) :
    c'.Informed maxPlayers sent delivered := by
  refine ⟨h.bound, hthreads, fun call hcall => ?_, .inr ?_⟩
  · rw [hclient]
    exact h.shown call (htodo hcall)
  · obtain ⟨_, st, hword, hknown, hunasked⟩ := h.place.resolve_left hlive
    refine ⟨hawake, st, hword, hclient ▸ hknown, fun hst => ?_⟩
    exact ⟨hthread (hunasked hst), fun call hcall => (hunasked hst).2 call (htodo hcall)⟩

/-! ## One step -/

theorem sendMessage_reading (c : ConsoleClient) (m : Message) :
    (c.sendMessage m).reading = c.reading := by
  rw [sendMessage]
  split <;> rfl

theorem Printed.reading (h : c.Printed c') : c'.reading = c.reading := by
  obtain ⟨_, rfl⟩ := h
  rfl

theorem todo_handling {call : Call} {calls : List Call}
    (hmain : c.main = .handling (call :: calls)) : c.todo = call :: calls := by
  rw [todo, hmain]

theorem not_deaf_of {main : MainThread} (hmain : c.main = main)
    (hlive : (∃ calls, main = .handling calls) ∨ ∃ cb calls, main = .joining (.start cb calls)) :
    ¬c.Deaf := by
  rw [Deaf, hmain]
  rcases hlive with ⟨_, rfl⟩ | ⟨_, _, rfl⟩ <;> exact id

theorem Informed.stopInput_deaf (h : c.Informed maxPlayers sent delivered)
    {d : ConsoleClient} (hd : d.Threads) (hmain : ¬d.Joins) {next : AfterStop}
    (hnext : next = .destroyed ∨ next = .disconnected ∧ d.reading = false)
    (hs : d.stopInput next = .ok c') : c'.Informed maxPlayers sent delivered := by
  have hthreads := hd.stopInput_orderly hmain next
  rw [hs] at hthreads
  refine h.deaf hthreads ?_
  rcases hd.stopInput hmain next with ⟨_, heq⟩ | ⟨_, _, heq⟩ <;>
    obtain rfl := Except.ok.inj (hs.symm.trans heq)
  · rcases hnext with rfl | ⟨rfl, hreading⟩
    · trivial
    · exact hreading
  · rcases hnext with rfl | ⟨rfl, hreading⟩
    · trivial
    · exact hreading

theorem resume_joined (hrunning : c.inputWorker.running = false) (next : AfterStop) :
    ({ c with inputWorker := { c.inputWorker with thread := none } } : ConsoleClient).resume
      next = .ok (({ c with inputWorker := { c.inputWorker with thread := none } } :
        ConsoleClient).resumed next) := by
  refine resume_eq ?_ rfl next
  exact hrunning

theorem Informed.performs (h : c.Informed maxPlayers sent delivered) {call : Call}
    {calls : List Call} (hmain : c.main = .handling (call :: calls))
    (hp : c.Performs calls call (.ok c')) : c'.Informed maxPlayers sent delivered := by
  have hthreads := h.threads.performs hmain hp
  have hlive := not_deaf_of hmain (.inl ⟨_, rfl⟩)
  have htodo := todo_handling hmain
  have hsub : calls ⊆ c.todo := htodo ▸ List.subset_cons_self call calls
  have hasked : call.Prompts → ¬c.Unasked := fun hprompts hunasked =>
    hunasked.2 call (htodo ▸ List.mem_cons_self) hprompts
  generalize hresult : Except.ok c' = result at hp
  cases hp with
  | tells _ hprinted =>
      cases hresult
      exact h.goes hthreads hprinted.client hlive trivial hsub fun hu =>
        (congrArg InputWorker.thread hprinted.worker).trans hu.1
  | sends m =>
      cases hresult
      exact h.goes hthreads (sendMessage_client _ _) hlive trivial hsub fun hu =>
        (congrArg InputWorker.thread (sendMessage_worker _ _)).trans hu.1
  | @greets id d hprinted =>
      rw [start, resume] at hresult
      split at hresult
      · cases hresult
        exact h.goes hthreads hprinted.client hlive trivial hsub
          fun hu => absurd hu (hasked trivial)
      · cases hresult
  | @asks _ callback d hasks hprinted =>
      have hd := h.threads.congr hprinted.worker hprinted.main
      have hjoins := not_joins_handling (hprinted.main.trans hmain)
      rcases hd.stopInput hjoins (.start callback calls) with ⟨_, heq⟩ | ⟨_, _, heq⟩ <;>
        obtain rfl := Except.ok.inj (hresult.trans heq)
      · exact h.goes hthreads hprinted.client hlive trivial hsub
          fun hu => absurd hu (hasked hasks.prompts)
      · exact h.goes hthreads hprinted.client hlive trivial hsub
          fun hu => absurd hu (hasked hasks.prompts)
  | crashes => cases hresult

theorem Informed.step (h : c.Informed maxPlayers sent delivered) {e : ConsoleEvent}
    (he : ConsoleTable.hearsMessage e = false) (hs : c.next e = some c') :
    c'.Informed maxPlayers sent delivered := by
  have hsteps := next_steps hs
  have hthreads := h.threads.steps hsteps
  generalize hresult : Except.ok c' = result at hsteps
  cases hsteps with
  | hears => cases he
  | nullGame => cases he
  | throws => cases he
  | empty hmain =>
      cases hresult
      refine h.deaf hthreads ?_
      rw [Deaf, hmain]
  | @fails d hmain hprinted =>
      have hd : d.Threads := h.threads.congr hprinted.worker hprinted.main
      exact h.stopInput_deaf hd (not_joins_polling (hprinted.main.trans hmain))
        (.inr ⟨rfl, hprinted.reading⟩) hresult.symm
  | performs hmain hp =>
      cases hresult
      exact h.performs hmain hp
  | waits hmain =>
      cases hresult
      exact h.goes hthreads rfl (not_deaf_of hmain (.inl ⟨_, rfl⟩)) trivial (List.nil_subset _)
        fun hu => hu.1
  | @joined next callback hmain hthread =>
      have hrunning := h.threads.stopped ⟨next, hmain⟩
      have hsome : ¬c.Unasked := fun hu => by cases hthread.symm.trans hu.1
      obtain rfl := Except.ok.inj (hresult.trans (resume_joined hrunning next))
      cases next with
      | start callback' calls =>
          refine h.goes hthreads rfl (not_deaf_of hmain (.inr ⟨_, _, rfl⟩)) trivial ?_
            fun hu => absurd hu hsome
          rw [todo, todo, hmain]
          exact List.Subset.refl _
      | disconnected =>
          refine h.place.elim (fun hdeaf => h.deaf hthreads ?_) ?_
          · rw [Deaf, hmain] at hdeaf
            exact hdeaf
          · rintro ⟨hawake, _⟩
            rw [Awake, hmain] at hawake
            exact hawake.elim
      | destroyed => exact h.deaf hthreads trivial
  | leaves hmain =>
      exact h.stopInput_deaf h.threads (not_joins_polling hmain) (.inl rfl) hresult.symm
  | proceeds hthread _ =>
      cases hresult
      exact h.input hthreads rfl rfl rfl (Option.ne_none_iff_exists'.mpr ⟨_, hthread⟩)
  | answers hthread ha =>
      cases hresult
      obtain ⟨_, _, hmain, hclient⟩ := ha.nearer
      refine h.input hthreads hclient hmain ?_ (Option.ne_none_iff_exists'.mpr ⟨_, hthread⟩)
      cases ha with
      | confirms _ hp => exact (sendMessage_reading _ _).trans hp.reading
      | turns => exact sendMessage_reading _ _
      | quits _ _ _ hp => exact hp.reading
      | refuses hp => exact hp.reading
  | crashes => cases hresult
  | stops hthread =>
      cases hresult
      exact h.input hthreads rfl rfl rfl (Option.ne_none_iff_exists'.mpr ⟨_, hthread⟩)

/-- A message that comes next in the order can be heard: the handler does not fail. -/
theorem Informed.handled (htwo : 2 ≤ maxPlayers.toNat)
    (h : c.Informed maxPlayers sent delivered) (hawake : ¬c.Deaf)
    {m : Message} (hm : sent[delivered]? = some m)
    (hword : ∃ last, run (Stage.next maxPlayers) .waiting sent = some last) :
    ∃ st st', run (Stage.next maxPlayers) .waiting (sent.take delivered) = some st ∧
      run (Stage.next maxPlayers) .waiting (sent.take (delivered + 1)) = some st' ∧
      st.next maxPlayers m = some st' ∧ st.Known maxPlayers c.client ∧
      (st = .waiting → c.Unasked) ∧ Stage.Handled maxPlayers c.client m st' := by
  obtain ⟨_, st, hread, hknown, hunasked⟩ := h.place.resolve_left hawake
  obtain ⟨hlt, hget⟩ := List.getElem?_eq_some_iff.mp hm
  have htake : sent.take (delivered + 1) = sent.take delivered ++ [m] := by
    rw [List.take_succ_eq_append_getElem hlt, hget]
  obtain ⟨last, hlast⟩ := hword
  obtain ⟨st', hst'⟩ := run_passes hlast (List.take_prefix (delivered + 1) sent)
  have hnext : st.next maxPlayers m = some st' := by
    rw [htake, run_append, hread] at hst'
    exact (run_singleton (Stage.next maxPlayers) st m).symm.trans hst'
  exact ⟨st, st', hread, hst', hnext, hknown, hunasked, hknown.step htwo hnext⟩

theorem not_deaf_of_reading (hmain : c.main = .polling) (hreading : c.reading = true) :
    ¬c.Deaf := by
  rw [Deaf, hmain, hreading]
  exact Bool.noConfusion

theorem Informed.hears (htwo : 2 ≤ maxPlayers.toNat)
    (h : c.Informed maxPlayers sent delivered) {m : Message} (hm : sent[delivered]? = some m)
    (hword : ∃ last, run (Stage.next maxPlayers) .waiting sent = some last)
    (hs : c.next (.read (.message m)) = some c') :
    (∃ client calls, c.client.handleRead m = .ok (client, calls) ∧ c.main = .polling ∧
      c.reading = true ∧
      c' = { c with reading := false, client := client, main := .handling calls }) ∧
    c'.Informed maxPlayers sent (delivered + 1) := by
  have hsteps := next_steps hs
  have hthreads := h.threads.steps hsteps
  generalize hresult : Except.ok c' = result at hsteps
  cases hsteps with
  | @hears _ client calls hmain hreading hread =>
      cases hresult
      refine ⟨⟨client, calls, hread, hmain, hreading, rfl⟩, ?_⟩
      obtain ⟨st, st', _, hread', hnext, hknown, hunasked, cl', calls', hok, hknown', hmeant⟩ :=
        h.handled htwo (not_deaf_of_reading hmain hreading) hm hword
      obtain ⟨rfl, rfl⟩ := Prod.mk.inj (Except.ok.inj (hread.symm.trans hok))
      obtain ⟨hlt, _⟩ := List.getElem?_eq_some_iff.mp hm
      refine ⟨hlt, hthreads, fun call hcall hshows => ?_,
        .inr ⟨trivial, st', hread', hknown', fun hwaiting => ?_⟩⟩
      · exact Client.handleRead_game hread ((hmeant call hcall).game hshows)
      · subst hwaiting
        obtain ⟨hst, hcalls⟩ := Stage.waiting_unprompted hnext
        exact ⟨(hunasked hst).1, hcalls hread⟩
  | nullGame => cases hresult
  | throws hmain hreading hread =>
      obtain ⟨_, _, _, _, _, _, _, _, _, hok, _⟩ :=
        h.handled htwo (not_deaf_of_reading hmain hreading) hm hword
      cases hread.symm.trans hok
  | proceeds _ hp => cases hp

/-- The one way to crash that is left. -/
theorem Informed.crash (htwo : 2 ≤ maxPlayers.toNat)
    (h : c.Informed maxPlayers sent delivered) {e : ConsoleEvent}
    (hm : ∀ m, e = .read (.message m) → sent[delivered]? = some m)
    (hword : ∃ last, run (Stage.next maxPlayers) .waiting sent = some last)
    {crash : Crash} (hs : c.step e = some (.error crash)) :
    crash = .nullSocket ∧ e = .callback ∧ c.socket = false ∧
      ∃ callback, c.inputWorker.thread = some ⟨callback, .calling "quit".toList⟩ := by
  have hsteps := step_steps hs
  have hthreads := h.threads.steps hsteps
  generalize hresult : Except.error crash = result at hsteps
  have hstop : ∀ {d : ConsoleClient} (next : AfterStop), d.Threads → ¬d.Joins →
      d.stopInput next ≠ .error crash := by
    intro d next hd hjoins heq
    rcases hd.stopInput hjoins next with ⟨_, hok⟩ | ⟨_, _, hok⟩ <;> cases heq.symm.trans hok
  cases hsteps with
  | hears => cases hresult
  | nullGame hmain hreading hread =>
      obtain ⟨_, _, _, _, _, _, _, _, _, hok, _⟩ :=
        h.handled htwo (not_deaf_of_reading hmain hreading) (hm _ rfl) hword
      cases hread.symm.trans hok
  | throws hmain hreading hread =>
      obtain ⟨_, _, _, _, _, _, _, _, _, hok, _⟩ :=
        h.handled htwo (not_deaf_of_reading hmain hreading) (hm _ rfl) hword
      cases hread.symm.trans hok
  | empty => cases hresult
  | fails hmain hprinted =>
      exact absurd hresult.symm (hstop _ (h.threads.congr hprinted.worker hprinted.main)
        (not_joins_polling (hprinted.main.trans hmain)))
  | @performs call calls _ hmain hp =>
      have hlive : c.todo = call :: calls := todo_handling hmain
      cases hp with
      | tells => cases hresult
      | sends => cases hresult
      | @greets id d hprinted =>
          rcases (h.threads.congr hprinted.worker hprinted.main).start
            (not_joins_handling (hprinted.main.trans hmain)) .ready calls with
            ⟨_, heq⟩ | ⟨_, _, heq⟩
          · cases hresult.trans heq
          · cases hresult.trans heq
      | asks _ hprinted =>
          exact absurd hresult.symm (hstop _ (h.threads.congr hprinted.worker hprinted.main)
            (not_joins_handling (hprinted.main.trans hmain)))
      | crashes hshows hnone =>
          exact absurd hnone (h.shown call (hlive ▸ List.mem_cons_self) hshows)
  | waits => cases hresult
  | @joined next callback hmain hthread =>
      have hrunning := h.threads.stopped ⟨next, hmain⟩
      cases hresult.trans (resume_joined hrunning next)
  | leaves hmain => exact absurd hresult.symm (hstop _ h.threads (not_joins_polling hmain))
  | proceeds => cases hresult
  | answers => cases hresult
  | @crashes callback input _ hthread ha =>
      cases hresult
      cases ha with
      | crashes _ hquit hsocket => exact ⟨rfl, rfl, hsocket, callback, hquit ▸ hthread⟩
  | stops => cases hresult

/-! ## Counting how often the user quits -/

/-- The word to quit that the input thread has read and not acted on. -/
def held (w : InputWorker) : Nat :=
  match w.thread with
  | some ⟨_, .checking input⟩ => quitWord input
  | some ⟨_, .calling input⟩ => quitWord input
  | _ => 0

/-- The words to quit that got somewhere. -/
def quits (c : ConsoleClient) : Nat := (if c.socket then 0 else 1) + held c.inputWorker

theorem quits_congr (hsocket : c'.socket = c.socket) (hw : c'.inputWorker = c.inputWorker) :
    c'.quits = c.quits := by
  rw [quits, quits, hsocket, hw]

theorem sendMessage_socket (c : ConsoleClient) (m : Message) :
    (c.sendMessage m).socket = c.socket := by
  rw [sendMessage]
  split <;> rfl

theorem Printed.socket (h : c.Printed c') : c'.socket = c.socket := by
  obtain ⟨_, rfl⟩ := h
  rfl

theorem resume_same {next : AfterStop} (h : c.resume next = .ok c') :
    c'.screen = c.screen ∧ c'.client = c.client ∧ c'.socket = c.socket := by
  cases next with
  | start callback calls =>
      rw [resume] at h
      split at h <;> cases h
      exact ⟨rfl, rfl, rfl⟩
  | disconnected =>
      cases h
      exact ⟨rfl, rfl, rfl⟩
  | destroyed =>
      rw [resume] at h
      split at h <;> cases h
      exact ⟨rfl, rfl, rfl⟩

theorem stopInput_same {next : AfterStop} (h : c.stopInput next = .ok c') :
    c'.screen = c.screen ∧ c'.client = c.client ∧ c'.socket = c.socket := by
  rw [stopInput] at h
  split at h
  · split at h <;> cases h
    exact ⟨rfl, rfl, rfl⟩
  · exact resume_same h

theorem Printed.quits (h : c.Printed c') : c'.quits = c.quits :=
  quits_congr h.socket h.worker

end ConsoleClient

namespace ConsoleTable

variable {maxPlayers : UInt8} {t t' : ConsoleTable}

/-! ## The whole table -/

@[simp] theorem modify_consoles_self (t : ConsoleTable) (c : ConnId)
    (f : ConsoleClient → ConsoleClient) :
    (t.modify c f).consoles c = f (t.consoles c) :=
  Function.update_self ..

theorem modify_consoles_of_ne (t : ConsoleTable) {c d : ConnId} (h : d ≠ c)
    (f : ConsoleClient → ConsoleClient) : (t.modify c f).consoles d = t.consoles d :=
  Function.update_of_ne h ..

/-- The table after console `c` heard a message and became `k`. -/
def heard (t : ConsoleTable) (c : ConnId) (k : ConsoleClient) : ConsoleTable :=
  { t with delivered := Function.update t.delivered c (t.delivered c + 1) }.modify c fun _ => k

/-- The table after another step of console `c`. -/
def moved (t : ConsoleTable) (c : ConnId) (k : ConsoleClient) : ConsoleTable :=
  t.modify c fun old => if (t.room.conns c).isAlive then k else { k with outbox := old.outbox }

inductive Moves (t : ConsoleTable) : ConsoleTableEvent → ConsoleTable → Prop
  | room {e : RoomEvent} {r : Room} (silent : ¬Table.readsMessage e = true)
      (step : t.room.step e = some r) : Moves t (.room e) { t with room := r }
  | receive {c : ConnId} {first : UInt8} {m : Message} {rest : List Message} {r : Room}
      (outbox : (t.consoles c).outbox = m :: rest)
      (step : t.room.step (.read c (.message m) first none) = some r) :
      Moves t (.receive c first)
        ({ t with room := r }.modify c fun k => { k with outbox := rest })
  | deliver {c : ConnId} {m : Message} {k : ConsoleClient}
      (next : (Network.sent t.room c)[t.delivered c]? = some m)
      (taken : (t.consoles c).next (.read (.message m)) = some k) :
      Moves t (.deliver c) (t.heard c k)
  | console {c : ConnId} {e : ConsoleEvent} {k : ConsoleClient}
      (silent : hearsMessage e = false) (taken : (t.consoles c).next e = some k) :
      Moves t (.console c e) (t.moved c k)

theorem step_moves {e : ConsoleTableEvent} (hs : t.step e = some t') : t.Moves e t' := by
  cases e with
  | room e =>
      obtain ⟨hread, hs⟩ := Option.ite_none_left_eq_some.mp hs
      obtain ⟨r, hr, rfl⟩ := Option.map_eq_some_iff.mp hs
      exact .room hread hr
  | receive c first =>
      rw [step] at hs
      split at hs
      · cases hs
      · next m rest hbox =>
          obtain ⟨r, hr, rfl⟩ := Option.map_eq_some_iff.mp hs
          exact .receive hbox hr
  | deliver c =>
      obtain ⟨m, hm, hs⟩ := Option.bind_eq_some_iff.mp hs
      obtain ⟨k, hk, rfl⟩ := Option.map_eq_some_iff.mp hs
      exact .deliver hm hk
  | console c e =>
      obtain ⟨hread, hs⟩ := Option.ite_none_left_eq_some.mp hs
      obtain ⟨k, hk, rfl⟩ := Option.map_eq_some_iff.mp hs
      exact .console (Bool.eq_false_iff.mpr hread) hk

/-- The lobby is one that was reached, and every console knows where it stands. -/
structure Sound (maxPlayers : UInt8) (t : ConsoleTable) : Prop where
  room : Reachable Room.step (Room.started maxPlayers) t.room
  informed : ∀ c,
    (t.consoles c).Informed maxPlayers (Network.sent t.room c) (t.delivered c)

theorem started_sound (maxPlayers : UInt8) : (started maxPlayers).Sound maxPlayers :=
  ⟨.refl, fun _ => ConsoleClient.connected_informed _⟩

theorem Sound.word (htwo : 2 ≤ maxPlayers.toNat) (h : t.Sound maxPlayers) (c : ConnId) :
    ∃ last, run (Stage.next maxPlayers) .waiting (Network.sent t.room c) = some last := by
  obtain ⟨last, hword, _⟩ := (Room.reachable_dialogue htwo h.room).word c
  exact ⟨last, Room.reachable_maxPlayers h.room ▸ hword⟩

theorem Sound.room_step (htwo : 2 ≤ maxPlayers.toNat) (h : t.Sound maxPlayers)
    {e : RoomEvent} {r : Room} (hs : t.room.step e = some r) :
    Reachable Room.step (Room.started maxPlayers) r ∧
      ∀ c, Network.sent t.room c <+: Network.sent r c :=
  ⟨.step h.room trivial hs,
    (Room.run_grows htwo h.room ((run_singleton Room.step t.room e).trans hs)).1⟩

theorem informed_outbox {sent : List Message} {delivered : Nat} {k : ConsoleClient}
    (h : k.Informed maxPlayers sent delivered) (outbox : List Message) :
    ConsoleClient.Informed maxPlayers sent delivered { k with outbox := outbox } :=
  ⟨h.bound, h.threads.congr rfl rfl, h.shown, h.place⟩

theorem Sound.step (htwo : 2 ≤ maxPlayers.toNat) (h : t.Sound maxPlayers)
    {e : ConsoleTableEvent} (hs : t.step e = some t') : t'.Sound maxPlayers := by
  have hm := step_moves hs
  cases hm with
  | room _ hroom =>
      obtain ⟨hr, hgrows⟩ := h.room_step htwo hroom
      exact ⟨hr, fun d => (h.informed d).grows (hgrows d)⟩
  | @receive c _ _ rest _ _ hroom =>
      obtain ⟨hr, hgrows⟩ := h.room_step htwo hroom
      refine ⟨hr, fun d => ?_⟩
      by_cases hd : d = c
      · subst hd
        rw [modify_consoles_self]
        exact informed_outbox ((h.informed d).grows (hgrows d)) rest
      · rw [modify_consoles_of_ne _ hd]
        exact (h.informed d).grows (hgrows d)
  | @deliver c m k hnext htaken =>
      refine ⟨h.room, fun d => ?_⟩
      by_cases hd : d = c
      · subst hd
        have hk := ((h.informed d).hears htwo hnext (h.word htwo d) htaken).2
        rw [heard, modify_consoles_self]
        show k.Informed maxPlayers (Network.sent t.room d)
          (Function.update t.delivered d (t.delivered d + 1) d)
        rwa [Function.update_self]
      · rw [heard, modify_consoles_of_ne _ hd]
        show (t.consoles d).Informed maxPlayers (Network.sent t.room d)
          (Function.update t.delivered c (t.delivered c + 1) d)
        rw [Function.update_of_ne hd]
        exact h.informed d
  | @console c _ k hsilent htaken =>
      refine ⟨h.room, fun d => ?_⟩
      by_cases hd : d = c
      · subst hd
        have hk := (h.informed d).step hsilent htaken
        rw [moved, modify_consoles_self]
        show ConsoleClient.Informed maxPlayers (Network.sent t.room d) (t.delivered d) _
        split
        · exact hk
        · exact informed_outbox hk _
      · rw [moved, modify_consoles_of_ne _ hd]
        exact h.informed d

end ConsoleTable

end ConnectDisks.Net
