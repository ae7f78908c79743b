import ConnectDisks.Client.ConsoleClient
import ConnectDisks.Lib.Run
import ConnectDisks.Proofs.Text

/-!
# The threads of a console client

The input thread is started, stopped and joined by the main thread alone, and the main
thread does nothing else while it waits in `stop`. So there is a thread object to join
exactly while the worker is running or is being stopped (`Threads`), whatever the server
sends, whatever the user types and however the two threads interleave: no thread is
assigned to or destroyed that was not joined, none is joined that is not there, and none
is left when the client's life is over (`threads_safe`).

Waiting in `stop` is another matter. The input thread may be waiting for the user, and the
main thread, which would have to answer pings, waits with it. `blocked_briefly` says how
long that is: three steps at most, of which one is a word the user types.
-/

namespace ConnectDisks.Net

open ConnectDisks.Game Lib

/-- A call that is done when something was printed. -/
def Call.Tells : Call → Prop
  | .onQueueUpdate _ => True
  | .onGameStart _ _ _ _ => True
  | .onGameUpdate _ _ => True
  | .onTurnResult _ _ => True
  | _ => False

def Call.ShowsGame : Call → Prop
  | .onGameUpdate _ _ => True
  | .onTurnResult result _ => result = turnResultByte .success
  | .handleTurnRequest => True
  | _ => False

/-- A call that asks the user for something new. -/
inductive Call.Asks (cl : Client) : Call → InputCallback → Prop
  | rematch (winner : UInt8) : Asks cl (.onGameEnd winner) .rematch
  | turn (game : ValidGame) : cl.game = some game →
      Asks cl .handleTurnRequest (.turn game.getNumColumns)

namespace ConsoleClient

/-! ## The ways a call can go -/

def Printed (c c' : ConsoleClient) : Prop := ∃ text, c' = { c with screen := text }

theorem Printed.refl (c : ConsoleClient) : c.Printed c := ⟨c.screen, rfl⟩

theorem Printed.print {c c' : ConsoleClient} (h : c.Printed c') (text : String) :
    c.Printed (c'.print text) := by
  obtain ⟨before, rfl⟩ := h
  exact ⟨before ++ text.toList, rfl⟩

theorem Printed.printInt {c c' : ConsoleClient} (h : c.Printed c') (n : Nat) :
    c.Printed (c'.printInt n) := by
  obtain ⟨before, rfl⟩ := h
  exact ⟨before ++ intText n, rfl⟩

theorem Printed.client {c c' : ConsoleClient} (h : c.Printed c') : c'.client = c.client := by
  obtain ⟨_, rfl⟩ := h
  rfl

theorem Printed.printGame {c c' : ConsoleClient} (h : c.Printed c') :
    (c.client.game = none ∧ c'.printGame = .error .nullGame) ∨
    ∃ game c'', c.client.game = some game ∧ c'.printGame = .ok c'' ∧ c.Printed c'' := by
  rw [ConsoleClient.printGame, h.client]
  cases hgame : c.client.game with
  | none => exact .inl ⟨rfl, rfl⟩
  | some game =>
      obtain ⟨_, _, htext, _⟩ := game.reachable.board_reads
      obtain ⟨before, rfl⟩ := h
      simp only [htext]
      exact .inr ⟨game, _, rfl, rfl, Printed.print ⟨_, rfl⟩ _⟩

inductive Performs (c : ConsoleClient) (calls : List Call) :
    Call → Except Crash ConsoleClient → Prop
  | tells {call : Call} {c' : ConsoleClient} : call.Tells → c.Printed c' →
      Performs c calls call (.ok { c' with main := .handling calls })
  | sends (m : Message) :
      Performs c calls (.sendMessage m) (.ok { c.sendMessage m with main := .handling calls })
  | greets (id : UInt8) {c' : ConsoleClient} : c.Printed c' →
      Performs c calls (.onConnect id) (c'.start .ready calls)
  | asks {call : Call} {callback : InputCallback} {c' : ConsoleClient} :
      call.Asks c.client callback → c.Printed c' →
      Performs c calls call (c'.restart callback calls)
  | crashes {call : Call} : call.ShowsGame → c.client.game = none →
      Performs c calls call (.error .nullGame)

theorem onTurnResult_cases (c : ConsoleClient) (result : UInt8) :
    (result = turnResultByte .success ∧ c.client.game = none ∧
      c.onTurnResult result = .error .nullGame) ∨
    ∃ c', c.onTurnResult result = .ok c' ∧ c.Printed c' := by
  have hprint := fun text => (Printed.refl c).print text
  rw [onTurnResult]
  by_cases hr : result = turnResultByte .success
  · rw [if_pos hr]
    rcases (hprint "Your move was accepted\n").printGame with
      ⟨hnone, h⟩ | ⟨_, c', _, h, hp⟩
    · exact .inl ⟨hr, hnone, h⟩
    · exact .inr ⟨c', h, hp⟩
  · rw [if_neg hr]
    refine .inr ?_
    split
    · exact ⟨_, rfl, hprint _⟩
    · split
      · exact ⟨_, rfl, hprint _⟩
      · split
        · exact ⟨_, rfl, hprint _⟩
        · split <;> exact ⟨_, rfl, hprint _⟩

theorem perform_performs (c : ConsoleClient) (calls : List Call) (call : Call) :
    c.Performs calls call (c.perform calls call) := by
  have hp := Printed.refl c
  cases call with
  | onConnect id =>
      rw [perform, onConnect]
      exact .greets id (((hp.print _).printInt _).print _)
  | onQueueUpdate position =>
      rw [perform, onQueueUpdate]
      exact .tells trivial (((hp.print _).printInt _).print _)
  | onGameStart numPlayers first cols rows =>
      rw [perform, onGameStart]
      refine .tells trivial ?_
      exact ((((((((hp.print _).printInt _).print _).printInt _).print _).printInt _).print
        _).printInt _).print _
  | onGameEnd winner =>
      rw [perform, onGameEnd]
      split
      · exact .asks (.rematch winner) ((hp.print _).print _)
      · exact .asks (.rematch winner) ((((hp.print _).printInt _).print _).print _)
  | onGameUpdate player col =>
      rw [perform, onGameUpdate]
      rcases hp.printGame with ⟨hnone, h⟩ | ⟨_, c', _, h, hp'⟩ <;> rw [h]
      · exact .crashes trivial hnone
      · exact .tells trivial (((((hp'.print _).printInt _).print _).printInt _).print _)
  | onTurnResult result column =>
      rw [perform]
      rcases c.onTurnResult_cases result with ⟨hr, hnone, h⟩ | ⟨c', h, hp'⟩ <;> rw [h]
      · exact .crashes hr hnone
      · exact .tells trivial hp'
  | handleTurnRequest =>
      rw [perform, handleTurnRequest]
      rcases hp.printGame with ⟨hnone, h⟩ | ⟨game, c', hgame, h, hp'⟩ <;> rw [h]
      · exact .crashes trivial hnone
      · rw [hgame]
        exact .asks (.turn game hgame) (((hp'.print _).printInt _).print _)
  | sendMessage m => exact .sends m

/-! ## The ways a callback and a step can go -/

/-- The callbacks that wait for one word. -/
def Confirms : InputCallback → Prop
  | .ready => True
  | .rematch => True
  | .turn _ => False

inductive Answers (c : ConsoleClient) (input : List Char) :
    InputCallback → Except Crash (ConsoleClient × Position) → Prop
  | confirms {callback : InputCallback} {c' : ConsoleClient} : Confirms callback →
      c.Printed c' → Answers c input callback (.ok (c'.toggleReady, .returned))
  | turns {maxColumns column : UInt8} : turnColumn maxColumns input = some column →
      Answers c input (.turn maxColumns) (.ok (c.sendTurn column, .returned))
  | quits {callback : InputCallback} {c' : ConsoleClient} : Confirms callback →
      input = "quit".toList → c.socket = true → c.Printed c' →
      Answers c input callback (.ok ({ c' with socket := false }, .stopping))
  | crashes {callback : InputCallback} : Confirms callback → input = "quit".toList →
      c.socket = false → Answers c input callback (.error .nullSocket)
  | refuses {callback : InputCallback} {c' : ConsoleClient} : c.Printed c' →
      Answers c input callback (.ok (c', .testing))

theorem confirm_answers (c : ConsoleClient) (input : List Char)
    (word request farewell : String) {callback : InputCallback} (h : Confirms callback) :
    c.Answers input callback (c.confirm input word request farewell) := by
  have hp := Printed.refl c
  rw [confirm]
  by_cases hword : input = word.toList
  · rw [if_pos hword]
    exact .confirms h (hp.print _)
  · rw [if_neg hword]
    by_cases hquit : input = "quit".toList
    · rw [if_pos hquit, disconnect]
      cases hsocket : c.socket with
      | true =>
          rw [if_pos (show (c.print farewell).socket = true from hsocket)]
          exact .quits h hquit hsocket (hp.print _)
      | false =>
          rw [if_neg (show ¬(c.print farewell).socket = true by rw [print, hsocket]; decide)]
          exact .crashes h hquit hsocket
    · rw [if_neg hquit]
      exact .refuses (hp.print _)

theorem callback_answers (c : ConsoleClient) (input : List Char) (callback : InputCallback) :
    c.Answers input callback (c.callback input callback) := by
  cases callback with
  | ready => exact c.confirm_answers input _ _ _ trivial
  | rematch => exact c.confirm_answers input _ _ _ trivial
  | turn maxColumns =>
      rw [ConsoleClient.callback]
      cases hcolumn : turnColumn maxColumns input with
      | some column => exact .turns hcolumn
      | none => exact .refuses ((Printed.refl c).print _)

/-- The input thread passes a test of `running`, or gets a word. -/
inductive Proceeds (running : Bool) : Position → ConsoleEvent → Position → Prop
  | reads : running = true → Proceeds running .testing .test .reading
  | returns : running = false → Proceeds running .testing .test .returned
  | types (input : List Char) : Proceeds running .reading (.type input) (.checking input)
  | calls (input : List Char) : running = true →
      Proceeds running (.checking input) .check (.calling input)
  | drops (input : List Char) : running = false →
      Proceeds running (.checking input) .check .testing

/-- Every step, by the thread that takes it. -/
inductive Steps (c : ConsoleClient) : ConsoleEvent → Except Crash ConsoleClient → Prop
  | hears {m : Message} {client : Client} {calls : List Call} : c.main = .polling →
      c.reading = true → c.client.handleRead m = .ok (client, calls) →
      Steps c (.read (.message m))
        (.ok { c with reading := false, client := client, main := .handling calls })
  | nullGame {m : Message} : c.main = .polling → c.reading = true →
      c.client.handleRead m = .error .nullGame →
      Steps c (.read (.message m)) (.error .nullGame)
  | throws {m : Message} {fault : Fault} : c.main = .polling → c.reading = true →
      c.client.handleRead m = .error (.thrown fault) →
      Steps c (.read (.message m)) ({ c with reading := false }.stopInput .destroyed)
  | empty : c.main = .polling → Steps c (.read .empty) (.ok { c with reading := false })
  | fails {c' : ConsoleClient} : c.main = .polling →
      Printed { c with reading := false, client := { c.client with isConnected := false } } c' →
      Steps c (.read .failed) (c'.stopInput .disconnected)
  | performs {call : Call} {calls : List Call} {result : Except Crash ConsoleClient} :
      c.main = .handling (call :: calls) → c.Performs calls call result → Steps c .call result
  | waits : c.main = .handling [] →
      Steps c .call (.ok { c.waitForMessages with main := .polling })
  | joined {next : AfterStop} {callback : InputCallback} : c.main = .joining next →
      c.inputWorker.thread = some ⟨callback, .returned⟩ →
      Steps c .joined
        ({ c with inputWorker := { c.inputWorker with thread := none } }.resume next)
  | leaves : c.main = .polling → Steps c .leave (c.stopInput .destroyed)
  | proceeds {callback : InputCallback} {position position' : Position} {e : ConsoleEvent} :
      c.inputWorker.thread = some ⟨callback, position⟩ →
      Proceeds c.inputWorker.running position e position' →
      Steps c e (.ok (c.moveTo callback position'))
  | answers {callback : InputCallback} {input : List Char} {c' : ConsoleClient}
      {position : Position} : c.inputWorker.thread = some ⟨callback, .calling input⟩ →
      c.Answers input callback (.ok (c', position)) →
      Steps c .callback (.ok (c'.moveTo callback position))
  | crashes {callback : InputCallback} {input : List Char} {crash : Crash} :
      c.inputWorker.thread = some ⟨callback, .calling input⟩ →
      c.Answers input callback (.error crash) → Steps c .callback (.error crash)
  | stops {callback : InputCallback} : c.inputWorker.thread = some ⟨callback, .stopping⟩ →
      Steps c .stopContext (.ok (c.stopContext.moveTo callback .testing))

theorem mainStep_steps {c : ConsoleClient} {e : ConsoleEvent}
    {result : Except Crash ConsoleClient} (h : c.mainStep e = some result) :
    c.Steps e result := by
  cases e with
  | read completion =>
      obtain ⟨⟨hmain, hreading, _⟩, heq⟩ := Option.ite_none_right_eq_some.mp h
      rw [← Option.some.inj heq]
      cases completion with
      | message m =>
          rw [handleRead]
          cases hm : c.client.handleRead m with
          | ok out => exact .hears hmain hreading hm
          | error fault =>
              cases fault with
              | nullGame => exact .nullGame hmain hreading hm
              | thrown fault => exact .throws hmain hreading hm
      | empty => exact .empty hmain
      | failed => exact .fails hmain ((Printed.refl _).print _)
  | call =>
      rw [mainStep] at h
      split at h
      · next hmain =>
          rw [← Option.some.inj h]
          exact .waits hmain
      · next call calls hmain =>
          rw [← Option.some.inj h]
          exact .performs hmain (c.perform_performs calls call)
      · cases h
  | joined =>
      rw [mainStep] at h
      split at h
      · next next callback hmain hthread =>
          rw [← Option.some.inj h]
          exact .joined hmain hthread
      · cases h
  | leave =>
      obtain ⟨⟨hmain, _⟩, heq⟩ := Option.ite_none_right_eq_some.mp h
      rw [← Option.some.inj heq]
      exact .leaves hmain
  | test => cases h
  | type input => cases h
  | check => cases h
  | callback => cases h
  | stopContext => cases h

theorem inputStep_steps {c : ConsoleClient} {callback : InputCallback} {position : Position}
    (hthread : c.inputWorker.thread = some ⟨callback, position⟩) {e : ConsoleEvent}
    {result : Except Crash ConsoleClient} (h : c.inputStep callback position e = some result) :
    c.Steps e result := by
  unfold inputStep at h
  split at h
  · rw [← Option.some.inj h]
    cases hrunning : c.inputWorker.running with
    | true => exact .proceeds hthread (.reads hrunning)
    | false => exact .proceeds hthread (.returns hrunning)
  · rw [← Option.some.inj h]
    exact .proceeds hthread (.types _)
  · rw [← Option.some.inj h]
    cases hrunning : c.inputWorker.running with
    | true => exact .proceeds hthread (.calls _ hrunning)
    | false => exact .proceeds hthread (.drops _ hrunning)
  · next input =>
      have hanswers := c.callback_answers input callback
      split at h
      · next c' position' hout =>
          rw [← Option.some.inj h]
          exact .answers hthread (hout ▸ hanswers)
      · next crash hout =>
          rw [← Option.some.inj h]
          exact .crashes hthread (hout ▸ hanswers)
  · rw [← Option.some.inj h]
    exact .stops hthread
  · cases h

theorem step_steps {c : ConsoleClient} {e : ConsoleEvent}
    {result : Except Crash ConsoleClient} (h : c.step e = some result) : c.Steps e result := by
  rw [step] at h
  split at h
  · next hmain =>
      obtain rfl := Option.some.inj h
      exact mainStep_steps hmain
  · next hthread => exact inputStep_steps hthread h
  · cases h

/-! ## Starting and stopping the input thread -/

/-- The main thread waits for the input thread. -/
def Joins (c : ConsoleClient) : Prop := ∃ next, c.main = .joining next

structure Threads (c : ConsoleClient) : Prop where
  attended : c.inputWorker.thread ≠ none ↔ c.inputWorker.running = true ∨ c.Joins
  stopped : c.Joins → c.inputWorker.running = false
  gone : c.main = .gone → c.inputWorker.running = false

/-- What `resume` comes to when there is no thread. -/
def resumed (c : ConsoleClient) : AfterStop → ConsoleClient
  | .start callback calls =>
      { c with inputWorker := ⟨some ⟨callback, .testing⟩, true⟩, main := .handling calls }
  | .disconnected => { c with main := .polling }
  | .destroyed => { c with stopped := true, main := .gone }

theorem resume_eq {c : ConsoleClient} (hrunning : c.inputWorker.running = false)
    (hthread : c.inputWorker.thread = none) (next : AfterStop) :
    c.resume next = .ok (c.resumed next) := by
  cases next with
  | start callback calls =>
      rw [resume, InputWorker.start, if_neg (by simp [hrunning]), hthread]
      rfl
  | disconnected => rfl
  | destroyed =>
      rw [resume, hthread]
      rfl

theorem resumed_threads {c : ConsoleClient} (hrunning : c.inputWorker.running = false)
    (hthread : c.inputWorker.thread = none) (next : AfterStop) :
    (c.resumed next).Threads := by
  cases next with
  | start callback calls =>
      refine ⟨⟨fun _ => .inl rfl, fun _ => ?_⟩, ?_, ?_⟩
      · rintro ⟨⟩
      · rintro ⟨_, ⟨⟩⟩
      · rintro ⟨⟩
  | disconnected =>
      refine ⟨⟨fun h => absurd hthread h, ?_⟩, ?_, ?_⟩
      · rintro (h | ⟨_, ⟨⟩⟩)
        exact absurd (hrunning.symm.trans h) (by decide)
      · rintro ⟨_, ⟨⟩⟩
      · rintro ⟨⟩
  | destroyed =>
      refine ⟨⟨fun h => absurd hthread h, ?_⟩, ?_, fun _ => hrunning⟩
      · rintro (h | ⟨_, ⟨⟩⟩)
        exact absurd (hrunning.symm.trans h) (by decide)
      · rintro ⟨_, ⟨⟩⟩

/-- `stop` waits for the thread if there is one, and otherwise what follows it goes well. -/
theorem Threads.stopInput {c : ConsoleClient} (h : c.Threads) (hmain : ¬c.Joins)
    (next : AfterStop) :
    (c.inputWorker.running = true ∧ c.stopInput next =
      .ok { c with inputWorker := { c.inputWorker with running := false }
                   main := .joining next }) ∨
    (c.inputWorker.running = false ∧ c.inputWorker.thread = none ∧
      c.stopInput next = .ok (c.resumed next)) := by
  have hattended := h.attended
  rw [ConsoleClient.stopInput]
  cases hrunning : c.inputWorker.running with
  | true =>
      have hthread : c.inputWorker.thread ≠ none := hattended.mpr (.inl hrunning)
      obtain ⟨thread, hthread⟩ := Option.ne_none_iff_exists'.mp hthread
      rw [if_pos rfl, hthread]
      exact .inl ⟨rfl, rfl⟩
  | false =>
      have hthread : c.inputWorker.thread = none := by
        by_contra hsome
        rcases hattended.mp hsome with hrun | hjoins
        · exact absurd (hrunning.symm.trans hrun) (by decide)
        · exact hmain hjoins
      rw [if_neg (by decide)]
      exact .inr ⟨rfl, hthread, resume_eq hrunning hthread next⟩

theorem Threads.start {c : ConsoleClient} (h : c.Threads) (hmain : ¬c.Joins)
    (callback : InputCallback) (calls : List Call) :
    (c.inputWorker.running = true ∧
      c.start callback calls = .ok { c with main := .handling calls }) ∨
    (c.inputWorker.running = false ∧ c.inputWorker.thread = none ∧
      c.start callback calls = .ok (c.resumed (.start callback calls))) := by
  rcases h.stopInput hmain .disconnected with ⟨hrunning, _⟩ | ⟨hrunning, hthread, _⟩
  · refine .inl ⟨hrunning, ?_⟩
    rw [ConsoleClient.start, resume, InputWorker.start, if_pos hrunning]
  · exact .inr ⟨hrunning, hthread, resume_eq hrunning hthread _⟩

/-- What a step may come to, as far as the threads go. -/
def Orderly : Except Crash ConsoleClient → Prop
  | .ok c => c.Threads
  | .error crash => crash ≠ .terminated ∧ crash ≠ .notJoinable

theorem resume_orderly {c : ConsoleClient} (hrunning : c.inputWorker.running = false)
    (hthread : c.inputWorker.thread = none) (next : AfterStop) : Orderly (c.resume next) := by
  rw [resume_eq hrunning hthread]
  exact resumed_threads hrunning hthread next

theorem Threads.stopInput_orderly {c : ConsoleClient} (h : c.Threads) (hmain : ¬c.Joins)
    (next : AfterStop) : Orderly (c.stopInput next) := by
  rcases h.stopInput hmain next with ⟨hrunning, heq⟩ | ⟨hrunning, hthread, heq⟩ <;> rw [heq]
  · have hthread := h.attended.mpr (.inl hrunning)
    exact ⟨⟨fun _ => .inr ⟨next, rfl⟩, fun _ => hthread⟩, fun _ => rfl, by rintro ⟨⟩⟩
  · exact resumed_threads hrunning hthread next

/-- Only the worker and the place of the main thread matter. -/
theorem Threads.congr {c c' : ConsoleClient} (h : c.Threads)
    (hw : c'.inputWorker = c.inputWorker) (hm : c'.main = c.main) : c'.Threads := by
  refine ⟨?_, fun hj => ?_, fun hg => ?_⟩
  · rw [hw, Joins, hm]
    exact h.attended
  · rw [hw]
    exact h.stopped (by rwa [Joins, hm] at hj)
  · rw [hw]
    exact h.gone (hm ▸ hg)

theorem Threads.goes {c c' : ConsoleClient} (h : c.Threads) (hmain : ¬c.Joins)
    (hw : c'.inputWorker = c.inputWorker) (hmain' : ¬c'.Joins) (hover : c'.main ≠ .gone) :
    c'.Threads := by
  refine ⟨?_, fun hj => absurd hj hmain', fun hg => absurd hg hover⟩
  rw [hw, h.attended]
  simp only [hmain, hmain']

theorem Threads.moveTo {c c' : ConsoleClient} (h : c.Threads)
    (hthread : c.inputWorker.thread ≠ none) (hw : c'.inputWorker = c.inputWorker)
    (hm : c'.main = c.main) (callback : InputCallback) (position : Position) :
    Orderly (.ok (c'.moveTo callback position)) := by
  have h' := h.congr hw hm
  exact ⟨⟨fun _ => h'.attended.mp (hw ▸ hthread), fun _ => Option.some_ne_none _⟩,
    h'.stopped, h'.gone⟩

theorem not_joins_polling {c : ConsoleClient} (h : c.main = .polling) : ¬c.Joins := by
  rintro ⟨next, hj⟩
  cases h.symm.trans hj

theorem not_joins_handling {c : ConsoleClient} {calls : List Call}
    (h : c.main = .handling calls) : ¬c.Joins := by
  rintro ⟨next, hj⟩
  cases h.symm.trans hj

theorem sendMessage_worker (c : ConsoleClient) (m : Message) :
    (c.sendMessage m).inputWorker = c.inputWorker := by
  rw [sendMessage]
  split <;> rfl

theorem sendMessage_main (c : ConsoleClient) (m : Message) :
    (c.sendMessage m).main = c.main := by
  rw [sendMessage]
  split <;> rfl

theorem Printed.worker {c c' : ConsoleClient} (h : c.Printed c') :
    c'.inputWorker = c.inputWorker := by
  obtain ⟨_, rfl⟩ := h
  rfl

theorem Printed.main {c c' : ConsoleClient} (h : c.Printed c') : c'.main = c.main := by
  obtain ⟨_, rfl⟩ := h
  rfl

theorem Threads.performs {c : ConsoleClient} (h : c.Threads) {call : Call} {calls : List Call}
    (hmain : c.main = .handling (call :: calls)) {result : Except Crash ConsoleClient}
    (hp : c.Performs calls call result) : Orderly result := by
  have hjoins := not_joins_handling hmain
  have hhandling : ∀ {c' : ConsoleClient}, c'.inputWorker = c.inputWorker →
      Orderly (.ok { c' with main := .handling calls }) := by
    intro c' hw
    exact h.goes hjoins hw (not_joins_handling rfl) (by rintro ⟨⟩)
  cases hp with
  | tells _ hprinted => exact hhandling hprinted.worker
  | sends m => exact hhandling (c.sendMessage_worker m)
  | greets _ hprinted =>
      rcases (h.congr hprinted.worker hprinted.main).start
        (not_joins_handling (hprinted.main.trans hmain)) .ready calls with
        ⟨_, heq⟩ | ⟨hrunning, hthread, heq⟩ <;> rw [heq]
      · exact hhandling hprinted.worker
      · exact resumed_threads hrunning hthread (.start .ready calls)
  | asks _ hprinted =>
      exact (h.congr hprinted.worker hprinted.main).stopInput_orderly
        (not_joins_handling (hprinted.main.trans hmain)) _
  | crashes => exact ⟨by decide, by decide⟩

theorem Threads.steps {c : ConsoleClient} (h : c.Threads) {e : ConsoleEvent}
    {result : Except Crash ConsoleClient} (hs : c.Steps e result) : Orderly result := by
  cases hs with
  | hears hmain _ _ =>
      exact h.goes (not_joins_polling hmain) rfl (not_joins_handling rfl) (by rintro ⟨⟩)
  | nullGame => exact ⟨by decide, by decide⟩
  | throws hmain _ _ =>
      have h' : Threads { c with reading := false } := h.congr rfl rfl
      exact h'.stopInput_orderly (not_joins_polling hmain) _
  | empty hmain => exact h.congr rfl rfl
  | fails hmain hprinted =>
      have h' : Threads { c with
          reading := false, client := { c.client with isConnected := false } } :=
        h.congr rfl rfl
      exact (h'.congr hprinted.worker hprinted.main).stopInput_orderly
        (not_joins_polling (hprinted.main.trans hmain)) _
  | performs hmain hp => exact h.performs hmain hp
  | waits hmain =>
      exact h.goes (not_joins_handling hmain) rfl (not_joins_polling rfl) (by rintro ⟨⟩)
  | joined hmain _ =>
      refine resume_orderly ?_ rfl _
      exact h.stopped ⟨_, hmain⟩
  | leaves hmain => exact h.stopInput_orderly (not_joins_polling hmain) _
  | proceeds hthread _ =>
      exact h.moveTo (Option.ne_none_iff_exists'.mpr ⟨_, hthread⟩) rfl rfl _ _
  | answers hthread ha =>
      have hsome : c.inputWorker.thread ≠ none := Option.ne_none_iff_exists'.mpr ⟨_, hthread⟩
      cases ha with
      | confirms _ hprinted =>
          exact h.moveTo hsome ((sendMessage_worker _ _).trans hprinted.worker)
            ((sendMessage_main _ _).trans hprinted.main) _ _
      | turns _ =>
          exact h.moveTo hsome (sendMessage_worker _ _) (sendMessage_main _ _) _ _
      | quits _ _ _ hprinted =>
          refine h.moveTo hsome ?_ ?_ _ _
          · exact hprinted.worker
          · exact hprinted.main
      | refuses hprinted => exact h.moveTo hsome hprinted.worker hprinted.main _ _
  | crashes _ ha =>
      cases ha with
      | crashes => exact ⟨by decide, by decide⟩
  | stops hthread =>
      refine h.moveTo (Option.ne_none_iff_exists'.mpr ⟨_, hthread⟩) ?_ ?_ _ _
      · rfl
      · rfl

/-! ## Whole runs -/

theorem connected_threads : connected.Threads := by
  refine ⟨⟨fun h => absurd rfl h, ?_⟩, ?_, by rintro ⟨⟩⟩
  · rintro (h | ⟨_, h⟩) <;> cases h
  · rintro ⟨_, h⟩
    cases h

theorem next_eq_some {c c' : ConsoleClient} {e : ConsoleEvent} :
    c.next e = some c' ↔ c.step e = some (.ok c') := by
  rw [next]
  split
  · next c'' h => simp [h]
  · next h =>
      exact iff_of_false (Option.some_ne_none c').symm fun hs => h c' hs

theorem next_steps {c c' : ConsoleClient} {e : ConsoleEvent} (h : c.next e = some c') :
    c.Steps e (.ok c') :=
  step_steps (next_eq_some.mp h)

theorem reachable_threads {c : ConsoleClient} (h : Reachable next connected c) : c.Threads :=
  h.invariant connected_threads fun _ _ _ hc _ hs => hc.steps (next_steps hs)

/-- Whatever arrives, whatever is typed and however the two threads interleave: no thread
is overwritten or destroyed that was not joined, no thread is joined that is not there,
and none is left over. -/
theorem threads_safe {es : List ConsoleEvent} {c : ConsoleClient}
    (hrun : run next connected es = some c) :
    (∀ e, c.step e ≠ some (.error .terminated) ∧ c.step e ≠ some (.error .notJoinable)) ∧
    (c.main = .gone → c.inputWorker.thread = none) := by
  have h := reachable_threads (.of_run hrun)
  refine ⟨fun e => ⟨fun hs => ?_, fun hs => ?_⟩, fun hgone => ?_⟩
  · exact (h.steps (step_steps hs)).1 rfl
  · exact (h.steps (step_steps hs)).2 rfl
  · by_contra hthread
    rcases h.attended.mp hthread with hrunning | ⟨_, hjoins⟩
    · exact absurd (hrunning.symm.trans (h.gone hgone)) (by decide)
    · cases hgone.symm.trans hjoins

/-- A player is asked for a turn and for a rematch while the prompt before is still open,
and quits. -/
def quitsInTurn : List ConsoleEvent :=
  [.read (.message (.connected 1)), .call, .call, .test,
    .read (.message (.gameStart 2 5 4 1)), .call, .call,
    .read (.message (.takeTurn 1 255)), .call, .type "quit".toList, .check, .test, .joined,
    .call, .test, .type "quit".toList, .check, .callback,
    .read (.message (.gameEnd 0)), .call, .test, .joined, .call, .test,
    .type "quit".toList, .check, .callback, .stopContext, .leave, .test, .joined]

theorem threads_safe_quits : ∃ c, run next connected quitsInTurn = some c ∧
    c.main = .gone ∧ c.inputWorker.thread = none := by
  have hrun : (run next connected quitsInTurn).any (fun c => decide (c.main = .gone)) = true := by
    decide +kernel
  obtain ⟨c, hc, hgone⟩ := (Option.any_eq_true ..).mp hrun
  exact ⟨c, hc, of_decide_eq_true hgone, (threads_safe hc).2 (of_decide_eq_true hgone)⟩

/-! ## Waiting in `stop` -/

end ConsoleClient

/-- The steps until the input thread has returned, once `running` is false. -/
def Position.left : Position → Nat
  | .testing => 1
  | .reading => 3
  | .checking _ => 2
  | .calling _ => 3
  | .stopping => 2
  | .returned => 0

/-- The words it reads on the way. -/
def Position.words : Position → Nat
  | .reading => 1
  | _ => 0

theorem Position.left_le (position : Position) : position.left ≤ 3 := by
  cases position <;> simp [left]

theorem Position.words_le (position : Position) : position.words ≤ 1 := by
  cases position <;> simp [words]

def ConsoleEvent.isType : ConsoleEvent → Bool
  | .type _ => true
  | _ => false

namespace ConsoleClient

/-- The main thread waits for an input thread at this position. -/
structure Awaits (c : ConsoleClient) (position : Position) : Prop where
  joins : c.Joins
  running : c.inputWorker.running = false
  thread : ∃ callback, c.inputWorker.thread = some ⟨callback, position⟩

theorem Threads.awaits {c : ConsoleClient} (h : c.Threads) (hjoins : c.Joins) :
    ∃ position, c.Awaits position := by
  obtain ⟨⟨callback, position⟩, hthread⟩ :=
    Option.ne_none_iff_exists'.mp (h.attended.mpr (.inr hjoins))
  exact ⟨position, hjoins, h.stopped hjoins, callback, hthread⟩

theorem Awaits.moveTo {c c' : ConsoleClient} {position : Position} (h : c.Awaits position)
    (hw : c'.inputWorker = c.inputWorker) (hm : c'.main = c.main) (callback : InputCallback)
    (position' : Position) : (c'.moveTo callback position').Awaits position' := by
  refine ⟨?_, ?_, callback, rfl⟩
  · obtain ⟨next, hnext⟩ := h.joins
    exact ⟨next, hm.trans hnext⟩
  · show c'.inputWorker.running = false
    rw [hw]
    exact h.running

/-- The input thread gets from one position to another with this event. -/
def Nearer (e : ConsoleEvent) (position position' : Position) : Prop :=
  position'.left + 1 ≤ position.left ∧
    position'.words + (if e.isType then 1 else 0) ≤ position.words

theorem Proceeds.nearer {position position' : Position} {e : ConsoleEvent}
    (h : Proceeds false position e position') : Nearer e position position' := by
  cases h with
  | reads h => cases h
  | returns => exact ⟨Nat.le_refl _, Nat.le_refl _⟩
  | types input => exact ⟨Nat.le_refl _, Nat.le_refl _⟩
  | calls _ h => cases h
  | drops => exact ⟨Nat.le_refl _, Nat.le_refl _⟩

theorem sendMessage_client (c : ConsoleClient) (m : Message) :
    (c.sendMessage m).client = c.client := by
  rw [sendMessage]
  split <;> rfl

theorem Answers.nearer {c c' : ConsoleClient} {input : List Char} {callback : InputCallback}
    {position : Position} (h : c.Answers input callback (.ok (c', position))) :
    Nearer .callback (.calling input) position ∧ c'.inputWorker = c.inputWorker ∧
      c'.main = c.main ∧ c'.client = c.client := by
  cases h with
  | confirms _ hp =>
      exact ⟨⟨Nat.le_add_left 1 2, Nat.le_refl _⟩, (sendMessage_worker _ _).trans hp.worker,
        (sendMessage_main _ _).trans hp.main, (sendMessage_client _ _).trans hp.client⟩
  | turns _ =>
      exact ⟨⟨Nat.le_add_left 1 2, Nat.le_refl _⟩, sendMessage_worker _ _, sendMessage_main _ _,
        sendMessage_client _ _⟩
  | quits _ _ _ hp => exact ⟨⟨Nat.le_refl _, Nat.le_refl _⟩, hp.worker, hp.main, hp.client⟩
  | refuses hp => exact ⟨⟨Nat.le_succ _, Nat.le_refl _⟩, hp.worker, hp.main, hp.client⟩

/-- While the main thread waits, only the input thread takes steps, and each brings it
closer to its end. -/
theorem Awaits.step {c c' : ConsoleClient} {position : Position} (h : c.Awaits position)
    {e : ConsoleEvent} (he : e ≠ .joined) (hs : c.next e = some c') :
    ∃ position', c'.Awaits position' ∧ Nearer e position position' ∧ c'.client = c.client := by
  obtain ⟨next, hnext⟩ := h.joins
  obtain ⟨cb, hcb⟩ := h.thread
  have hsteps := next_steps hs
  have hmain : ∀ {main : MainThread}, c.main = main → main = .joining next :=
    fun hm => hm.symm.trans hnext
  generalize hresult : Except.ok c' = result at hsteps
  cases hsteps with
  | hears hm => cases hmain hm
  | nullGame hm => cases hmain hm
  | throws hm => cases hmain hm
  | empty hm => cases hmain hm
  | fails hm => cases hmain hm
  | performs hm => cases hmain hm
  | waits hm => cases hmain hm
  | joined => exact absurd rfl he
  | leaves hm => cases hmain hm
  | @proceeds _ _ position' _ hthread hp =>
      cases hresult
      cases hcb.symm.trans hthread
      rw [h.running] at hp
      exact ⟨position', h.moveTo rfl rfl _ _, hp.nearer, rfl⟩
  | @answers _ _ d position' hthread ha =>
      cases hresult
      cases hcb.symm.trans hthread
      obtain ⟨hnearer, hw, hm, hclient⟩ := ha.nearer
      exact ⟨position', h.moveTo hw hm _ _, hnearer, hclient⟩
  | crashes => cases hresult
  | stops hthread =>
      cases hresult
      cases hcb.symm.trans hthread
      refine ⟨.testing, h.moveTo ?_ ?_ _ _, ⟨Nat.le_refl _, Nat.le_refl _⟩, rfl⟩
      · rfl
      · rfl

theorem Awaits.run {c c' : ConsoleClient} {position : Position} (h : c.Awaits position)
    {es : List ConsoleEvent} (hes : .joined ∉ es) (hrun : Lib.run next c es = some c') :
    ∃ position', c'.Awaits position' ∧ position'.left + es.length ≤ position.left ∧
      position'.words + es.countP ConsoleEvent.isType ≤ position.words ∧
      c'.client = c.client := by
  induction es generalizing c position with
  | nil =>
      injection hrun with hrun
      exact ⟨position, hrun ▸ h, Nat.le_refl _, Nat.le_refl _, hrun ▸ rfl⟩
  | cons e es ih =>
      obtain ⟨mid, hmid, hrest⟩ := Option.bind_eq_some_iff.mp hrun
      obtain ⟨position₁, h₁, ⟨hleft₁, hwords₁⟩, hclient₁⟩ :=
        h.step (fun he => hes (he ▸ List.mem_cons_self)) hmid
      obtain ⟨position₂, h₂, hleft₂, hwords₂, hclient₂⟩ :=
        ih h₁ (fun hin => hes (List.mem_cons_of_mem e hin)) hrest
      refine ⟨position₂, h₂, ?_, ?_, hclient₂.trans hclient₁⟩
      · rw [List.length_cons]
        omega
      · rw [List.countP_cons]
        omega

/-- The input thread is never stuck on its way, except that it may have to wait for a
word; once it has returned, the main thread goes on. -/
theorem Awaits.enabled {c : ConsoleClient} {position : Position} (h : c.Awaits position)
    (input : List Char) :
    ∃ e, (c.step e).isSome ∧ (e.isType = true → e = .type input) := by
  obtain ⟨next, hnext⟩ := h.joins
  obtain ⟨cb, hcb⟩ := h.thread
  cases position with
  | testing => exact ⟨.test, by rw [ConsoleClient.step, hcb]; rfl, by rintro ⟨⟩⟩
  | reading => exact ⟨.type input, by rw [ConsoleClient.step, hcb]; rfl, fun _ => rfl⟩
  | checking word => exact ⟨.check, by rw [ConsoleClient.step, hcb]; rfl, by rintro ⟨⟩⟩
  | calling word =>
      refine ⟨.callback, ?_, by rintro ⟨⟩⟩
      have hstep : c.step .callback = c.inputStep cb (.calling word) .callback := by
        rw [ConsoleClient.step, hcb]
        rfl
      rw [hstep, inputStep]
      cases c.callback word cb with
      | ok out => rfl
      | error crash => rfl
  | stopping => exact ⟨.stopContext, by rw [ConsoleClient.step, hcb]; rfl, by rintro ⟨⟩⟩
  | returned =>
      refine ⟨.joined, ?_, by rintro ⟨⟩⟩
      rw [ConsoleClient.step, mainStep, hnext, hcb]
      rfl

/-- While the main thread waits in `stop`, it hears nothing and is held up for three
steps of the input thread at most, of which one is a word the user types; and there is
always a step left to take. -/
theorem blocked_briefly {c c' : ConsoleClient} {es : List ConsoleEvent}
    (h : Reachable next connected c) (hjoins : c.Joins) (hrun : run next c es = some c')
    (hes : .joined ∉ es) :
    c'.Joins ∧ c'.client = c.client ∧ es.length ≤ 3 ∧ es.countP ConsoleEvent.isType ≤ 1 ∧
      ∀ input, ∃ e, (c'.step e).isSome ∧ (e.isType = true → e = .type input) := by
  obtain ⟨position, hawaits⟩ := (reachable_threads h).awaits hjoins
  obtain ⟨position', hawaits', hleft, hwords, hclient⟩ := hawaits.run hes hrun
  have hleft_le := position.left_le
  have hwords_le := position.words_le
  exact ⟨hawaits'.joins, hclient, by omega, by omega, hawaits'.enabled⟩

/-- A player is asked for a turn before it said that it is ready. -/
def askedEarly : List ConsoleEvent :=
  [.read (.message (.connected 1)), .call, .call, .test,
    .read (.message (.gameStart 2 5 4 1)), .call, .call,
    .read (.message (.takeTurn 1 255)), .call]

theorem blocked_briefly_early : ∃ c c', run next connected askedEarly = some c ∧
    run next c [.type "3".toList] = some c' ∧ c'.Joins ∧ c'.client = c.client := by
  have hrun : (run next connected askedEarly).any (fun c =>
      (run next c [.type "3".toList]).any fun _ =>
        decide (c.main = .joining (.start (.turn 5) []))) = true := by
    decide +kernel
  obtain ⟨c, hc, hn⟩ := (Option.any_eq_true ..).mp hrun
  obtain ⟨c', hc', hmain⟩ := (Option.any_eq_true ..).mp hn
  obtain ⟨hjoins, hclient, _⟩ :=
    blocked_briefly (.of_run hc) ⟨_, of_decide_eq_true hmain⟩ hc' (by decide)
  exact ⟨c, c', hc, hc', hjoins, hclient⟩

end ConsoleClient

end ConnectDisks.Net
