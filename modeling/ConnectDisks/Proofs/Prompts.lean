import ConnectDisks.Proofs.Asked
import ConnectDisks.Proofs.ConsoleTable

/-!
# What is on the screen when a turn is asked for

Before a console asks its user for a turn it prints the game. The words it asks with are
the only ones with an exclamation mark, so the last one on the screen shows where the
question is that still stands, and the game stands before it (`Prompted`).

A client's copy of the game may change after it was printed, but what is under way to a
player who is asked is calm. So whoever is asked for a turn has on his screen the position
the lobby is at, as long as the lobby acts on no message of a dropped connection
(`users_see_the_game`).
-/

namespace ConnectDisks.Game

open Board

/-- No exclamation mark. -/
def Unmarked (text : List Char) : Prop := '!' ∉ text

instance (text : List Char) : Decidable (Unmarked text) := by
  unfold Unmarked
  infer_instance

theorem Unmarked.append {text text' : List Char} (h : Unmarked text) (h' : Unmarked text') :
    Unmarked (text ++ text') := fun hin =>
  (List.mem_append.mp hin).elim h h'

theorem unmarked_intText (n : Int) : Unmarked (intText n) :=
  notMem_intText (by decide) (by decide) n

theorem unmarked_line (xs : List Nat) : Unmarked (lineText xs ++ ['\n']) := by
  have hline : Unmarked (lineText xs) :=
    Board.notMem_lineText (by decide) (by decide) (by decide) xs
  exact hline.append (by decide)

theorem unmarked_rowsText (b : Board) (rs : List Nat) : Unmarked (b.rowsText rs) := by
  have hseparator : Unmarked b.separator := by
    refine Unmarked.append (fun h => ?_) (by decide)
    exact absurd (List.eq_of_mem_replicate h) (by decide)
  induction rs with
  | nil => exact List.not_mem_nil
  | cons r rs ih =>
      have hcons : b.rowsText (r :: rs) =
          (b.separator ++ (lineText (b.rowShown r) ++ ['\n'])) ++ b.rowsText rs := rfl
      rw [hcons]
      exact (hseparator.append (unmarked_line _)).append ih

theorem unmarked_labelled {text label : List Char} (h : Unmarked text) (hlabel : Unmarked label)
    (n : Int) : Unmarked (text ++ label ++ intText n) :=
  (h.append hlabel).append (unmarked_intText n)

theorem unmarked_statusText (g : FourAcross) : Unmarked g.statusText := by
  have hnil : Unmarked [] := List.not_mem_nil
  have hwinner : Unmarked
      (if g.hasWinner then "Winner: ".toList ++ intText g.winner.toNat ++ ['\n'] else []) := by
    split
    · exact (unmarked_labelled hnil (by decide) _).append (by decide)
    · exact hnil
  have hplayers : Unmarked ("\nCurrent player: ".toList ++ intText g.currentPlayer.toNat ++
      " Next player: ".toList ++ intText g.getNextPlayer.toNat) :=
    unmarked_labelled (unmarked_labelled hnil (by decide) _) (by decide) _
  exact ((unmarked_labelled hplayers (by decide) _).append (by decide)).append hwinner

theorem FourAcross.Reachable.unmarked {g : FourAcross} (h : Reachable g) {text : List Char}
    (htext : g.toText = .ok text) : Unmarked text := by
  have hb := h.wf.board
  have hok := Board.toText_ok hb.shaped (Nat.lt_of_lt_of_le (by decide) hb.minColumns)
    (Nat.lt_of_lt_of_le (by decide) hb.minRows)
  rw [toText, hok] at htext
  rw [← Except.ok.inj htext]
  exact ((unmarked_line _).append (unmarked_rowsText _ _)).append (unmarked_statusText g)

end ConnectDisks.Game

namespace ConnectDisks.Net

open ConnectDisks.Game Lib

namespace ConsoleClient

variable {c c' : ConsoleClient} {e : ConsoleEvent}

/-! ## What is printed -/

/-- The words a turn is asked for with, after the game. -/
def turnPrompt (maxColumns : UInt8) : List Char :=
  "\n".toList ++ "It's your turn!\nEnter the column to place your piece (min=1,max=".toList ++
    intText maxColumns.toNat ++ "): ".toList

/-- The last question for a turn on the screen stands under this game. -/
def Prompted (screen : List Char) (game : ValidGame) : Prop :=
  ∃ before picture after, game.state.toText = .ok picture ∧
    screen = before ++ picture ++ turnPrompt game.getNumColumns ++ after ∧ Unmarked after

/-- More is on the screen, but no new question for a turn. -/
def Adds (c c' : ConsoleClient) : Prop := ∃ text, c'.screen = c.screen ++ text ∧ Unmarked text

theorem Adds.of_screen (h : c'.screen = c.screen) : c.Adds c' :=
  ⟨[], h.trans (List.append_nil _).symm, List.not_mem_nil⟩

theorem Adds.trans {d : ConsoleClient} (h : c.Adds d) (h' : d.Adds c') : c.Adds c' := by
  obtain ⟨text, hscreen, htext⟩ := h
  obtain ⟨text', hscreen', htext'⟩ := h'
  exact ⟨text ++ text', by rw [hscreen', hscreen, List.append_assoc], htext.append htext'⟩

theorem Adds.print (h : c.Adds c') {text : String} (htext : Unmarked text.toList) :
    c.Adds (c'.print text) :=
  h.trans ⟨text.toList, rfl, htext⟩

theorem Adds.printInt (h : c.Adds c') (n : Nat) : c.Adds (c'.printInt n) :=
  h.trans ⟨intText n, rfl, unmarked_intText n⟩

theorem printGame_screen (h : c.printGame = .ok c') :
    ∃ game picture, c.client.game = some game ∧ game.state.toText = .ok picture ∧
      c'.screen = c.screen ++ picture ++ "\n".toList := by
  rw [printGame] at h
  split at h
  · cases h
  · next game hgame =>
      split at h
      · cases h
      · next picture hpicture =>
          cases h
          exact ⟨game, picture, hgame, hpicture, rfl⟩

theorem Adds.printGame {d : ConsoleClient} (h : c.Adds d) (hs : d.printGame = .ok c') :
    c.Adds c' := by
  obtain ⟨game, picture, _, hpicture, hscreen⟩ := printGame_screen hs
  refine h.trans ⟨picture ++ "\n".toList, ?_, (game.reachable.unmarked hpicture).append
    (by decide)⟩
  rw [hscreen, List.append_assoc]

theorem handled_screen {calls : List Call} {result : Except Crash ConsoleClient}
    (h : handled calls result = .ok c') : ∃ d, result = .ok d ∧ c'.screen = d.screen := by
  cases result with
  | ok d =>
      cases h
      exact ⟨d, rfl, rfl⟩
  | error crash => cases h

theorem sendMessage_screen (c : ConsoleClient) (m : Message) :
    (c.sendMessage m).screen = c.screen := by
  rw [sendMessage]
  split <;> rfl

theorem onTurnResult_adds {result : UInt8} (h : c.onTurnResult result = .ok c') :
    c.Adds c' := by
  have hc := Adds.of_screen (c := c) rfl
  rw [onTurnResult] at h
  split at h
  · exact (hc.print (by decide)).printGame h
  · split at h
    · cases h
      exact hc.print (by decide)
    · split at h
      · cases h
        exact hc.print (by decide)
      · split at h
        · cases h
          exact hc.print (by decide)
        · split at h <;> cases h <;> exact hc.print (by decide)

theorem onGameUpdate_adds {player col : UInt8} (h : c.onGameUpdate player col = .ok c') :
    c.Adds c' := by
  rw [onGameUpdate] at h
  split at h
  · next d hd =>
      cases h
      have hadds := (Adds.of_screen (c := c) rfl).printGame hd
      exact ((((hadds.print (by decide)).printInt _).print (by decide)).printInt _).print
        (by decide)
  · cases h

theorem perform_adds {calls : List Call} {call : Call} (h : c.perform calls call = .ok c')
    (hcall : call ≠ .handleTurnRequest) : c.Adds c' := by
  have hc := Adds.of_screen (c := c) rfl
  cases call with
  | onConnect id =>
      rw [perform, onConnect] at h
      refine Adds.trans ?_ (.of_screen (resume_same h).1)
      exact ((hc.print (by decide)).printInt _).print (by decide)
  | onQueueUpdate position =>
      rw [perform] at h
      obtain ⟨d, hd, hscreen⟩ := handled_screen h
      refine Adds.trans ?_ (.of_screen hscreen)
      rw [← Except.ok.inj hd, onQueueUpdate]
      exact ((hc.print (by decide)).printInt _).print (by decide)
  | onGameStart numPlayers first cols rows =>
      rw [perform] at h
      obtain ⟨d, hd, hscreen⟩ := handled_screen h
      refine Adds.trans ?_ (.of_screen hscreen)
      rw [← Except.ok.inj hd, onGameStart]
      exact ((((((((hc.print (by decide)).printInt _).print (by decide)).printInt _).print
        (by decide)).printInt _).print (by decide)).printInt _).print (by decide)
  | onGameEnd winner =>
      rw [perform, onGameEnd] at h
      refine Adds.trans ?_ (.of_screen (stopInput_same h).1)
      split
      · exact (hc.print (by decide)).print (by decide)
      · exact (((hc.print (by decide)).printInt _).print (by decide)).print (by decide)
  | onGameUpdate player col =>
      rw [perform] at h
      obtain ⟨d, hd, hscreen⟩ := handled_screen h
      exact (onGameUpdate_adds hd).trans (.of_screen hscreen)
  | onTurnResult result column =>
      rw [perform] at h
      obtain ⟨d, hd, hscreen⟩ := handled_screen h
      exact (onTurnResult_adds hd).trans (.of_screen hscreen)
  | handleTurnRequest => exact absurd rfl hcall
  | sendMessage m =>
      cases h
      exact .of_screen (sendMessage_screen c m)

theorem handleTurnRequest_prompted {calls : List Call} (h : c.handleTurnRequest calls = .ok c')
    {game : ValidGame} (hgame : c.client.game = some game) : Prompted c'.screen game := by
  rw [handleTurnRequest] at h
  split at h
  · next d game' hd hgame' =>
      obtain rfl := Option.some.inj (hgame.symm.trans hgame')
      obtain ⟨game'', picture, hgame'', hpicture, hscreen⟩ := printGame_screen hd
      obtain rfl := Option.some.inj (hgame.symm.trans hgame'')
      refine ⟨c.screen, picture, [], hpicture, ?_, List.not_mem_nil⟩
      rw [(stopInput_same h).1]
      show d.screen ++ _ ++ _ ++ _ = _
      rw [hscreen, turnPrompt]
      simp only [List.append_assoc, List.append_nil]
  · cases h
  · cases h

theorem confirm_adds {input : List Char} {word request farewell : String}
    {position : Position} (hrequest : Unmarked request.toList)
    (hfarewell : Unmarked farewell.toList)
    (h : c.confirm input word request farewell = .ok (c', position)) : c.Adds c' := by
  have hc := Adds.of_screen (c := c) rfl
  rw [confirm] at h
  split at h
  · cases h
    exact (hc.print hrequest).trans (.of_screen (sendMessage_screen _ _))
  · split at h
    · rw [disconnect] at h
      split at h
      · next d hd =>
          cases h
          split at hd <;> cases hd
          exact hc.print hfarewell
      · cases h
    · cases h
      exact hc.print (by decide)

theorem callback_adds {input : List Char} {callback : InputCallback} {position : Position}
    (h : c.callback input callback = .ok (c', position)) : c.Adds c' := by
  cases callback with
  | ready => exact confirm_adds (by decide) (by decide) h
  | rematch => exact confirm_adds (by decide) (by decide) h
  | turn maxColumns =>
      rw [ConsoleClient.callback] at h
      split at h <;> cases h
      · exact .of_screen (sendMessage_screen _ _)
      · exact (Adds.of_screen rfl).print (by decide)

/-- The main thread asks for a turn. -/
def Requests (c c' : ConsoleClient) : Prop :=
  ∃ calls, c.main = .handling (.handleTurnRequest :: calls) ∧ c.handleTurnRequest calls = .ok c'

theorem handleRead_adds {completion : Completion} (h : c.handleRead completion = .ok c') :
    c.Adds c' := by
  cases completion with
  | message m =>
      rw [handleRead] at h
      split at h
      · cases h
        exact .of_screen rfl
      · cases h
      · exact .of_screen (stopInput_same h).1
  | empty =>
      cases h
      exact .of_screen rfl
  | failed =>
      rw [handleRead, onDisconnect] at h
      refine Adds.trans ?_ (.of_screen (stopInput_same h).1)
      exact Adds.print (.of_screen rfl) (by decide)

theorem mainStep_adds (h : c.mainStep e = some (.ok c')) : c.Adds c' ∨ c.Requests c' := by
  cases e with
  | read completion =>
      obtain ⟨_, h⟩ := Option.ite_none_right_eq_some.mp h
      have hread : Adds { c with reading := false } c' := handleRead_adds (Option.some.inj h)
      exact .inl ((Adds.of_screen rfl).trans hread)
  | call =>
      rw [mainStep] at h
      split at h
      · cases h
        exact .inl (.of_screen rfl)
      · next call calls hmain =>
          have h := Option.some.inj h
          by_cases hcall : call = .handleTurnRequest
          · subst hcall
            exact .inr ⟨calls, hmain, h⟩
          · exact .inl (perform_adds h hcall)
      · cases h
  | joined =>
      rw [mainStep] at h
      split at h
      · have hscreen := (resume_same (Option.some.inj h)).1
        exact .inl (.of_screen hscreen)
      · cases h
  | leave =>
      obtain ⟨_, h⟩ := Option.ite_none_right_eq_some.mp h
      exact .inl (.of_screen (stopInput_same (Option.some.inj h)).1)
  | test => cases h
  | type input => cases h
  | check => cases h
  | callback => cases h
  | stopContext => cases h

theorem inputStep_adds {callback : InputCallback} {position : Position}
    (h : c.inputStep callback position e = some (.ok c')) : c.Adds c' := by
  unfold inputStep at h
  split at h
  · cases h
    exact .of_screen rfl
  · cases h
    exact .of_screen rfl
  · cases h
    exact .of_screen rfl
  · split at h
    · next hout =>
        cases h
        exact (callback_adds hout).trans (.of_screen rfl)
    · cases h
  · cases h
    exact .of_screen rfl
  · cases h

theorem next_adds (hs : c.next e = some c') : c.Adds c' ∨ c.Requests c' := by
  have h := next_eq_some.mp hs
  rw [step] at h
  split at h
  · next hmain => exact mainStep_adds (hmain.trans h)
  · exact .inl (inputStep_adds h)
  · cases h

theorem Prompted.adds {game : ValidGame} (h : Prompted c.screen game) (hs : c.Adds c') :
    Prompted c'.screen game := by
  obtain ⟨before, picture, after, hpicture, hscreen, hafter⟩ := h
  obtain ⟨text, hscreen', htext⟩ := hs
  refine ⟨before, picture, after ++ text, hpicture, ?_, hafter.append htext⟩
  rw [hscreen', hscreen, List.append_assoc]

/-! ## Who is asked for a turn -/

/-- The user is asked for a turn, or will be once the input thread has ended. -/
def AsksTurn (c : ConsoleClient) (maxColumns : UInt8) : Prop :=
  (∃ position, c.inputWorker.thread = some ⟨.turn maxColumns, position⟩ ∧
    position ≠ .returned) ∨
  ∃ calls, c.main = .joining (.start (.turn maxColumns) calls)

/-- The game is there on the screen that the user is asked about. -/
def Sees (c : ConsoleClient) (maxColumns : UInt8) : Prop :=
  ∃ game, c.client.game = some game ∧ maxColumns = game.getNumColumns ∧
    Prompted c.screen game

/-- Whoever is asked for a turn, and can answer, sees the game of the client. -/
def Shown (c : ConsoleClient) : Prop :=
  c.socket = true → ∀ maxColumns, c.AsksTurn maxColumns → c.Sees maxColumns

variable {maxColumns : UInt8}

theorem AsksTurn.congr (h : c'.AsksTurn maxColumns) (hw : c'.inputWorker = c.inputWorker)
    (hm : c'.main = c.main) : c.AsksTurn maxColumns := by
  rwa [AsksTurn, hw, hm] at h

theorem AsksTurn.goes (h : c'.AsksTurn maxColumns) (hw : c'.inputWorker = c.inputWorker)
    (hjoins : ¬c'.Joins) : c.AsksTurn maxColumns := by
  rcases h with hthread | ⟨calls, hmain⟩
  · exact .inl (hw ▸ hthread)
  · exact absurd ⟨_, hmain⟩ hjoins

/-- To stop the input thread asks for nothing, unless it is done to ask. -/
theorem Threads.stopInput_asks (h : c.Threads) (hjoins : ¬c.Joins) {next : AfterStop}
    (hs : c.stopInput next = .ok c') (hasks : c'.AsksTurn maxColumns) :
    c.AsksTurn maxColumns ∨ ∃ calls, next = .start (.turn maxColumns) calls := by
  rcases h.stopInput hjoins next with ⟨_, heq⟩ | ⟨_, hthread, heq⟩ <;>
    obtain rfl := Except.ok.inj (hs.symm.trans heq)
  · rcases hasks with hthread | ⟨calls, hmain⟩
    · exact .inl (.inl hthread)
    · exact .inr ⟨calls, (MainThread.joining.inj hmain)⟩
  · cases next with
    | start callback calls =>
        rcases hasks with ⟨position, hstarted, _⟩ | ⟨_, hmain⟩
        · cases hstarted
          exact .inr ⟨calls, rfl⟩
        · cases hmain
    | disconnected =>
        rcases hasks with ⟨position, hstarted, _⟩ | ⟨_, hmain⟩
        · cases hthread.symm.trans hstarted
        · cases hmain
    | destroyed =>
        rcases hasks with ⟨position, hstarted, _⟩ | ⟨_, hmain⟩
        · cases hthread.symm.trans hstarted
        · cases hmain

theorem Threads.performs_asks (h : c.Threads) {call : Call} {calls : List Call}
    (hmain : c.main = .handling (call :: calls)) (hp : c.Performs calls call (.ok c'))
    (hasks : c'.AsksTurn maxColumns) :
    c.AsksTurn maxColumns ∨ call.Asks c.client (.turn maxColumns) := by
  generalize hresult : Except.ok c' = result at hp
  cases hp with
  | tells _ hprinted =>
      cases hresult
      exact .inl (hasks.goes hprinted.worker (not_joins_handling rfl))
  | sends m =>
      cases hresult
      exact .inl (hasks.goes (sendMessage_worker c m) (not_joins_handling rfl))
  | greets _ hprinted =>
      rcases (h.congr hprinted.worker hprinted.main).start
        (not_joins_handling (hprinted.main.trans hmain)) .ready calls with
        ⟨_, heq⟩ | ⟨_, _, heq⟩ <;> obtain rfl := Except.ok.inj (hresult.trans heq)
      · exact .inl (hasks.goes hprinted.worker (not_joins_handling rfl))
      · rcases hasks with ⟨position, hstarted, _⟩ | ⟨_, hmain⟩
        · cases hstarted
        · cases hmain
  | asks hcall hprinted =>
      rcases (h.congr hprinted.worker hprinted.main).stopInput_asks
        (not_joins_handling (hprinted.main.trans hmain)) hresult.symm hasks with
        hbefore | ⟨_, hnext⟩
      · exact .inl (hbefore.congr hprinted.worker hprinted.main)
      · cases hnext
        exact .inr hcall
  | crashes => cases hresult

theorem asks_moveTo {callback : InputCallback} {position position' : Position}
    (hthread : c.inputWorker.thread = some ⟨callback, position⟩) (hposition : position ≠ .returned)
    (hm : c'.main = c.main) (hasks : (c'.moveTo callback position').AsksTurn maxColumns) :
    c.AsksTurn maxColumns := by
  rcases hasks with ⟨position, hmoved, _⟩ | ⟨calls, hmain⟩
  · cases hmoved
    exact .inl ⟨_, hthread, hposition⟩
  · exact .inr ⟨calls, hm.symm.trans hmain⟩

/-- Nobody is asked for a turn out of nothing. -/
theorem Threads.next_asks (h : c.Threads) (hs : c.next e = some c')
    (hasks : c'.AsksTurn maxColumns) :
    c.AsksTurn maxColumns ∨ ∃ call calls, c.main = .handling (call :: calls) ∧
      call.Asks c.client (.turn maxColumns) ∧ e = .call := by
  have hsteps := next_steps hs
  generalize hresult : Except.ok c' = result at hsteps
  cases hsteps with
  | hears =>
      cases hresult
      exact .inl (hasks.goes rfl (not_joins_handling rfl))
  | nullGame => cases hresult
  | throws hmain =>
      have hd : Threads { c with reading := false } := h.congr rfl rfl
      rcases hd.stopInput_asks (not_joins_polling hmain) hresult.symm hasks with
        hbefore | ⟨_, hnext⟩
      · exact .inl (hbefore.congr rfl rfl)
      · cases hnext
  | empty =>
      cases hresult
      exact .inl (hasks.congr rfl rfl)
  | fails hmain hprinted =>
      rcases (h.congr hprinted.worker hprinted.main).stopInput_asks
        (not_joins_polling (hprinted.main.trans hmain)) hresult.symm hasks with
        hbefore | ⟨_, hnext⟩
      · exact .inl (hbefore.congr hprinted.worker hprinted.main)
      · cases hnext
  | performs hmain hp =>
      cases hresult
      exact (h.performs_asks hmain hp hasks).imp_right fun hcall => ⟨_, _, hmain, hcall, rfl⟩
  | waits =>
      cases hresult
      exact .inl (hasks.goes rfl (not_joins_polling rfl))
  | @joined next _ hmain _ =>
      obtain rfl := Except.ok.inj
        (hresult.trans (resume_joined (h.stopped ⟨next, hmain⟩) next))
      rcases hasks with ⟨position, hstarted, _⟩ | ⟨_, hmain'⟩
      · cases next with
        | start callback calls =>
            cases hstarted
            exact .inl (.inr ⟨calls, hmain⟩)
        | disconnected => cases hstarted
        | destroyed => cases hstarted
      · cases next <;> cases hmain'
  | leaves hmain =>
      rcases h.stopInput_asks (not_joins_polling hmain) hresult.symm hasks with
        hbefore | ⟨_, hnext⟩
      · exact .inl hbefore
      · cases hnext
  | proceeds hthread hp =>
      cases hresult
      refine .inl (asks_moveTo hthread ?_ rfl hasks)
      cases hp <;> rintro ⟨⟩
  | answers hthread ha =>
      cases hresult
      obtain ⟨_, _, hm, _⟩ := ha.nearer
      exact .inl (asks_moveTo hthread (by rintro ⟨⟩) hm hasks)
  | crashes => cases hresult
  | stops hthread =>
      cases hresult
      have hm : c.stopContext.main = c.main := rfl
      exact .inl (asks_moveTo hthread (by rintro ⟨⟩) hm hasks)

theorem performs_client {call : Call} {calls : List Call} (hp : c.Performs calls call (.ok c')) :
    c'.client = c.client := by
  generalize hresult : Except.ok c' = result at hp
  cases hp with
  | tells _ hprinted =>
      cases hresult
      exact hprinted.client
  | sends m =>
      cases hresult
      exact sendMessage_client c m
  | greets _ hprinted => exact (resume_same hresult.symm).2.1.trans hprinted.client
  | asks _ hprinted => exact (stopInput_same hresult.symm).2.1.trans hprinted.client
  | crashes => cases hresult

/-- Only a message changes the client's game. -/
theorem next_game (hs : c.next e = some c') (he : ConsoleTable.hearsMessage e = false) :
    c'.client.game = c.client.game := by
  have hsteps := next_steps hs
  generalize hresult : Except.ok c' = result at hsteps
  cases hsteps with
  | hears => cases he
  | nullGame => cases he
  | throws => cases he
  | empty =>
      cases hresult
      rfl
  | fails _ hprinted =>
      rw [(stopInput_same hresult.symm).2.1, hprinted.client]
  | performs _ hp =>
      cases hresult
      rw [performs_client hp]
  | waits =>
      cases hresult
      rfl
  | joined => rw [(resume_same hresult.symm).2.1]
  | leaves => rw [(stopInput_same hresult.symm).2.1]
  | proceeds =>
      cases hresult
      rfl
  | answers _ ha =>
      cases hresult
      obtain ⟨_, _, _, hclient⟩ := ha.nearer
      exact congrArg Client.game hclient
  | crashes => cases hresult
  | stops =>
      cases hresult
      rfl

theorem Shown.next (h : c.Shown) (hthreads : c.Threads) (hs : ConsoleClient.next c e = some c')
    (hstill : ConsoleTable.hearsMessage e = true → c.socket = true →
      ∀ maxColumns, c.AsksTurn maxColumns → c'.client.game = c.client.game) : c'.Shown := by
  intro hopen' maxColumns hasks
  have hopen : c.socket = true := by
    by_contra hclosed
    have hclosed' := (hthreads.step_closed hs (Bool.eq_false_iff.mpr hclosed)).1
    exact absurd (hclosed'.symm.trans hopen') (by decide)
  rcases hthreads.next_asks hs hasks with hbefore | ⟨call, calls, hmain, hcall, rfl⟩
  · obtain ⟨game, hgame, hcolumns, hprompted⟩ := h hopen maxColumns hbefore
    have hsame : c'.client.game = c.client.game := by
      cases he : ConsoleTable.hearsMessage e with
      | true => exact hstill he hopen maxColumns hbefore
      | false => exact next_game hs he
    refine ⟨game, hsame.trans hgame, hcolumns, ?_⟩
    rcases next_adds hs with hadds | ⟨_, _, hrequest⟩
    · exact hprompted.adds hadds
    · exact handleTurnRequest_prompted hrequest hgame
  · cases hcall with
    | turn game hgame =>
        have hrequest : c.handleTurnRequest calls = .ok c' := by
          have hstep := next_eq_some.mp hs
          rw [step, mainStep, hmain] at hstep
          exact Option.some.inj hstep
        exact ⟨game, (next_game hs rfl).trans hgame, rfl,
          handleTurnRequest_prompted hrequest hgame⟩

theorem Shown.outbox (h : c.Shown) (outbox : List Message) :
    Shown { c with outbox := outbox } := h

theorem connected_shown : connected.Shown := by
  rintro - maxColumns (⟨_, hthread, _⟩ | ⟨_, hmain⟩)
  · cases hthread
  · cases hmain

end ConsoleClient

namespace ConsoleTable

variable {maxPlayers : UInt8} {t t' : ConsoleTable} {s : Table} {c : ConnId}

/-! ## Whole runs -/

/-- What the next message does to the game of a client whose user is asked for a turn. -/
theorem Shows.still (h : t.Shows maxPlayers s) (htwo : 2 ≤ maxPlayers.toNat)
    (hsettled : s.Settled) {m : Message} {k : ConsoleClient} {maxColumns : UInt8}
    (hnext : (Network.sent t.room c)[t.delivered c]? = some m)
    (htaken : (t.consoles c).next (.read (.message m)) = some k)
    (hopen : (t.consoles c).socket = true) (hasks : (t.consoles c).AsksTurn maxColumns) :
    k.client.game = (t.consoles c).client.game := by
  obtain ⟨⟨client, calls, hread, hmain, hreading, rfl⟩, _⟩ :=
    (h.sound.informed c).hears htwo hnext (h.sound.word htwo c) htaken
  obtain ⟨position, hthread, hposition⟩ : ∃ position,
      (t.consoles c).inputWorker.thread = some ⟨.turn maxColumns, position⟩ ∧
        position ≠ .returned := by
    rcases hasks with hthread | ⟨_, hjoining⟩
    · exact hthread
    · cases hmain.symm.trans hjoining
  have hasked : 0 < (s.players c).prompts :=
    (h.follows c).owed hopen _ position hthread hposition
  obtain ⟨_, htold⟩ := (h.follows c).listens ⟨hmain, hreading, hopen⟩
  have hflight : s.inFlight c = m :: (Network.sent t.room c).drop (t.delivered c + 1) := by
    obtain ⟨hlt, hget⟩ := List.getElem?_eq_some_iff.mp hnext
    rw [Table.inFlight, h.room, htold, List.drop_eq_getElem_cons hlt, hget]
  have hcalm := hsettled c
  rw [hflight, decide_eq_true hasked] at hcalm
  exact Client.handleRead_still hread (hcalm.1 rfl)

/-- A lobby with consoles, and the players that follow them: nobody gets news while he is
asked, and everybody who is asked sees the game of his client. -/
structure Watched (maxPlayers : UInt8) (t : ConsoleTable) (s : Table) : Prop where
  shows : t.Shows maxPlayers s
  kept : Table.Kept maxPlayers s
  settled : s.Settled
  shown : ∀ c, (t.consoles c).Shown

theorem started_watched (maxPlayers : UInt8) :
    (started maxPlayers).Watched maxPlayers (Table.started maxPlayers) :=
  ⟨started_shows maxPlayers, Table.Kept.started maxPlayers, fun _ => trivial,
    fun _ => ConsoleClient.connected_shown⟩

theorem Watched.shown_step (h : t.Watched maxPlayers s) (htwo : 2 ≤ maxPlayers.toNat)
    {e : ConsoleTableEvent} (hs : t.step e = some t') (d : ConnId) :
    (t'.consoles d).Shown := by
  cases step_moves hs with
  | room => exact h.shown d
  | @receive c first m rest r hbox hroom =>
      by_cases hd : d = c
      · subst hd
        rw [modify_consoles_self]
        exact (h.shown d).outbox rest
      · rw [modify_consoles_of_ne _ hd]
        exact h.shown d
  | @deliver c m k hnext htaken =>
      by_cases hd : d = c
      · subst hd
        rw [heard, modify_consoles_self]
        refine (h.shown d).next (h.shows.sound.informed d).threads htaken ?_
        intro _ hopen maxColumns hasks
        exact h.shows.still htwo h.settled hnext htaken hopen hasks
      · rw [heard, modify_consoles_of_ne _ hd]
        exact h.shown d
  | @console c e k hsilent htaken =>
      by_cases hd : d = c
      · subst hd
        have hk : k.Shown := by
          refine (h.shown d).next (h.shows.sound.informed d).threads htaken fun he => ?_
          exact absurd (hsilent.symm.trans he) (by decide)
        rw [moved, modify_consoles_self]
        split
        · exact hk
        · exact hk.outbox _
      · rw [moved, modify_consoles_of_ne _ hd]
        exact h.shown d

theorem Watched.step (h : t.Watched maxPlayers s) (htwo : 2 ≤ maxPlayers.toNat)
    {e : ConsoleTableEvent} (hok : t.NoLateMessage e) (hs : t.step e = some t') :
    ∃ s', t'.Watched maxPlayers s' := by
  obtain ⟨s', hanswer, hshows⟩ := h.shows.step htwo hs
  have hshown := h.shown_step htwo hs
  rcases hanswer with rfl | ⟨e', hlate, hmove⟩
  · exact ⟨s', hshows, h.kept, h.settled, hshown⟩
  · have hmoves := Table.step_moves hmove
    exact ⟨s', hshows, h.kept.step htwo (hlate hok) hmoves,
      h.kept.settled_step htwo h.settled (hlate hok) hmoves, hshown⟩

theorem reaches_watched (htwo : 2 ≤ maxPlayers.toNat)
    (ht : Reaches step NoLateMessage (started maxPlayers) t) :
    ∃ s, t.Watched maxPlayers s :=
  ht.invariant (I := fun t => ∃ s, t.Watched maxPlayers s)
    ⟨_, started_watched maxPlayers⟩ fun _ _ _ ⟨_, h⟩ hok hs => h.step htwo hok hs

/-- Whatever the players type, as long as the lobby acts on no message of a dropped
connection: while a game is on, whoever is asked for a column is the current player, and
the last question on his screen comes with the game as the lobby has it. -/
theorem users_see_the_game (htwo : 2 ≤ maxPlayers.toNat)
    (ht : Reaches step NoLateMessage (started maxPlayers) t)
    (halive : (t.room.conns c).isAlive = true) {game : ValidGame}
    (hgame : t.room.lobby.game = some game) (hopen : (t.consoles c).socket = true)
    (hawake : ¬(t.consoles c).Deaf) {maxColumns : UInt8} {position : Position}
    (hthread : (t.consoles c).inputWorker.thread = some ⟨.turn maxColumns, position⟩)
    (hposition : position ≠ .returned) :
    (t.consoles c).client.playerId = game.getCurrentPlayer ∧
      maxColumns = game.getNumColumns ∧
      ConsoleClient.Prompted (t.consoles c).screen game := by
  obtain ⟨s, h⟩ := reaches_watched htwo ht
  have hfollows := h.shows.follows c
  have hasked : 0 < (s.players c).prompts := hfollows.owed hopen _ position hthread hposition
  rw [← h.shows.room] at halive hgame
  obtain ⟨hsees, hid, hquiet⟩ := h.kept.asked_sees htwo h.settled halive hasked hgame
  have hsome := hfollows.id hopen (Option.ne_none_iff_exists'.mpr ⟨_, hthread⟩)
  -- the console may have handled a message that its player is yet to receive
  have hsame : (t.consoles c).client.game = some game := by
    rcases hfollows.place with (hclosed | hdeaf) | ⟨_, hlevel, _⟩ |
      ⟨_, m, done, rest, hm, hread, _, _⟩
    · exact absurd (hclosed.symm.trans hopen) (by decide)
    · exact absurd hdeaf hawake
    · rw [← hlevel]
      exact hsees
    · refine (Client.handleRead_still hread (hquiet m ?_)).trans hsees
      rw [Table.inFlight, h.shows.room]
      exact List.mem_of_getElem? (i := 0) (by rw [List.getElem?_drop]; exact hm)
  obtain ⟨game', hgame', hcolumns, hprompted⟩ :=
    h.shown c hopen maxColumns (.inl ⟨position, hthread, hposition⟩)
  obtain rfl := Option.some.inj (hgame'.symm.trans hsame)
  exact ⟨hsome.symm.trans hid, hcolumns, hprompted⟩

/-- Two users arrive, and the first looks at the question for a column. -/
def looksAtGame : List ConsoleTableEvent := typesTurn.take 36

theorem users_see_the_game_first : ∃ t game, run step (started 2) looksAtGame = some t ∧
    t.room.lobby.game = some game ∧
    (t.consoles 0).client.playerId = game.getCurrentPlayer ∧ 5 = game.getNumColumns ∧
    ConsoleClient.Prompted (t.consoles 0).screen game := by
  have hrun : (run step (started 2) looksAtGame).any (fun t =>
      decide ((t.room.conns 0).isAlive = true ∧ t.room.lobby.game.isSome = true ∧
        (t.consoles 0).Listens ∧
        (t.consoles 0).inputWorker.thread = some ⟨.turn 5, .reading⟩)) = true := by
    decide +kernel
  obtain ⟨t, ht, hwhere⟩ := (Option.any_eq_true ..).mp hrun
  obtain ⟨halive, hsome, ⟨hmain, hreading, hopen⟩, hthread⟩ := of_decide_eq_true hwhere
  obtain ⟨game, hgame⟩ := Option.isSome_iff_exists.mp hsome
  have hmeets : Meets step NoLateMessage (started 2) looksAtGame := by decide +kernel
  have hawake := ConsoleClient.not_deaf_of_reading hmain hreading
  exact ⟨t, game, ht, hgame, users_see_the_game (by decide) (Reaches.run .refl hmeets ht)
    halive hgame hopen hawake hthread (by decide)⟩

end ConsoleTable

end ConnectDisks.Net
