import ConnectDisks.Proofs.ConsolePlayer
import ConnectDisks.Proofs.OneToken

/-!
# Consoles are players

A lobby with consoles does nothing that a lobby with players could not: every run of
`ConsoleTable` is answered by a run of `Table` with the same lobby and the same messages
under way (`consoles_are_players`). So what is true of the turns at every table is true
of what users type. However they try, a console sends a turn only when it is its player's,
and no turn is ever answered with `wrongPlayer` (`turns_in_turn`), as long as the lobby
acts on no message of a dropped connection.
-/

namespace ConnectDisks.Net

open ConnectDisks.Game Lib

namespace ConsoleTable

variable {maxPlayers : UInt8} {t t' : ConsoleTable} {s : Table}

/-- The players at one table follow the consoles at the other. -/
structure Shows (maxPlayers : UInt8) (t : ConsoleTable) (s : Table) : Prop where
  sound : t.Sound maxPlayers
  room : s.room = t.room
  outbox : ∀ c, (t.consoles c).outbox = (s.players c).outbox
  follows : ∀ c, (t.consoles c).Follows (Network.sent t.room c) (t.delivered c)
    (s.delivered c) (s.players c)

theorem started_shows (maxPlayers : UInt8) :
    (started maxPlayers).Shows maxPlayers (Table.started maxPlayers) :=
  ⟨started_sound maxPlayers, rfl, fun _ => rfl, fun _ =>
    ⟨fun _ hthread => absurd rfl hthread, fun _ _ _ hthread => (by cases hthread),
      .inr (.inl ⟨.inl rfl, rfl, rfl⟩)⟩⟩

/-- The lobby acts on no message of a dropped connection. -/
def NoLateMessage (t : ConsoleTable) : ConsoleTableEvent → Prop
  | .receive c _ => (t.room.conns c).isAlive = false → ∀ m ∈ (t.consoles c).outbox.head?,
      (m.type = .ready → t.room.findPlayer (t.room.conns c).id = none) ∧
      (m.type = .takeTurn → t.room.lobby.isPlayingGame = false)
  | _ => True

instance (t : ConsoleTable) (e : ConsoleTableEvent) : Decidable (t.NoLateMessage e) := by
  cases e <;> unfold NoLateMessage <;> infer_instance

end ConsoleTable

namespace ConsoleClient

/-- The table after one player moved. -/
def Moved (s s' : Table) (c : ConnId) (told : Nat) (p : Player) : Prop :=
  s'.room = s.room ∧ s'.delivered = Function.update s.delivered c told ∧
    s'.players = Function.update s.players c p

/-- A move of one player is a step of the table, or none. -/
theorem PlayerMoves.step {s : Table} {c : ConnId} {told : Nat} {p : Player}
    (h : PlayerMoves (s.room.conns c).isAlive (Network.sent s.room c) (s.delivered c)
      (s.players c) told p) :
    ∃ s', (s' = s ∨ ∃ e, s.NoLateMessage e ∧ s.step e = some s') ∧ Moved s s' c told p := by
  cases h with
  | stay =>
      exact ⟨s, .inl rfl, rfl, (Function.update_eq_self _ _).symm,
        (Function.update_eq_self _ _).symm⟩
  | @receive _ p' hm hp =>
      refine ⟨s.received c p', .inr ⟨.deliver c, trivial, ?_⟩, rfl, rfl, rfl⟩
      rw [Table.step, hm, Option.bind_some, hp]
      rfl
  | @sendTurn column halive hprompts hcolumn =>
      refine ⟨s.modify c fun p => { p with
          prompts := p.prompts - 1
          outbox := p.outbox ++ [p.client.sendTurn column] },
        .inr ⟨.sendTurn c column, trivial, ?_⟩, rfl, (Function.update_eq_self _ _).symm, rfl⟩
      exact if_pos ⟨halive, hprompts, hcolumn⟩
  | toggleReady halive hreadies =>
      refine ⟨s.modify c fun p => { p with
          readies := p.readies - 1
          outbox := p.outbox ++ [p.client.toggleReady] },
        .inr ⟨.toggleReady c, trivial, ?_⟩, rfl, (Function.update_eq_self _ _).symm, rfl⟩
      exact if_pos ⟨halive, hreadies⟩

end ConsoleClient

namespace ConsoleTable

variable {maxPlayers : UInt8} {t t' : ConsoleTable} {s s' : Table}

theorem Shows.moved (h : t.Shows maxPlayers s) {c : ConnId} {told : Nat} {p : Player}
    (hmoved : ConsoleClient.Moved s s' c told p) (hsound : t'.Sound maxPlayers)
    (hroom : t'.room = t.room)
    (hothers : ∀ d, d ≠ c → t'.consoles d = t.consoles d ∧ t'.delivered d = t.delivered d)
    (houtbox : (t'.consoles c).outbox = p.outbox)
    (hfollows : (t'.consoles c).Follows (Network.sent t.room c) (t'.delivered c) told p) :
    t'.Shows maxPlayers s' := by
  obtain ⟨hroom', htold, hplayers⟩ := hmoved
  refine ⟨hsound, (hroom'.trans h.room).trans hroom.symm, fun d => ?_, fun d => ?_⟩ <;>
    by_cases hd : d = c
  · subst hd
    rw [hplayers, Function.update_self]
    exact houtbox
  · rw [hplayers, Function.update_of_ne hd, (hothers d hd).1]
    exact h.outbox d
  · subst hd
    rw [hplayers, htold, Function.update_self, Function.update_self, hroom]
    exact hfollows
  · rw [hplayers, htold, Function.update_of_ne hd, Function.update_of_ne hd, hroom,
      (hothers d hd).1, (hothers d hd).2]
    exact h.follows d

/-- Every step with consoles is a step with players, or none. -/
theorem Shows.step (htwo : 2 ≤ maxPlayers.toNat) (h : t.Shows maxPlayers s)
    {e : ConsoleTableEvent} (hs : t.step e = some t') :
    ∃ s', (s' = s ∨ ∃ e', (t.NoLateMessage e → s.NoLateMessage e') ∧ s.step e' = some s') ∧
      t'.Shows maxPlayers s' := by
  have hsound := h.sound.step htwo hs
  cases step_moves hs with
  | @room e r hsilent hroom =>
      obtain ⟨_, hgrows⟩ := h.sound.room_step htwo hroom
      refine ⟨{ s with room := r }, .inr ⟨.room e, fun _ => trivial, ?_⟩, hsound, rfl, h.outbox,
        fun d => (h.follows d).grows (hgrows d)⟩
      rw [Table.step, if_neg hsilent, h.room, hroom]
      rfl
  | @receive c first m rest r hbox hroom =>
      obtain ⟨_, hgrows⟩ := h.sound.room_step htwo hroom
      have hbox' : (s.players c).outbox = m :: rest := (h.outbox c).symm.trans hbox
      refine ⟨{ s with room := r }.modify c fun p => { p with outbox := rest },
        .inr ⟨.receive c first, fun hlate => ?_, ?_⟩, hsound, rfl, fun d => ?_, fun d => ?_⟩
      · rw [NoLateMessage, h.outbox c] at hlate
        rwa [Table.NoLateMessage, h.room]
      · rw [Table.step, hbox', h.room]
        simp only [hroom, Option.map_some]
      · by_cases hd : d = c
        · subst hd
          rw [modify_consoles_self, Table.modify_players_self]
        · rw [modify_consoles_of_ne _ hd, Table.modify_players_of_ne _ hd]
          exact h.outbox d
      · by_cases hd : d = c
        · subst hd
          rw [modify_consoles_self, Table.modify_players_self]
          have hfollows := (h.follows d).grows (hgrows d)
          exact ⟨hfollows.id, hfollows.owed, hfollows.place⟩
        · rw [modify_consoles_of_ne _ hd, Table.modify_players_of_ne _ hd]
          exact (h.follows d).grows (hgrows d)
  | @deliver c m k hnext htaken =>
      obtain ⟨told, p, hmove, houtbox, hfollows⟩ := (h.follows c).hears htwo
        (h.sound.informed c) (h.outbox c) hnext (h.sound.word htwo c) htaken
        (t.room.conns c).isAlive
      rw [← h.room] at hmove
      obtain ⟨s', hanswer, hmoved⟩ := hmove.step
      refine ⟨s', hanswer.imp_right (Exists.imp fun _ h => h.imp_left fun hok _ => hok),
        h.moved hmoved hsound rfl (fun d hd => ?_) ?_ ?_⟩
      · exact ⟨modify_consoles_of_ne _ hd _, Function.update_of_ne hd ..⟩
      · rw [heard, modify_consoles_self]
        exact houtbox
      · rw [heard, modify_consoles_self]
        show k.Follows _ (Function.update t.delivered c (t.delivered c + 1) c) told p
        rwa [Function.update_self]
  | @console c e k hsilent htaken =>
      obtain ⟨told, p, hmove, houtbox, hfollows⟩ := (h.follows c).step
        (h.sound.informed c).threads (h.outbox c) hsilent htaken (t.room.conns c).isAlive
      rw [← h.room] at hmove
      obtain ⟨s', hanswer, hmoved⟩ := hmove.step
      refine ⟨s', hanswer.imp_right (Exists.imp fun _ h => h.imp_left fun hok _ => hok),
        h.moved hmoved hsound rfl (fun d hd => ?_) ?_ ?_⟩
      · exact ⟨modify_consoles_of_ne _ hd _, rfl⟩
      · rw [ConsoleTable.moved, modify_consoles_self]
        exact houtbox
      · rw [ConsoleTable.moved, modify_consoles_self]
        exact hfollows

/-- Every run of a lobby with consoles is answered by one of a lobby with players. The
lobby is the same, and the same messages are under way to it. A console that waits for its
next message is where its player is. -/
theorem consoles_are_players (htwo : 2 ≤ maxPlayers.toNat)
    (ht : Reachable step (started maxPlayers) t) :
    ∃ s, Reachable Table.step (Table.started maxPlayers) s ∧ s.room = t.room ∧
      (∀ c, (s.players c).outbox = (t.consoles c).outbox) ∧
      ∀ c, (t.consoles c).Listens →
        (s.players c).client = (t.consoles c).client ∧ s.delivered c = t.delivered c := by
  obtain ⟨s, hreach, h⟩ : ∃ s, Reachable Table.step (Table.started maxPlayers) s ∧
      t.Shows maxPlayers s := by
    refine ht.simulates (fun t e t' s h _ hs => ?_) (started_shows maxPlayers)
    obtain ⟨s', hanswer, hshows⟩ := h.step htwo hs
    exact ⟨s', hanswer.imp_right (Exists.imp fun _ h => ⟨trivial, h.2⟩), hshows⟩
  refine ⟨s, hreach, h.room, fun c => (h.outbox c).symm, fun c hlistens => ?_⟩
  exact (h.follows c).listens hlistens

/-- A user arrives and types that it is ready. -/
def arrivesReady (c : ConnId) : List ConsoleTableEvent :=
  [.room (.accept c), .room (.join c), .deliver c, .console c .call, .console c .call,
      .receive c 1, .deliver c] ++
    [.call, .call, .test, .type "ready".toList, .check, .callback].map (.console c) ++
    [.receive c 1]

/-- Two users arrive, and the first is asked for a turn and types a column. -/
def typesTurn : List ConsoleTableEvent :=
  arrivesReady 0 ++ arrivesReady 1 ++
    [.deliver 0, .console 0 .call, .console 0 .call, .deliver 0] ++
    [.call, .joined, .call, .test, .type "3".toList, .check, .callback].map (.console 0)

instance (c : ConsoleClient) : Decidable c.Listens := by
  unfold ConsoleClient.Listens
  infer_instance

theorem consoles_are_players_turn : ∃ t, run step (started 2) typesTurn = some t ∧
    (t.consoles 0).Listens ∧
    ∃ s, Reachable Table.step (Table.started 2) s ∧ s.room = t.room ∧
      (∀ c, (s.players c).outbox = (t.consoles c).outbox) ∧
      ∀ c, (t.consoles c).Listens →
        (s.players c).client = (t.consoles c).client ∧ s.delivered c = t.delivered c := by
  have hrun : (run step (started 2) typesTurn).any (fun t =>
      decide (t.consoles 0).Listens) = true := by
    decide +kernel
  obtain ⟨t, ht, hlistens⟩ := (Option.any_eq_true ..).mp hrun
  exact ⟨t, ht, of_decide_eq_true hlistens, consoles_are_players (by decide) (.of_run ht)⟩

/-- The turns that are under way from a player. -/
def turnsSent (t : ConsoleTable) (c : ConnId) : Nat :=
  (t.consoles c).outbox.countP fun m => decide (m.type = .takeTurn)

/-- Whatever the players type, as long as the lobby acts on no message of a dropped
connection: no turn was answered with `wrongPlayer`, and while a game is on, a turn is
under way from nobody but the current player, and from that one no second one. -/
theorem turns_in_turn (htwo : 2 ≤ maxPlayers.toNat)
    (ht : Reaches step NoLateMessage (started maxPlayers) t) :
    Table.Answers t.room ∧ ∀ game, t.room.lobby.game = some game →
      ∀ i c, t.room.Seated i c →
        t.turnsSent c ≤ if (t.room.conns c).id = game.getCurrentPlayer then 1 else 0 := by
  obtain ⟨s, hreach, h⟩ : ∃ s,
      Reaches Table.step Table.NoLateMessage (Table.started maxPlayers) s ∧
      t.Shows maxPlayers s := by
    refine ht.simulates (fun t e t' s h hok hs => ?_) (started_shows maxPlayers)
    obtain ⟨s', hanswer, hshows⟩ := h.step htwo hs
    exact ⟨s', hanswer.imp_right (Exists.imp fun _ h => h.imp_left fun hlate => hlate hok),
      hshows⟩
  have hkept := Table.Kept.reaches htwo hreach
  refine ⟨h.room ▸ hkept.answers, fun game hgame i c hc => ?_⟩
  rw [← h.room] at hgame hc ⊢
  rw [← hkept.tokens_eq hgame hc, turnsSent, h.outbox c]
  exact Nat.le_add_left _ _

theorem turns_in_turn_typed : ∃ t, run step (started 2) typesTurn = some t ∧
    t.turnsSent 0 = 1 ∧ Table.Answers t.room ∧ ∀ game, t.room.lobby.game = some game →
      ∀ i c, t.room.Seated i c →
        t.turnsSent c ≤ if (t.room.conns c).id = game.getCurrentPlayer then 1 else 0 := by
  have hrun : (run step (started 2) typesTurn).any (fun t => decide (t.turnsSent 0 = 1)) =
      true := by
    decide +kernel
  obtain ⟨t, ht, hsent⟩ := (Option.any_eq_true ..).mp hrun
  have hmeets : Meets step NoLateMessage (started 2) typesTurn := by decide +kernel
  exact ⟨t, ht, of_decide_eq_true hsent,
    turns_in_turn (by decide) (Reaches.run .refl hmeets ht)⟩

end ConsoleTable

end ConnectDisks.Net
