import ConnectDisks.Proofs.GameKept
import ConnectDisks.Proofs.LobbyShape

/-!
# A rejected turn

The result of a turn goes out through a signal to everybody who ever joined the
lobby, and each handler decides by id and result whether it concerns its client.
Players who left are still connected to that signal, some of them with the id of
the player who has their slot now. So that a rejected turn reaches its sender and
nobody else takes all of the invariant: the ids in the slots are distinct, whoever
is alive has a slot, and nothing is sent to the others.
-/

namespace ConnectDisks.Net

open ConnectDisks.Game Lib

theorem Connection.onUpdate_rejected {c : Connection} {playerId column : UInt8}
    {result : TurnResult} (hc : c.isAlive = true → playerId ≠ c.id)
    (hresult : result ≠ .success) : c.onUpdate playerId column result = c := by
  rw [onUpdate]
  split
  · rw [if_neg (by simpa using hresult)]
  · next hid =>
      have hdead : c.isAlive = false := by
        cases halive : c.isAlive with
        | false => rfl
        | true => exact absurd (by simpa using hid) (hc halive)
      exact sendMessage_of_dead hdead _

theorem Connection.onUpdate_own {c : Connection} (hc : c.isAlive = true) (column : UInt8)
    (result : TurnResult) :
    c.onUpdate c.getId column result =
      { c with sent := c.sent ++ [.turnResult result column] } := by
  rw [onUpdate, if_neg (by simp [getId])]
  exact sendMessage_of_alive hc _

namespace Room

/-- The `result` of `onTakeTurn`. -/
def turnResult (r : Room) (c : ConnId) (column : UInt8) : TurnResult :=
  if !r.lobby.isPlayingGame then .error
  else
    match r.lobby.game with
    | none => .error
    | some game => (game.takeTurn (r.conns c).getId column).2

theorem turnResult_of_not {r : Room} (h : r.lobby.isPlayingGame = false) (c : ConnId)
    (column : UInt8) : r.turnResult c column = .error := by
  rw [turnResult, h]
  rfl

theorem turnResult_of_game {r : Room} (h : Playing r.lobby) {game : ValidGame}
    (hgame : r.lobby.game = some game) (c : ConnId) (column : UInt8) :
    r.turnResult c column = (game.takeTurn (r.conns c).getId column).2 := by
  rw [turnResult, h.isPlaying hgame, hgame]
  rfl

/-- The sender of a turn is told the result, and nothing else happens. -/
structure Answered (r : Room) (c : ConnId) (column : UInt8) (result : TurnResult)
    (r' : Room) : Prop where
  lobby : r'.lobby = { r.lobby with
    trace := r.lobby.trace ++ [.tookTurn (r.conns c).getId column result] }
  sender : r'.conns c = { r.conns c with
    sent := (r.conns c).sent ++ [.turnResult result column] }
  others : ∀ d, d ≠ c → r'.conns d = r.conns d

theorem tookTurn_answered {r : Room} (h : r.Seats) {i : Nat} {c : ConnId}
    (hc : r.Seated i c) (halive : (r.conns c).isAlive = true) (column : UInt8)
    {result : TurnResult} (hresult : result ≠ .success) :
    r.Answered c column result (r.tookTurn (r.conns c).getId column result) := by
  refine ⟨rfl, ?_, fun d hd => ?_⟩
  · rw [tookTurn, emit_conns _ _ _ h.nodup, if_pos (h.seated i c hc).1]
    exact Connection.onUpdate_own halive column result
  · rw [tookTurn, emit_conns _ _ _ h.nodup]
    split
    · next hin =>
        refine Connection.onUpdate_rejected (fun hd' hid => hd ?_) hresult
        obtain ⟨j, hj⟩ := h.alive d hin hd'
        exact h.occupant_inj hj hc hid.symm
    · rfl

theorem onTakeTurn_tookTurn {r : Room} (h : Playing r.lobby) (c : ConnId) (column : UInt8) :
    ∃ es, (r.onTakeTurn c column).lobby.trace = r.lobby.trace ++
      .tookTurn (r.conns c).getId column (r.turnResult c column) :: es := by
  rcases onTakeTurn_cases h c column with
    ⟨hplay, heq⟩ | ⟨game, hgame, _, _, _, heq⟩ | ⟨game, game', hgame, hturn, _, _, heq⟩ |
      ⟨game, game', hgame, hturn, _, heq⟩ <;> rw [heq]
  · rw [turnResult_of_not hplay]
    exact ⟨[], rfl⟩
  · rw [turnResult_of_game h hgame]
    exact ⟨[], rfl⟩
  · rw [turnResult_of_game h hgame, hturn]
    exact ⟨[_], List.append_assoc ..⟩
  · rw [turnResult_of_game h hgame, hturn]
    exact ⟨[_], List.append_assoc ..⟩

/-- A turn that is not accepted is answered to its sender, and that is all that
happens: to the lobby, to its game, and to every other connection. -/
theorem rejected_turn_answered {maxPlayers : UInt8} {r : Room}
    (hr : Reachable Room.step (started maxPlayers) r) {i : Nat} {c : ConnId}
    (hc : r.Seated i c) (halive : (r.conns c).isAlive = true) (column : UInt8) :
    (r.emitted (r.onTakeTurn c column)).head? =
        some (.tookTurn (r.conns c).getId column (r.turnResult c column)) ∧
      (r.turnResult c column ≠ .success →
        r.Answered c column (r.turnResult c column) (r.onTakeTurn c column)) := by
  have hinv := reachable_inv hr
  refine ⟨?_, fun hresult => ?_⟩
  · obtain ⟨es, hes⟩ := onTakeTurn_tookTurn hinv.playing c column
    rw [emitted, hes, List.drop_left]
    rfl
  · have hanswered := tookTurn_answered hinv.seats hc halive column hresult
    rcases onTakeTurn_cases hinv.playing c column with
      ⟨hplay, heq⟩ | ⟨game, hgame, _, _, _, heq⟩ | ⟨game, game', hgame, hturn, _, _, _⟩ |
        ⟨game, game', hgame, hturn, _, _⟩
    · rw [turnResult_of_not hplay] at hanswered ⊢
      rw [heq]
      exact hanswered
    · rw [turnResult_of_game hinv.playing hgame] at hanswered ⊢
      rw [heq]
      exact hanswered
    · rw [turnResult_of_game hinv.playing hgame, hturn] at hresult
      exact absurd rfl hresult
    · rw [turnResult_of_game hinv.playing hgame, hturn] at hresult
      exact absurd rfl hresult

/-- The sender has the id of a client that left. -/
theorem rejected_turn_answered_replaced :
    ∃ r, run Room.step (started 2) replaced = some r ∧
      (r.conns 0).getId = 1 ∧ (r.conns 2).getId = 1 ∧
      r.Answered 2 7 .badColumn (r.onTakeTurn 2 7) := by
  have hrun : (run Room.step (started 2) replaced).any (fun r =>
      decide (r.lobby.players[0]? = some (some 2) ∧ (r.conns 2).isAlive = true ∧
        (r.conns 0).getId = 1 ∧ (r.conns 2).getId = 1 ∧
        r.turnResult 2 7 = .badColumn)) = true := by
    decide +kernel
  obtain ⟨r, hrun, hr⟩ := (Option.any_eq_true ..).mp hrun
  obtain ⟨hseated, halive, hleft, hid, hresult⟩ := of_decide_eq_true hr
  have hanswered := (rejected_turn_answered (.of_run hrun) hseated halive 7).2
  rw [hresult] at hanswered
  exact ⟨r, hrun, hleft, hid, hanswered (by simp)⟩

end Room

end ConnectDisks.Net
