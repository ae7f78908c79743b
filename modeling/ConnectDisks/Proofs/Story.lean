import ConnectDisks.Proofs.RoomStep
import Mathlib.Data.List.Induction

/-!
# The story a lobby tells

Everything that anybody learns about a lobby's games is in the signals it emits.
So the games have a second description, in which there are no slots, counters or
connections: a machine whose state is the game in progress, if any, and which
accepts exactly the emissions that make sense in it (`tell`). Between games
players join and turns are answered with an error; a game is announced, takes
turns, answers the ones it refuses, and ends with the winner it has.

`games` reads the games back from the story, each as the game that was announced
and the turns it accepted. The newest comes first.
-/

namespace ConnectDisks.Net

open ConnectDisks.Game Lib

/-- A game that can be built again from the four bytes that announce it. -/
def Announced (game : ValidGame) : Prop :=
  ValidGame.new game.state.numPlayers game.getCurrentPlayer game.getNumColumns
    game.getNumRows = .ok game

instance (game : ValidGame) : Decidable (Announced game) := by
  unfold Announced
  infer_instance

/-- The machine of the games. -/
def tell : Option ValidGame → Emission → Option (Option ValidGame)
  | none, .joined _ => some none
  | none, .tookTurn _ _ .error => some none
  | none, .gameStarted game _ => if Announced game then some (some game) else none
  | some game, .takeTurn playerId =>
      if playerId = game.getCurrentPlayer then some (some game) else none
  | some game, .tookTurn playerId column result =>
      if result ≠ .error ∧ (game.takeTurn playerId column).2 = result then
        some (some (game.takeTurn playerId column).1)
      else none
  | some game, .gameEnded winner => if winner = Room.outcome game then some none else none
  | _, _ => none

/-- A game as the story tells it: how it started, and the turns it accepted. -/
structure GameRecord where
  start : ValidGame
  turns : List (UInt8 × UInt8)

namespace GameRecord

def after (record : GameRecord) (k : Nat) : ValidGame :=
  (record.turns.take k).foldl (fun game turn => (game.takeTurn turn.1 turn.2).1) record.start

def game (record : GameRecord) : ValidGame := record.after record.turns.length

theorem game_eq (record : GameRecord) :
    record.game =
      record.turns.foldl (fun game turn => (game.takeTurn turn.1 turn.2).1) record.start := by
  rw [game, after, List.take_length]

/-- The same game at a later time. -/
structure Extends (earlier later : GameRecord) : Prop where
  start : later.start = earlier.start
  turns : earlier.turns <+: later.turns

theorem Extends.refl (record : GameRecord) : record.Extends record :=
  ⟨rfl, List.prefix_rfl⟩

theorem Extends.trans {a b c : GameRecord} (hab : a.Extends b) (hbc : b.Extends c) :
    a.Extends c :=
  ⟨hbc.start.trans hab.start, hab.turns.trans hbc.turns⟩

theorem Extends.game {a b : GameRecord} (h : a.Extends b) :
    a.turns.length ≤ b.turns.length ∧ a.game = b.after a.turns.length := by
  refine ⟨h.turns.length_le, ?_⟩
  rw [game_eq, after, ← List.prefix_iff_eq_take.mp h.turns, h.start]

end GameRecord

/-- What an emission adds to the games. -/
def log (records : List GameRecord) : Emission → List GameRecord
  | .gameStarted game _ => ⟨game, []⟩ :: records
  | .tookTurn playerId column .success =>
      match records with
      | [] => []
      | record :: earlier =>
          { record with turns := record.turns ++ [(playerId, column)] } :: earlier
  | _ => records

def games (story : List Emission) : List GameRecord := story.foldl log []

def lastGame (story : List Emission) : Option ValidGame :=
  (games story).head?.map GameRecord.game

theorem games_concat (story : List Emission) (e : Emission) :
    games (story ++ [e]) = log (games story) e := by
  rw [games, List.foldl_append]
  rfl

theorem lastGame_gameStarted (story : List Emission) (game : ValidGame)
    (slots : List (Option Bool)) :
    lastGame (story ++ [.gameStarted game slots]) = some game := by
  rw [lastGame, games_concat]
  rfl

theorem lastGame_success (story : List Emission) (playerId column : UInt8) :
    lastGame (story ++ [.tookTurn playerId column .success]) =
      (lastGame story).map fun game => (game.takeTurn playerId column).1 := by
  rw [lastGame, games_concat, lastGame]
  cases games story with
  | nil => rfl
  | cons record earlier => simp [log, GameRecord.game_eq]

theorem lastGame_other (story : List Emission) {e : Emission}
    (hstart : ∀ game slots, e ≠ .gameStarted game slots)
    (hturn : ∀ playerId column, e ≠ .tookTurn playerId column .success) :
    lastGame (story ++ [e]) = lastGame story := by
  rw [lastGame, games_concat, lastGame]
  congr 2
  cases e with
  | gameStarted game slots => exact absurd rfl (hstart game slots)
  | tookTurn playerId column result =>
      cases result with
      | success => exact absurd rfl (hturn playerId column)
      | _ => rfl
  | _ => rfl

theorem takeTurn_of_ne_success {game : ValidGame} {playerId column : UInt8}
    (h : (game.takeTurn playerId column).2 ≠ .success) :
    (game.takeTurn playerId column).1 = game := by
  rcases game.takeTurn_cases playerId column with ⟨hsame, _⟩ | ⟨hsucc, _⟩
  · exact hsame
  · exact absurd hsucc h

theorem tell_lastGame {state state' : Option ValidGame} {e : Emission} {story : List Emission}
    (h : tell state e = some state') (hg : ∀ game, state = some game → lastGame story = some game)
    {game' : ValidGame} (hgame' : state' = some game') :
    lastGame (story ++ [e]) = some game' := by
  subst hgame'
  unfold tell at h
  split at h
  · cases h
  · cases h
  · split at h
    · cases h
      exact lastGame_gameStarted ..
    · cases h
  · split at h
    · cases h
      rw [lastGame_other _ (by simp) (by simp)]
      exact hg _ rfl
    · cases h
  · next game playerId column result =>
      split at h
      · next hcond =>
          cases h
          by_cases hr : result = .success
          · rw [hr, lastGame_success, hg game rfl]
            rfl
          · rw [lastGame_other _ (by simp) (by simpa using hr), hg game rfl,
              takeTurn_of_ne_success (hcond.2.symm ▸ hr)]
      · cases h
  · split at h <;> cases h
  · cases h

/-- The game in progress is the last of the games. -/
theorem run_tell_lastGame {story : List Emission} {game : ValidGame}
    (h : run tell none story = some (some game)) : lastGame story = some game := by
  have hall : ∀ (es pre : List Emission) (state state' : Option ValidGame),
      (∀ game, state = some game → lastGame pre = some game) →
      run tell state es = some state' →
      ∀ game, state' = some game → lastGame (pre ++ es) = some game := by
    intro es
    induction es with
    | nil =>
        intro pre state state' hg hrun
        cases hrun
        rwa [List.append_nil]
    | cons e es ih =>
        intro pre state state' hg hrun
        obtain ⟨mid, hmid, hrest⟩ := Option.bind_eq_some_iff.mp hrun
        have := ih (pre ++ [e]) mid state' (fun _ hm => tell_lastGame hmid hg hm) hrest
        rwa [List.append_assoc] at this
  exact hall story [] none _ (fun _ hg => by cases hg) h game rfl

/-- As the story goes on, games are added at the front, and what is there stays
but for turns the newest game takes. -/
theorem games_append (story more : List Emission) {record : GameRecord}
    {earlier : List GameRecord} (h : games story = record :: earlier) :
    ∃ later record', games (story ++ more) = later ++ record' :: earlier ∧
      record.Extends record' := by
  induction more using List.reverseRecOn with
  | nil => exact ⟨[], record, by rw [List.append_nil, h]; rfl, .refl record⟩
  | append_singleton more e ih =>
      obtain ⟨later, record', heq, hext⟩ := ih
      rw [← List.append_assoc, games_concat, heq]
      unfold log
      split
      · exact ⟨_ :: later, record', rfl, hext⟩
      · next playerId column =>
          cases later with
          | nil =>
              refine ⟨[], { record' with turns := record'.turns ++ [(playerId, column)] },
                rfl, hext.trans ⟨rfl, List.prefix_append ..⟩⟩
          | cons newest later => exact ⟨_ :: later, record', rfl, hext⟩
      · exact ⟨later, record', rfl, hext⟩

end ConnectDisks.Net
