import ConnectDisks.Proofs.ConnectionSpec
import ConnectDisks.Server.Room
import Mathlib.Data.List.Count

/-!
# The lobby's representation invariant

Two halves. `Seats` ties the slot vector, the counter of players and the ids of
the connections to one another: the occupant of slot `i` has id `i + 1`, and a
connection that was added and is still alive occupies the slot its id names.
`Playing` is about the game: it exists exactly while the lobby is playing, the
lobby is full then, and the game is not over.

Of a connection only its `seat` matters here, and no signal of the lobby changes
that. So `Seats` passes through every emission, and only `addPlayer`,
`onDisconnect` and the death of a connection have to argue for it.
-/

namespace ConnectDisks.Net

open ConnectDisks.Game Lib

namespace Connection

/-- What the seating of a lobby depends on. -/
def seat (c : Connection) : Option LobbyId × UInt8 × List LobbyId × Bool :=
  (c.lobby, c.id, c.handlers, c.isAlive)

@[simp] theorem sendMessage_seat (c : Connection) (m : Message) :
    (c.sendMessage m).seat = c.seat := by
  rw [sendMessage]
  split <;> rfl

@[simp] theorem onGameStart_seat (c : Connection) (n : UInt8) (game : ValidGame) :
    (c.onGameStart n game).seat = c.seat :=
  sendMessage_seat c _

@[simp] theorem onGameEnd_seat (c : Connection) (winner : UInt8) :
    (c.onGameEnd winner).seat = c.seat :=
  sendMessage_seat _ _

@[simp] theorem onTurn_seat (c : Connection) (playerId : UInt8) :
    (c.onTurn playerId).seat = c.seat := by
  rw [onTurn]
  split
  · exact sendMessage_seat c _
  · rfl

@[simp] theorem onUpdate_seat (c : Connection) (playerId col : UInt8)
    (result : TurnResult) : (c.onUpdate playerId col result).seat = c.seat := by
  rw [onUpdate]
  split
  · split
    · exact sendMessage_seat c _
    · rfl
  · exact sendMessage_seat c _

theorem Idles.seat {c c' : Connection} (h : c.Idles c') : c'.seat = c.seat := by
  rw [Connection.seat, Connection.seat, h.lobby, h.id, h.handlers, h.isAlive]

/-- The same seat, except that the connection may have been dropped. -/
structure KeepsSeat (c c' : Connection) : Prop where
  lobby : c'.lobby = c.lobby
  id : c'.id = c.id
  handlers : c'.handlers = c.handlers
  isAlive : c'.isAlive = true → c.isAlive = true

theorem KeepsSeat.of_seat {c c' : Connection} (h : c'.seat = c.seat) : c.KeepsSeat c' := by
  simp only [Connection.seat, Prod.mk.injEq] at h
  obtain ⟨hlobby, hid, hhandlers, halive⟩ := h
  exact ⟨hlobby, hid, hhandlers, fun ha => halive ▸ ha⟩

theorem KeepsSeat.refl (c : Connection) : c.KeepsSeat c := .of_seat rfl

end Connection

def GameLobby.seating (l : GameLobby) :
    Bool × UInt8 × UInt8 × List (Option ConnId) × List ConnId × LobbyId :=
  (l.lobbyIsOpen, l.maxPlayers, l.numPlayers, l.players, l.handlers, l.address)

namespace Room

/-- Connection `c` sits in slot `i`. -/
def Seated (r : Room) (i : Nat) (c : ConnId) : Prop :=
  r.lobby.players[i]? = some (some c)

structure Seats (r : Room) : Prop where
  isOpen : r.lobby.lobbyIsOpen = true
  length : r.lobby.players.length = r.lobby.maxPlayers.toNat
  count : r.lobby.numPlayers.toNat = r.lobby.players.countP Option.isSome
  seated : ∀ i c, r.Seated i c → c ∈ r.lobby.handlers ∧ (r.conns c).id.toNat = i + 1
  nodup : r.lobby.handlers.Nodup
  member : ∀ c ∈ r.lobby.handlers, (r.conns c).lobby = some r.lobby.address ∧
    (r.conns c).handlers = [r.lobby.address] ∧
    ∃ i < r.lobby.players.length, (r.conns c).id.toNat = i + 1
  attached : ∀ c, r.lobby.address ∈ (r.conns c).handlers → c ∈ r.lobby.handlers
  alive : ∀ c ∈ r.lobby.handlers, (r.conns c).isAlive = true → ∃ i, r.Seated i c

structure Playing (l : GameLobby) : Prop where
  playing : l.isPlayingGame = l.game.isSome
  full : l.isPlayingGame = true → l.isFull = true
  running : ∀ g, l.game = some g →
    g.hasWinner = false ∧ g.boardFull = false ∧
      (2 ≤ l.maxPlayers.toNat → g.state.numPlayers = l.maxPlayers)
  defined : l.undefined = false

structure Inv (r : Room) : Prop where
  seats : r.Seats
  playing : Playing r.lobby

/-! ## The game -/

theorem Playing.of_not {l : GameLobby} (hplay : l.isPlayingGame = false)
    (hgame : l.game = none) (hdef : l.undefined = false) : Playing l :=
  ⟨by rw [hplay, hgame]; rfl, fun h => absurd (h.symm.trans hplay) (by decide),
    fun _ h => absurd (h.symm.trans hgame) (by simp), hdef⟩

theorem Playing.not_game {l : GameLobby} (h : Playing l) (hplay : l.isPlayingGame = false) :
    l.game = none := by
  have := h.playing
  rw [hplay] at this
  exact Option.isNone_iff_eq_none.mp (Option.isSome_eq_false_iff.mp this.symm)

theorem Playing.not_playing {l : GameLobby} (h : Playing l) (hgame : l.game = none) :
    l.isPlayingGame = false := by
  rw [h.playing, hgame]
  rfl

theorem Playing.exists_game {l : GameLobby} (h : Playing l) (hplay : l.isPlayingGame = true) :
    ∃ g, l.game = some g :=
  Option.isSome_iff_exists.mp (h.playing.symm.trans hplay)

theorem Playing.congr {l l' : GameLobby} (h : Playing l)
    (hplay : l'.isPlayingGame = l.isPlayingGame) (hgame : l'.game = l.game)
    (hnum : l'.numPlayers = l.numPlayers) (hmax : l'.maxPlayers = l.maxPlayers)
    (hdef : l'.undefined = l.undefined) : Playing l' := by
  refine ⟨?_, ?_, ?_, ?_⟩
  · rw [hplay, hgame, h.playing]
  · intro hp
    rw [GameLobby.isFull, hnum, hmax]
    exact h.full (hplay ▸ hp)
  · rw [hgame, hmax]
    exact h.running
  · rw [hdef, h.defined]

theorem Playing.of_game {l : GameLobby} {g : ValidGame} (hplay : l.isPlayingGame = true)
    (hgame : l.game = some g) (hfull : l.isFull = true) (hwin : g.hasWinner = false)
    (hroom : g.boardFull = false)
    (hnum : 2 ≤ l.maxPlayers.toNat → g.state.numPlayers = l.maxPlayers)
    (hdef : l.undefined = false) : Playing l := by
  refine ⟨by rw [hplay, hgame]; rfl, fun _ => hfull, fun g' hg' => ?_, hdef⟩
  rw [hgame] at hg'
  rw [← Option.some.inj hg']
  exact ⟨hwin, hroom, hnum⟩

theorem Playing.isPlaying {l : GameLobby} (h : Playing l) {g : ValidGame}
    (hg : l.game = some g) : l.isPlayingGame = true := by
  rw [h.playing, hg]
  rfl

/-! ## Seats -/

theorem findPlayer_congr {r r' : Room} (hp : r'.lobby.players = r.lobby.players)
    (hid : ∀ c, (r'.conns c).id = (r.conns c).id) (id : UInt8) :
    r'.findPlayer id = r.findPlayer id := by
  rw [findPlayer, findPlayer, hp]
  congr 1
  funext slot
  cases slot with
  | none => rfl
  | some d => exact congrArg (· == id) (hid d)

namespace Seats

variable {r r' : Room}

theorem congr (h : r.Seats) (hl : r'.lobby.seating = r.lobby.seating)
    (hmem : ∀ c ∈ r.lobby.handlers, (r.conns c).KeepsSeat (r'.conns c))
    (hout : ∀ c ∉ r.lobby.handlers, r.lobby.address ∉ (r'.conns c).handlers) :
    r'.Seats := by
  simp only [GameLobby.seating, Prod.mk.injEq] at hl
  obtain ⟨hopen, hmax, hnum, hplayers, hhandlers, haddr⟩ := hl
  have hseated : ∀ i c, r'.Seated i c ↔ r.Seated i c := by
    intro i c
    rw [Seated, Seated, hplayers]
  refine ⟨?_, ?_, ?_, ?_, ?_, ?_, ?_, ?_⟩
  · rw [hopen, h.isOpen]
  · rw [hplayers, hmax, h.length]
  · rw [hnum, hplayers, h.count]
  · intro i c hc
    obtain ⟨hin, hid⟩ := h.seated i c ((hseated i c).mp hc)
    rw [hhandlers, (hmem c hin).id]
    exact ⟨hin, hid⟩
  · rw [hhandlers]
    exact h.nodup
  · intro c hc
    rw [hhandlers] at hc
    rw [(hmem c hc).lobby, (hmem c hc).handlers, (hmem c hc).id, hplayers, haddr]
    exact h.member c hc
  · intro c hc
    rw [haddr] at hc
    rw [hhandlers]
    by_contra hn
    exact hout c hn hc
  · intro c hc halive
    rw [hhandlers] at hc
    obtain ⟨i, hi⟩ := h.alive c hc ((hmem c hc).isAlive halive)
    exact ⟨i, (hseated i c).mpr hi⟩

theorem congr_all (h : r.Seats) (hl : r'.lobby.seating = r.lobby.seating)
    (hc : ∀ c, (r.conns c).KeepsSeat (r'.conns c)) : r'.Seats := by
  refine h.congr hl (fun c _ => hc c) fun c hn hin => ?_
  rw [(hc c).handlers] at hin
  exact hn (h.attached c hin)

/-- A connection of this lobby is attached to it alone, any other not at all. -/
theorem mem_handlers (h : r.Seats) (c : ConnId) :
    c ∈ r.lobby.handlers ↔ r.lobby.address ∈ (r.conns c).handlers := by
  refine ⟨fun hc => ?_, h.attached c⟩
  rw [(h.member c hc).2.1]
  exact List.mem_singleton_self _

theorem not_joinable (h : r.Seats) {c : ConnId} (hc : c ∈ r.lobby.handlers) :
    ¬ r.Joinable c := by
  rintro ⟨_, hnil⟩
  rw [(h.member c hc).2.1] at hnil
  cases hnil

theorem seated_lt {i : Nat} {c : ConnId} (hc : r.Seated i c) :
    i < r.lobby.players.length :=
  (List.getElem?_eq_some_iff.mp hc).1

theorem seated_inj (h : r.Seats) {i j : Nat} {c d : ConnId} (hc : r.Seated i c)
    (hd : r.Seated j d) : (r.conns c).id = (r.conns d).id ↔ i = j := by
  rw [← UInt8.toNat_inj, (h.seated i c hc).2, (h.seated j d hd).2]
  omega

theorem occupant_inj (h : r.Seats) {i j : Nat} {c d : ConnId} (hc : r.Seated i c)
    (hd : r.Seated j d) (hid : (r.conns c).id = (r.conns d).id) : c = d := by
  obtain rfl := (h.seated_inj hc hd).mp hid
  exact Option.some.inj (Option.some.inj (hc.symm.trans hd))

theorem findPlayer_eq_some (h : r.Seats) {id : UInt8} {i : Nat} :
    r.findPlayer id = some i ↔ (∃ d, r.Seated i d) ∧ id.toNat = i + 1 := by
  rw [findPlayer, List.findIdx?_eq_some_iff_getElem]
  constructor
  · rintro ⟨hlt, hp, _⟩
    split at hp
    · next d hd =>
        have hseat : r.Seated i d := by rw [Seated, List.getElem?_eq_getElem hlt, hd]
        refine ⟨⟨d, hseat⟩, ?_⟩
        rw [← beq_iff_eq.mp hp]
        exact (h.seated i d hseat).2
    · cases hp
  · rintro ⟨⟨d, hd⟩, hid⟩
    have hlt := seated_lt hd
    have hget : r.lobby.players[i] = some d := by
      rw [Seated, List.getElem?_eq_getElem hlt] at hd
      exact Option.some.inj hd
    refine ⟨hlt, ?_, ?_⟩
    · rw [hget]
      simp only [beq_iff_eq]
      rw [← UInt8.toNat_inj, hid]
      exact (h.seated i d hd).2
    · intro j hj
      split
      · next e he =>
          have hjlt : j < r.lobby.players.length := Nat.lt_trans hj hlt
          have hseat : r.Seated j e := by rw [Seated, List.getElem?_eq_getElem hjlt, he]
          have hje := (h.seated j e hseat).2
          simp only [beq_iff_eq, ← UInt8.toNat_inj, Connection.getId]
          omega
      · simp

theorem findPlayer_of_seated (h : r.Seats) {i : Nat} {c : ConnId} (hc : r.Seated i c) :
    r.findPlayer (r.conns c).getId = some i :=
  h.findPlayer_eq_some.mpr ⟨⟨c, hc⟩, (h.seated i c hc).2⟩

theorem isFull_iff (h : r.Seats) :
    r.lobby.isFull = true ↔ ∀ i < r.lobby.players.length, ∃ c, r.Seated i c := by
  rw [GameLobby.isFull, beq_iff_eq, ← UInt8.toNat_inj, h.count, ← h.length,
    List.countP_eq_length]
  constructor
  · intro hall i hi
    obtain ⟨c, hc⟩ := Option.isSome_iff_exists.mp (hall _ (List.getElem_mem hi))
    exact ⟨c, by rw [Seated, List.getElem?_eq_getElem hi, hc]⟩
  · intro hall s hs
    obtain ⟨i, hi, rfl⟩ := List.getElem_of_mem hs
    obtain ⟨c, hc⟩ := hall i hi
    rw [Seated, List.getElem?_eq_getElem hi] at hc
    rw [Option.some.inj hc]
    rfl

end Seats

/-! ## What the methods do

The four signals change only connections and the trace. The methods are brought
to a normal form here, one equation for each way they can go; what later modules
prove about a method starts from these. -/

@[simp] theorem emit_lobby (r : Room) (e : Emission) (f : Connection → Connection) :
    (r.emit e f).lobby = { r.lobby with trace := r.lobby.trace ++ [e] } := rfl

theorem emit_conns (r : Room) (e : Emission) (f : Connection → Connection)
    (h : r.lobby.handlers.Nodup) (c : ConnId) :
    (r.emit e f).conns c = if c ∈ r.lobby.handlers then f (r.conns c) else r.conns c :=
  broadcast_apply r.conns c h

theorem emit_seat (r : Room) (e : Emission) {f : Connection → Connection}
    (hf : ∀ c, (f c).seat = c.seat) (c : ConnId) :
    ((r.emit e f).conns c).seat = (r.conns c).seat :=
  broadcast_keeps Connection.seat hf r.lobby.handlers r.conns c

theorem Seats.emit {r : Room} (h : r.Seats) (e : Emission) {f : Connection → Connection}
    (hf : ∀ c, (f c).seat = c.seat) : (r.emit e f).Seats :=
  h.congr_all rfl fun c => .of_seat (r.emit_seat e hf c)

theorem Seats.withLobby {r : Room} (h : r.Seats) {l : GameLobby}
    (hl : l.seating = r.lobby.seating) : Seats ⟨l, r.conns⟩ :=
  h.congr_all hl fun _ => .refl _

theorem Seats.takeTurn {r : Room} (h : r.Seats) (playerId : UInt8) :
    (r.takeTurn playerId).Seats :=
  h.emit _ fun c => Connection.onTurn_seat c playerId

theorem Seats.tookTurn {r : Room} (h : r.Seats) (playerId column : UInt8)
    (result : TurnResult) : (r.tookTurn playerId column result).Seats :=
  h.emit _ fun c => Connection.onUpdate_seat c playerId column result

/-- The room with another game in its lobby. -/
def withGame (r : Room) (game : Option ValidGame) : Room :=
  { r with lobby := { r.lobby with game := game } }

theorem Seats.withGame {r : Room} (h : r.Seats) (game : Option ValidGame) :
    (r.withGame game).Seats :=
  h.withLobby rfl

/-- A new game: it is announced, and its first player is asked for a turn. -/
def opened (r : Room) (game : ValidGame) : Room :=
  (gameStarted { r with lobby := { r.lobby with game := some game, isPlayingGame := true } }
    game).takeTurn game.getCurrentPlayer

@[simp] theorem opened_isPlayingGame (r : Room) (game : ValidGame) :
    (r.opened game).lobby.isPlayingGame = true := rfl

/-- The end of a game: the winner is announced and the lobby is wiped clean. -/
def gameOver (r : Room) (winner : UInt8) : Room :=
  { r.gameEnded winner with lobby := { (r.gameEnded winner).lobby with
      game := none
      isPlayingGame := false
      numReady := 0 } }

theorem gameOver_conns (r : Room) (winner : UInt8) :
    (r.gameOver winner).conns = broadcast (·.onGameEnd winner) r.lobby.handlers r.conns := rfl

/-- The winner `onGameOver` announces. -/
def outcome (game : ValidGame) : UInt8 :=
  if game.hasWinner then game.getWinner else FourAcross.noWinner

theorem onGameOver_eq {r : Room} {game : ValidGame} (h : r.lobby.game = some game) :
    r.onGameOver = r.gameOver (outcome game) := by
  rw [onGameOver, h, outcome]
  simp only
  split <;> rfl

theorem Seats.opened {r : Room} (h : r.Seats) (game : ValidGame) : (r.opened game).Seats := by
  refine Seats.takeTurn (Seats.emit ?_ _ ?_) _
  · exact h.withLobby rfl
  · exact fun c => Connection.onGameStart_seat c _ game

theorem Seats.gameOver {r : Room} (h : r.Seats) (winner : UInt8) : (r.gameOver winner).Seats :=
  (h.emit _ fun c => Connection.onGameEnd_seat c winner).withLobby rfl

def counted (r : Room) : Room :=
  { r with lobby := { r.lobby with numReady := r.lobby.numReady + 1 } }

/-- The four ways of `onReady`. In the third the lobby is playing: the counter
has come round to the number of players, and the game is thrown away. -/
theorem onReady_cases {r : Room} (hopen : r.lobby.lobbyIsOpen = true) (c : ConnId)
    (first : UInt8) :
    (r.findPlayer (r.conns c).getId = none ∧ r.onReady c first = r) ∨
    (∃ i, r.findPlayer (r.conns c).getId = some i ∧
      ¬ (r.lobby.numReady + 1 = r.lobby.numPlayers ∧ r.lobby.isFull = true) ∧
      r.onReady c first = r.counted) ∨
    (∃ i, r.findPlayer (r.conns c).getId = some i ∧
      r.lobby.numReady + 1 = r.lobby.numPlayers ∧ r.lobby.isFull = true ∧
      r.lobby.isPlayingGame = true ∧
      r.onReady c first =
        r.counted.withGame (some (.standard r.lobby.maxPlayers first))) ∨
    (∃ i, r.findPlayer (r.conns c).getId = some i ∧
      r.lobby.numReady + 1 = r.lobby.numPlayers ∧ r.lobby.isFull = true ∧
      r.lobby.isPlayingGame = false ∧
      r.onReady c first = r.counted.opened (.standard r.lobby.maxPlayers first)) := by
  rw [onReady]
  cases hf : r.findPlayer (r.conns c).getId with
  | none => exact .inl ⟨rfl, rfl⟩
  | some i =>
      right
      simp only [GameLobby.allPlayersAreReady, GameLobby.isFull, Bool.and_eq_true, beq_iff_eq]
      split
      · next hready =>
          right
          cases hplay : r.lobby.isPlayingGame with
          | true =>
              refine .inl ⟨i, rfl, hready.1, hready.2, rfl, ?_⟩
              rw [startGame, if_neg (by simp)]
              simp only [counted, withGame, hplay]
          | false =>
              refine .inr ⟨i, rfl, hready.1, hready.2, rfl, ?_⟩
              rw [startGame, if_pos (by simp [hopen])]
              rfl
      · next hready => exact .inl ⟨i, rfl, hready, rfl⟩

/-- The four ways of `onTakeTurn`: no game, a turn the game refuses, a turn that
leaves the game going, and a turn that ends it. -/
theorem onTakeTurn_cases {r : Room} (h : Playing r.lobby) (c : ConnId) (column : UInt8) :
    (r.lobby.isPlayingGame = false ∧
      r.onTakeTurn c column = r.tookTurn (r.conns c).getId column .error) ∨
    (∃ game, r.lobby.game = some game ∧
      (game.takeTurn (r.conns c).getId column).1 = game ∧
      (game.takeTurn (r.conns c).getId column).2 ≠ .success ∧
      (game.takeTurn (r.conns c).getId column).2 ≠ .error ∧
      r.onTakeTurn c column = r.tookTurn (r.conns c).getId column
        (game.takeTurn (r.conns c).getId column).2) ∨
    (∃ game game', r.lobby.game = some game ∧
      game.takeTurn (r.conns c).getId column = (game', .success) ∧
      game'.hasWinner = false ∧ game'.boardFull = false ∧
      r.onTakeTurn c column =
        ((r.withGame (some game')).tookTurn (r.conns c).getId column .success).takeTurn
          game'.getCurrentPlayer) ∨
    (∃ game game', r.lobby.game = some game ∧
      game.takeTurn (r.conns c).getId column = (game', .success) ∧
      (game'.hasWinner = true ∨ game'.boardFull = true) ∧
      r.onTakeTurn c column =
        ((r.withGame (some game')).tookTurn (r.conns c).getId column .success).gameOver
          (outcome game')) := by
  rw [onTakeTurn]
  cases hplay : r.lobby.isPlayingGame with
  | false => exact .inl ⟨rfl, rfl⟩
  | true =>
      right
      obtain ⟨game, hgame⟩ := h.exists_game hplay
      obtain ⟨hwin, hfull, _⟩ := h.running game hgame
      simp only [hgame, Bool.not_true, Bool.false_eq_true, if_false]
      rcases game.takeTurn_cases (r.conns c).getId column with
        ⟨hsame, hsucc, herr, _⟩ | ⟨hsucc, _⟩
      · refine .inl ⟨game, rfl, hsame, hsucc, herr, ?_⟩
        rw [hsame, if_neg (by simp [hwin, hfull]), if_neg (by simpa using hsucc)]
        congr 1
        rw [← hgame]
      · right
        have hpair : game.takeTurn (r.conns c).getId column =
            ((game.takeTurn (r.conns c).getId column).1, .success) := Prod.ext rfl hsucc
        rw [hpair]
        simp only [Bool.or_eq_true]
        split
        · next hover =>
            exact .inr ⟨game, _, rfl, hpair, hover, onGameOver_eq rfl⟩
        · next hover =>
            rw [not_or, Bool.not_eq_true, Bool.not_eq_true] at hover
            exact .inl ⟨game, _, rfl, hpair, hover.1, hover.2, by simp [withGame]⟩

/-! ## Joining and leaving -/

end Room

namespace Connection

/-- What `addPlayer` does to the connection it adds. -/
def joined (c : Connection) (id : UInt8) (lobby : LobbyId) : Connection :=
  ((c.setId id).setGameLobby lobby).addHandlers lobby

theorem setId_of_zero {c : Connection} (h : c.id = 0) (id : UInt8) :
    c.setId id = sendMessage { c with id := id } (.connected id) := by
  rw [setId, h]
  rfl

theorem joined_eq {c : Connection} (hid : c.id = 0) (hh : c.handlers = []) (id : UInt8)
    (lobby : LobbyId) :
    c.joined id lobby = { c with
      id := id
      lobby := some lobby
      handlers := [lobby]
      sent := if c.isAlive then c.sent ++ [.connected id] else c.sent } := by
  rw [joined, setId_of_zero hid]
  cases h : c.isAlive with
  | true =>
      have h' : isAlive { c with id := id } = true := h
      rw [sendMessage_of_alive h']
      simp [setGameLobby, addHandlers, hh]
  | false =>
      have h' : isAlive { c with id := id } = false := h
      rw [sendMessage_of_dead h']
      simp [setGameLobby, addHandlers, hh]

end Connection

namespace Room

/-- The lobby after `c` was put into slot `i`. -/
def admitted (r : Room) (c : ConnId) (i : Nat) : Room where
  lobby := { r.lobby with
    players := r.lobby.players.set i (some c)
    handlers := r.lobby.handlers ++ [c]
    numPlayers := r.lobby.numPlayers + 1
    trace := r.lobby.trace ++ [.joined c] }
  conns := Function.update r.conns c
    ((r.conns c).joined (UInt8.ofNat i + 1) r.lobby.address)

theorem admitted_conns_self {r : Room} {c : ConnId} (hjoin : r.Joinable c) (i : Nat) :
    (r.admitted c i).conns c = { r.conns c with
      id := UInt8.ofNat i + 1
      lobby := some r.lobby.address
      handlers := [r.lobby.address]
      sent := if (r.conns c).isAlive then (r.conns c).sent ++ [.connected (UInt8.ofNat i + 1)]
        else (r.conns c).sent } := by
  rw [← Connection.joined_eq hjoin.1 hjoin.2]
  exact Function.update_self ..

theorem admitted_conns_of_ne (r : Room) {c d : ConnId} (h : d ≠ c) (i : Nat) :
    (r.admitted c i).conns d = r.conns d :=
  Function.update_of_ne h ..

theorem Seats.maxPlayers_le {r : Room} (h : r.Seats) : r.lobby.players.length ≤ 255 := by
  have := r.lobby.maxPlayers.toNat_lt
  rw [h.length]
  omega

/-- A lobby that is not full has a null slot, and `getFirstAvailableId` finds it. -/
theorem Seats.getFirstAvailableId {r : Room} (h : r.Seats) (hfull : r.lobby.isFull = false) :
    ∃ i, r.lobby.players[i]? = some none ∧ r.lobby.getFirstAvailableId = UInt8.ofNat i ∧
      i < r.lobby.players.length := by
  have hex : ∃ s ∈ r.lobby.players, (s == none) = true := by
    by_contra hall
    have hcount : r.lobby.players.countP Option.isSome = r.lobby.players.length := by
      rw [List.countP_eq_length]
      intro s hs
      cases s with
      | none => exact absurd ⟨none, hs, rfl⟩ hall
      | some c => rfl
    rw [← Bool.not_eq_true] at hfull
    apply hfull
    rw [GameLobby.isFull, beq_iff_eq, ← UInt8.toNat_inj, h.count, hcount, h.length]
  have hlt := List.findIdx_lt_length_of_exists hex
  have hget : (r.lobby.players[r.lobby.players.findIdx (· == none)] == none) = true :=
    List.findIdx_getElem (w := hlt)
  refine ⟨r.lobby.players.findIdx (· == none), ?_, rfl, hlt⟩
  rw [List.getElem?_eq_getElem hlt, beq_iff_eq.mp hget]

theorem canAddPlayers_iff {l : GameLobby} : l.canAddPlayers = true ↔
    l.lobbyIsOpen = true ∧ l.isPlayingGame = false ∧ l.isFull = false := by
  simp [GameLobby.canAddPlayers, and_assoc]

theorem addPlayer_of_not {r : Room} (h : r.lobby.canAddPlayers = false) (c : ConnId) :
    r.addPlayer c = r := by
  rw [addPlayer, h]
  rfl

theorem addPlayer_of_can {r : Room} (h : r.Seats) (hcan : r.lobby.canAddPlayers = true)
    (c : ConnId) :
    ∃ i, r.lobby.players[i]? = some none ∧ i < r.lobby.players.length ∧
      r.addPlayer c = r.admitted c i := by
  obtain ⟨_, _, hfull⟩ := canAddPlayers_iff.mp hcan
  obtain ⟨i, hnull, hid, hlt⟩ := h.getFirstAvailableId hfull
  have hle := h.maxPlayers_le
  have hi : (UInt8.ofNat i).toNat = i := UInt8.toNat_ofNat_of_lt' (show i < 256 by omega)
  refine ⟨i, hnull, hlt, ?_⟩
  rw [addPlayer, if_neg (by simp [hcan]), hid]
  simp only [hi, if_pos hlt]
  rfl

theorem addPlayer_cases {r : Room} (h : r.Seats) (c : ConnId) :
    (r.lobby.canAddPlayers = false ∧ r.addPlayer c = r) ∨
    (r.lobby.canAddPlayers = true ∧ ∃ i, r.lobby.players[i]? = some none ∧
      i < r.lobby.players.length ∧ r.addPlayer c = r.admitted c i) := by
  cases hcan : r.lobby.canAddPlayers with
  | false => exact .inl ⟨rfl, addPlayer_of_not hcan c⟩
  | true => exact .inr ⟨rfl, addPlayer_of_can h hcan c⟩

theorem admitted_seated {r : Room} (c : ConnId) {i : Nat} (hlt : i < r.lobby.players.length)
    {j : Nat} {d : ConnId} :
    (r.admitted c i).Seated j d ↔ (j = i ∧ d = c) ∨ (j ≠ i ∧ r.Seated j d) := by
  simp only [Seated, Room.admitted, List.getElem?_set]
  by_cases hj : i = j
  · subst hj
    simp [hlt, eq_comm]
  · simp [hj, Ne.symm hj]

theorem Seats.admitted {r : Room} (h : r.Seats) {c : ConnId} (hjoin : r.Joinable c)
    {i : Nat} (hnull : r.lobby.players[i]? = some none)
    (hlt : i < r.lobby.players.length) : (r.admitted c i).Seats := by
  have hnot : c ∉ r.lobby.handlers := fun hc => h.not_joinable hc hjoin
  have hle := h.maxPlayers_le
  have hid : (UInt8.ofNat i + 1).toNat = i + 1 := by
    rw [UInt8.toNat_add, UInt8.toNat_ofNat_of_lt' (show i < 256 by omega)]
    exact Nat.mod_eq_of_lt (by simp; omega)
  have hself := admitted_conns_self hjoin i
  have hseat := fun j d => admitted_seated (r := r) c hlt (j := j) (d := d)
  refine ⟨h.isOpen, ?_, ?_, ?_, ?_, ?_, ?_, ?_⟩
  · simpa [Room.admitted] using h.length
  · have hget : r.lobby.players[i] = none := by
      rw [List.getElem?_eq_getElem hlt] at hnull
      exact Option.some.inj hnull
    have hcount : r.lobby.players.countP Option.isSome < r.lobby.players.length := by
      refine lt_of_le_of_ne (List.countP_le_length) fun heq => ?_
      have := List.countP_eq_length.mp heq _ (List.getElem_mem hlt)
      rw [hget] at this
      cases this
    simp only [Room.admitted, List.countP_set hlt, hget, UInt8.toNat_add, h.count]
    simp
    omega
  · intro j d hd
    simp only [Room.admitted, List.mem_append, List.mem_singleton]
    rcases (hseat j d).mp hd with ⟨rfl, rfl⟩ | ⟨hj, hd'⟩
    · refine ⟨.inr rfl, ?_⟩
      show ((r.admitted d j).conns d).id.toNat = j + 1
      rw [hself]
      exact hid
    · obtain ⟨hin, hid'⟩ := h.seated j d hd'
      refine ⟨.inl hin, ?_⟩
      have hne : d ≠ c := fun heq => hnot (heq ▸ hin)
      show ((r.admitted c i).conns d).id.toNat = j + 1
      rw [admitted_conns_of_ne r hne]
      exact hid'
  · exact List.nodup_append.mpr ⟨h.nodup, List.nodup_singleton c, by
      intro a ha b hb heq
      rw [List.mem_singleton.mp hb] at heq
      exact hnot (heq ▸ ha)⟩
  · intro d hd
    simp only [Room.admitted, List.mem_append, List.mem_singleton] at hd
    have hlen : (r.admitted c i).lobby.players.length = r.lobby.players.length := by
      simp [Room.admitted]
    rw [hlen]
    by_cases hdc : d = c
    · subst hdc
      rw [hself]
      exact ⟨rfl, rfl, i, hlt, hid⟩
    · rw [admitted_conns_of_ne r hdc]
      exact h.member d (hd.resolve_right hdc)
  · intro d hd
    simp only [Room.admitted, List.mem_append, List.mem_singleton]
    by_cases hdc : d = c
    · exact .inr hdc
    · rw [admitted_conns_of_ne r hdc] at hd
      exact .inl (h.attached d hd)
  · intro d hd halive
    simp only [Room.admitted, List.mem_append, List.mem_singleton] at hd
    by_cases hdc : d = c
    · exact ⟨i, (hseat i d).mpr (.inl ⟨rfl, hdc⟩)⟩
    · rw [admitted_conns_of_ne r hdc] at halive
      obtain ⟨j, hj⟩ := h.alive d (hd.resolve_right hdc) halive
      refine ⟨j, (hseat j d).mpr (.inr ⟨?_, hj⟩)⟩
      intro heq
      rw [heq, Seated, hnull] at hj
      cases hj

theorem toNat_sub_one {n : UInt8} (h : 0 < n.toNat) : (n - 1).toNat = n.toNat - 1 := by
  have hle : (1 : UInt8).toNat ≤ n.toNat := h
  rw [UInt8.toNat_sub_of_le _ _ (UInt8.le_iff_toNat_le.mpr hle)]
  rfl

/-- The lobby after `c`, the occupant of slot `i`, left. -/
def vacated (r : Room) (c : ConnId) (i : Nat) : Room :=
  { r with lobby := { r.lobby with
      numReady := if (r.conns c).isReady && r.lobby.numReady > 0 then r.lobby.numReady - 1
        else r.lobby.numReady
      players := r.lobby.players.set i none
      numPlayers := r.lobby.numPlayers - 1 } }

@[simp] theorem vacated_conns (r : Room) (c : ConnId) (i : Nat) :
    (r.vacated c i).conns = r.conns := rfl

/-- The end of the game, if there is one. -/
def ended (r : Room) : Room :=
  match r.lobby.game with
  | none => r
  | some game => r.gameOver (outcome game)

theorem Seats.numPlayers_pos {r : Room} (h : r.Seats) {i : Nat} {c : ConnId}
    (hc : r.Seated i c) : 0 < r.lobby.numPlayers.toNat := by
  rw [h.count, List.countP_pos_iff]
  exact ⟨some c, List.mem_of_getElem? hc, rfl⟩

theorem vacated_seated {r : Room} (c : ConnId) {i : Nat} (hlt : i < r.lobby.players.length)
    {j : Nat} {d : ConnId} : (r.vacated c i).Seated j d ↔ j ≠ i ∧ r.Seated j d := by
  simp only [Seated, Room.vacated, List.getElem?_set]
  by_cases hj : i = j
  · subst hj
    simp [hlt]
  · simp [hj, Ne.symm hj]

theorem Seats.vacated {r : Room} (h : r.Seats) {i : Nat} {c : ConnId} (hc : r.Seated i c)
    (hdead : (r.conns c).isAlive = false) : (r.vacated c i).Seats := by
  have hlt := seated_lt hc
  have hseat := fun j d => vacated_seated (r := r) c hlt (j := j) (d := d)
  refine ⟨h.isOpen, ?_, ?_, ?_, h.nodup, ?_, h.attached, ?_⟩
  · simpa [Room.vacated] using h.length
  · have hget : r.lobby.players[i] = some c := by
      rw [Seated, List.getElem?_eq_getElem hlt] at hc
      exact Option.some.inj hc
    have hpos := h.numPlayers_pos hc
    simp only [Room.vacated, List.countP_set hlt, hget, toNat_sub_one hpos, h.count]
    simp
  · intro j d hd
    exact h.seated j d ((hseat j d).mp hd).2
  · intro d hd
    have hlen : (r.vacated c i).lobby.players.length = r.lobby.players.length := by
      simp [Room.vacated]
    rw [hlen]
    exact h.member d hd
  · intro d hd halive
    obtain ⟨j, hj⟩ := h.alive d hd halive
    refine ⟨j, (hseat j d).mpr ⟨?_, hj⟩⟩
    intro heq
    have hdc : d = c := Option.some.inj (Option.some.inj (hj.symm.trans (heq ▸ hc)))
    rw [hdc] at halive
    exact absurd (halive.symm.trans hdead) (by decide)

theorem Seats.ended {r : Room} (h : r.Seats) : r.ended.Seats := by
  rw [Room.ended]
  split
  · exact h
  · exact h.gameOver _

theorem left_canAddPlayers {r : Room} (h : r.Inv) {i : Nat} {c : ConnId}
    (hc : r.Seated i c) : (r.vacated c i).ended.lobby.canAddPlayers = true := by
  have hfull : (r.lobby.numPlayers - 1 == r.lobby.maxPlayers) = false := by
    have hle : r.lobby.numPlayers.toNat ≤ r.lobby.maxPlayers.toNat := by
      rw [h.seats.count, ← h.seats.length]
      exact List.countP_le_length
    have hpos := h.seats.numPlayers_pos hc
    rw [beq_eq_false_iff_ne, ne_eq, ← UInt8.toNat_inj, toNat_sub_one hpos]
    omega
  have hopen := h.seats.isOpen
  cases hgame : r.lobby.game with
  | none =>
      have hplay := h.playing.not_playing hgame
      simp [Room.ended, Room.vacated, hgame, GameLobby.canAddPlayers, GameLobby.isFull, hopen,
        hfull, hplay]
  | some game =>
      simp [Room.ended, Room.vacated, hgame, Room.gameOver, gameEnded, GameLobby.canAddPlayers,
        GameLobby.isFull, hopen, hfull]

theorem onDisconnect_eq {r : Room} (h : r.Inv) {i : Nat} {c : ConnId} (hc : r.Seated i c) :
    r.onDisconnect c = ((r.vacated c i).ended, true) := by
  have hpos : r.lobby.numPlayers > 0 := by
    rw [gt_iff_lt, UInt8.lt_iff_toNat_lt]
    exact h.seats.numPlayers_pos hc
  rw [← left_canAddPlayers h hc, onDisconnect, h.seats.findPlayer_of_seated hc]
  simp only [show r.lobby.players[i]? = some (some c) from hc, if_pos hpos]
  cases hgame : r.lobby.game with
  | none =>
      have hplay := h.playing.not_playing hgame
      simp only [hplay, Bool.false_eq_true, if_false, Room.ended, Room.vacated, hgame]
  | some game =>
      have hplay := h.playing.isPlaying hgame
      simp only [hplay, if_true, Room.ended, Room.vacated, hgame]
      rw [onGameOver_eq (by rfl)]

end Room

end ConnectDisks.Net
