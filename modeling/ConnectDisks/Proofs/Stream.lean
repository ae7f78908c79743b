import ConnectDisks.Proofs.Readiness
import ConnectDisks.Proofs.Story

/-!
# What the connections of a lobby are sent

A connection is told about a lobby by the four handlers and by `setId`, and by
nothing else; besides, it is sent pings and places in the queue. So, these put
aside, what was sent to a connection is the story of its lobby from the moment it
joined, seen from its seat (`Emission.seenBy`): all of it while the connection
is alive, and a part of it, cut off at the end, after it was dropped (`Heard`).

The story itself is a run of the machine `tell` that ends in the lobby's game.
This is where the condition on the runs comes in: a ready message during a game
may replace the game, and of that nobody is told.
-/

namespace ConnectDisks.Net

open ConnectDisks.Game Lib

instance (m : Message) : Decidable m.Housekeeping :=
  inferInstanceAs (Decidable (m.type = .ping ∨ m.type = .inQueue))

/-- The message by which connection `c` with this id learns of an emission. -/
def Emission.seenBy (c : ConnId) (id : UInt8) : Emission → Option Message
  | .joined d => if d = c then some (.connected id) else none
  | .gameStarted game _ =>
      some (.gameStart game.state.numPlayers game.getNumColumns game.getNumRows
        game.getCurrentPlayer)
  | .gameEnded winner => some (.gameEnd winner)
  | .takeTurn playerId =>
      if playerId = id then some (.takeTurn playerId requestTurn) else none
  | .tookTurn playerId column result =>
      if playerId = id then some (.turnResult result column)
      else if result = .success then some (.update playerId column)
      else none

theorem seenBy_not_housekeeping {c : ConnId} {id : UInt8} {e : Emission} {m : Message}
    (h : e.seenBy c id = some m) : ¬ m.Housekeeping := by
  have hall : ∀ m', e.seenBy c id = some m' → m'.type ≠ .ping ∧ m'.type ≠ .inQueue := by
    cases e <;> simp only [Emission.seenBy] <;> (repeat' split) <;> simp [eq_comm]
  rintro (hm | hm)
  · exact (hall m h).1 hm
  · exact (hall m h).2 hm

namespace Connection

/-- What the connection was sent about its lobby. -/
def told (c : Connection) : List Message :=
  c.sent.filter fun m => decide ¬ m.Housekeeping

/-- The messages for some emissions, if there is anybody to send them to. -/
def hears (conn : Connection) (c : ConnId) (es : List Emission) : List Message :=
  if conn.isAlive then es.filterMap (·.seenBy c conn.id) else []

@[simp] theorem hears_nil (conn : Connection) (c : ConnId) : conn.hears c [] = [] := by
  rw [hears]
  split <;> rfl

theorem hears_append (conn : Connection) (c : ConnId) (es fs : List Emission) :
    conn.hears c (es ++ fs) = conn.hears c es ++ conn.hears c fs := by
  rw [hears, hears, hears]
  split
  · exact List.filterMap_append
  · rfl

theorem hears_congr {conn conn' : Connection} (hid : conn'.id = conn.id)
    (halive : conn'.isAlive = conn.isAlive) (c : ConnId) (es : List Emission) :
    conn'.hears c es = conn.hears c es := by
  rw [hears, hears, hid, halive]

theorem sendMessage_sent (conn : Connection) (m : Message) :
    (conn.sendMessage m).sent = conn.sent ++ if conn.isAlive then [m] else [] := by
  cases h : conn.isAlive with
  | true => rw [sendMessage_of_alive h, if_pos rfl]
  | false => rw [sendMessage_of_dead h, if_neg (by simp), List.append_nil]

variable (conn : Connection) (c : ConnId)

theorem onGameStart_sent {n : UInt8} {game : ValidGame} (hn : n = game.state.numPlayers)
    (slots : List (Option Bool)) :
    (conn.onGameStart n game).sent = conn.sent ++ conn.hears c [.gameStarted game slots] := by
  rw [onGameStart, sendMessage_sent, hears, hn]
  rfl

theorem onGameEnd_sent (winner : UInt8) :
    (conn.onGameEnd winner).sent = conn.sent ++ conn.hears c [.gameEnded winner] := by
  rw [onGameEnd, sendWinner, sendMessage_sent, hears]
  rfl

theorem onTurn_sent (playerId : UInt8) :
    (conn.onTurn playerId).sent = conn.sent ++ conn.hears c [.takeTurn playerId] := by
  rw [onTurn, hears]
  by_cases hp : playerId = conn.id
  · simp [hp, sendMessage_sent, Emission.seenBy]
  · simp [hp, Emission.seenBy]

theorem onUpdate_sent (playerId column : UInt8) (result : TurnResult) :
    (conn.onUpdate playerId column result).sent =
      conn.sent ++ conn.hears c [.tookTurn playerId column result] := by
  rw [onUpdate, hears]
  by_cases hp : playerId = conn.id
  · simp [hp, handleTurnResult, sendMessage_sent, Emission.seenBy]
  · by_cases hr : result = .success
    · simp [hp, hr, sendMessage_sent, Emission.seenBy]
    · simp [hp, hr, Emission.seenBy]

end Connection

namespace Room

/-! ## Emissions and what is heard of them -/

/-- The methods that got from `r` to `r'` emitted `es`, nobody joined, and every
connection of the lobby was sent its view of `es`. -/
structure Tells (r r' : Room) (es : List Emission) : Prop where
  within : r.Within r'
  trace : r'.lobby.trace = r.lobby.trace ++ es
  quiet : ∀ c, .joined c ∉ es
  heard : ∀ c ∈ r.lobby.handlers,
    (r'.conns c).sent = (r.conns c).sent ++ (r.conns c).hears c es

theorem Tells.of_lobby {r : Room} {l : GameLobby} (hmax : l.maxPlayers = r.lobby.maxPlayers)
    (haddr : l.address = r.lobby.address) (hhandlers : l.handlers = r.lobby.handlers)
    (htrace : l.trace = r.lobby.trace) : r.Tells ⟨l, r.conns⟩ [] := by
  refine ⟨.of_lobby hmax haddr hhandlers, ?_, fun _ h => absurd h List.not_mem_nil,
    fun c _ => ?_⟩
  · rw [List.append_nil]
    exact htrace
  · rw [Connection.hears]
    simp

theorem Tells.trans {a b c : Room} {es fs : List Emission} (hab : a.Tells b es)
    (hbc : b.Tells c fs) : a.Tells c (es ++ fs) := by
  refine ⟨hab.within.trans hbc.within, ?_, fun d hd => ?_, fun d hd => ?_⟩
  · rw [hbc.trace, hab.trace, List.append_assoc]
  · exact (List.mem_append.mp hd).elim (hab.quiet d) (hbc.quiet d)
  · have hseat := Connection.KeepsSeat.of_seat (hab.within.seat d).symm
    have hseat' := Connection.KeepsSeat.of_seat (hab.within.seat d)
    have halive : (b.conns d).isAlive = (a.conns d).isAlive :=
      Bool.eq_iff_iff.mpr ⟨hseat'.isAlive, hseat.isAlive⟩
    rw [hbc.heard d (by rwa [hab.within.handlers]), hab.heard d hd,
      Connection.hears_congr hseat'.id halive, Connection.hears_append, List.append_assoc]

theorem emit_tells {r : Room} (h : r.Seats) {e : Emission} {f : Connection → Connection}
    (hseat : ∀ conn, (f conn).seat = conn.seat) (hquiet : ∀ c, .joined c ≠ e)
    (hsent : ∀ conn c, (f conn).sent = conn.sent ++ conn.hears c [e]) :
    r.Tells (r.emit e f) [e] := by
  refine ⟨r.emit_within e hseat, rfl, fun c hc => ?_, fun c hc => ?_⟩
  · exact hquiet c (List.mem_singleton.mp hc)
  · rw [emit_conns r e f h.nodup, if_pos hc]
    exact hsent _ c

theorem gameStarted_tells {r : Room} (h : r.Seats) {game : ValidGame}
    (hn : r.lobby.numPlayers = game.state.numPlayers) :
    r.Tells (r.gameStarted game) [.gameStarted game r.slots] :=
  emit_tells h (fun conn => conn.onGameStart_seat _ game) (fun _ => by simp)
    fun conn c => conn.onGameStart_sent c hn _

theorem takeTurn_tells {r : Room} (h : r.Seats) (playerId : UInt8) :
    r.Tells (r.takeTurn playerId) [.takeTurn playerId] :=
  emit_tells h (fun conn => conn.onTurn_seat playerId) (fun _ => by simp)
    fun conn c => conn.onTurn_sent c playerId

theorem tookTurn_tells {r : Room} (h : r.Seats) (playerId column : UInt8)
    (result : TurnResult) :
    r.Tells (r.tookTurn playerId column result) [.tookTurn playerId column result] :=
  emit_tells h (fun conn => conn.onUpdate_seat playerId column result) (fun _ => by simp)
    fun conn c => conn.onUpdate_sent c playerId column result

theorem gameOver_tells {r : Room} (h : r.Seats) (winner : UInt8) :
    r.Tells (r.gameOver winner) [.gameEnded winner] := by
  have hended := emit_tells (e := .gameEnded winner) h
    (fun conn => conn.onGameEnd_seat winner) (fun _ => by simp)
    fun conn c => conn.onGameEnd_sent c winner
  exact hended.trans (.of_lobby rfl rfl rfl rfl)

theorem withGame_tells (r : Room) (game : Option ValidGame) : r.Tells (r.withGame game) [] :=
  .of_lobby rfl rfl rfl rfl

theorem accepted_tells {r : Room} (h : r.Seats) (game : Option ValidGame)
    (playerId column : UInt8) :
    r.Tells ((r.withGame game).tookTurn playerId column .success)
      [.tookTurn playerId column .success] :=
  (r.withGame_tells game).trans (tookTurn_tells (h.withGame game) playerId column .success)

theorem moved_tells {r : Room} (h : r.Seats) (game : Option ValidGame)
    (playerId column next : UInt8) :
    r.Tells (((r.withGame game).tookTurn playerId column .success).takeTurn next)
      [.tookTurn playerId column .success, .takeTurn next] :=
  (accepted_tells h game playerId column).trans
    (takeTurn_tells ((h.withGame game).tookTurn playerId column .success) next)

theorem finished_tells {r : Room} (h : r.Seats) (game : Option ValidGame)
    (playerId column winner : UInt8) :
    r.Tells (((r.withGame game).tookTurn playerId column .success).gameOver winner)
      [.tookTurn playerId column .success, .gameEnded winner] :=
  (accepted_tells h game playerId column).trans
    (gameOver_tells ((h.withGame game).tookTurn playerId column .success) winner)

theorem counted_tells (r : Room) : r.Tells r.counted [] := .of_lobby rfl rfl rfl rfl

theorem opened_tells {r : Room} (h : r.Seats) {game : ValidGame}
    (hn : r.lobby.numPlayers = game.state.numPlayers) :
    ∃ slots, r.Tells (r.opened game)
      [.gameStarted game slots, .takeTurn game.getCurrentPlayer] := by
  have hplay : r.Tells
      ⟨{ r.lobby with game := some game, isPlayingGame := true }, r.conns⟩ [] :=
    .of_lobby rfl rfl rfl rfl
  have hseats : Seats ⟨{ r.lobby with game := some game, isPlayingGame := true }, r.conns⟩ :=
    h.withLobby rfl
  refine ⟨_, (hplay.trans (gameStarted_tells hseats hn)).trans (takeTurn_tells ?_ _)⟩
  exact hseats.emit _ fun conn => conn.onGameStart_seat _ game

/-! ## The story of the methods -/

/-- The emissions, and that they are a run of the machine of the games. -/
structure Story (r r' : Room) (es : List Emission) : Prop where
  tells : r.Tells r' es
  run : run tell r.lobby.game es = some r'.lobby.game

/-- The standard game survives the way through its four bytes. -/
theorem standard_announced (n first : UInt8) : Announced (.standard n first) := by
  rw [Announced]
  refine (ValidGame.new_standard _ _).trans (congrArg Except.ok (ValidGame.ext ?_))
  simp only [ValidGame.standard, ValidGame.getCurrentPlayer, FourAcross.getCurrentPlayer,
    FourAcross.minNumPlayers, FourAcross.defaultFirstPlayer]
  congr 1 <;> grind

theorem onReady_story {r : Room} (h : r.Inv) (htwo : 2 ≤ r.lobby.maxPlayers.toNat)
    (c : ConnId) (first : UInt8)
    (hidle : ∀ i, r.findPlayer (r.conns c).getId = some i → r.lobby.isPlayingGame = false) :
    ∃ es, r.Story (r.onReady c first) es := by
  rcases onReady_cases h.seats.isOpen c first with
    ⟨_, heq⟩ | ⟨i, _, _, heq⟩ | ⟨i, hsome, _, _, hplay, heq⟩ |
      ⟨i, hsome, _, hfull, hplay, heq⟩ <;> rw [heq]
  · exact ⟨[], .of_lobby rfl rfl rfl rfl, rfl⟩
  · exact ⟨[], r.counted_tells, rfl⟩
  · exact absurd (hplay.symm.trans (hidle i hsome)) (by decide)
  · have hseats : r.counted.Seats := h.seats.withLobby rfl
    have hn : r.counted.lobby.numPlayers =
        (ValidGame.standard r.lobby.maxPlayers first).state.numPlayers := by
      rw [ValidGame.standard_numPlayers htwo first]
      exact beq_iff_eq.mp hfull
    obtain ⟨slots, htells⟩ := opened_tells hseats hn
    refine ⟨_, r.counted_tells.trans htells, ?_⟩
    have hgame : r.lobby.game = none := h.playing.not_game hplay
    rw [hgame]
    simp [Lib.run, tell, standard_announced, opened, gameStarted, takeTurn]

theorem onTakeTurn_story {r : Room} (h : r.Inv) (c : ConnId) (column : UInt8) :
    ∃ es, r.Story (r.onTakeTurn c column) es := by
  rcases onTakeTurn_cases h.playing c column with
    ⟨hplay, heq⟩ | ⟨game, hgame, hsame, _, herr, heq⟩ |
      ⟨game, game', hgame, hturn, _, _, heq⟩ | ⟨game, game', hgame, hturn, _, heq⟩ <;> rw [heq]
  · refine ⟨_, tookTurn_tells h.seats _ _ _, ?_⟩
    show Lib.run tell r.lobby.game _ = some r.lobby.game
    rw [h.playing.not_game hplay]
    rfl
  · refine ⟨_, tookTurn_tells h.seats _ _ _, ?_⟩
    show Lib.run tell r.lobby.game _ = some r.lobby.game
    rw [hgame, run_singleton, tell, if_pos ⟨herr, rfl⟩, hsame]
  · refine ⟨_, moved_tells h.seats _ _ _ _, ?_⟩
    rw [hgame]
    simp [Lib.run, tell, hturn, takeTurn, tookTurn, withGame]
  · refine ⟨_, finished_tells h.seats _ _ _ _, ?_⟩
    rw [hgame]
    simp [Lib.run, tell, hturn, gameOver]

theorem ended_story {r : Room} (h : r.Seats) : ∃ es, r.Story r.ended es := by
  rw [ended]
  split
  · exact ⟨[], .of_lobby rfl rfl rfl rfl, rfl⟩
  · next game hgame =>
      refine ⟨_, gameOver_tells h _, ?_⟩
      rw [hgame]
      simp [Lib.run, tell, gameOver]

/-- No ready message is counted while a game is in progress. -/
def ReadyBetweenGames (r : Room) (e : RoomEvent) : Prop :=
  ∀ c ∈ r.counts e, r.lobby.isPlayingGame = false

instance (r : Room) (e : RoomEvent) : Decidable (r.ReadyBetweenGames e) := by
  unfold ReadyBetweenGames
  infer_instance

/-- Every event of such a run, brought to one form: one connection changes on its
own, methods emit some of the story, and perhaps a player is added. -/
theorem moves_story {r r' : Room} {e : RoomEvent} (h : r.Inv)
    (htwo : 2 ≤ r.lobby.maxPlayers.toNat) (hok : r.ReadyBetweenGames e) (hm : r.Moves e r') :
    ∃ c conn es mid refill, (r.conns c).Wanders conn ∧
      (r.modify c fun _ => conn).Story mid es ∧ mid.Inv ∧ (∀ d ∈ refill, mid.Joinable d) ∧
      r' = mid.onLobbyAvailable refill := by
  have hsilent : ∀ r₁ : Room, r₁.Story r₁ [] := fun r₁ => ⟨.of_lobby rfl rfl rfl rfl, rfl⟩
  have hnobody : ∀ (r₁ : Room), ∀ d ∈ (none : Option ConnId), r₁.Joinable d :=
    fun _ _ hd => by cases hd
  cases hm with
  | @idle e c conn hi _ _ =>
      exact ⟨c, conn, [], _, none, hi.wanders, hsilent _, h.modify hi.keepsSeat, hnobody _, rfl⟩
  | @outside e c conn _ hw _ _ =>
      exact ⟨c, conn, [], _, none, hw, hsilent _, h.modify hw.seat, hnobody _, rfl⟩
  | @join c hjoin =>
      have hsame : (r.modify c fun _ => r.conns c) = r := by
        rw [modify, Function.update_eq_self]
      refine ⟨c, r.conns c, [], r, some c, (Connection.Idles.refl _).wanders, ?_, h, ?_, rfl⟩
      · rw [hsame]
        exact hsilent r
      · exact fun d hd => Option.some.inj hd ▸ hjoin
  | @ready c m first refill conn hc hi htype hid =>
      have hw := ready_wanders hi
      have hinv := h.modify hw.seat
      obtain ⟨es, hstory⟩ := onReady_story hinv htwo c first fun i hi' =>
        hok c (counts_of_found h.seats hc hi htype hid hi')
      exact ⟨c, conn.readied, es, _, none, hw, hstory, hinv.onReady c first, hnobody _, rfl⟩
  | @turn c m first refill conn _ hi _ _ _ =>
      have hinv := h.modify hi.keepsSeat
      obtain ⟨es, hstory⟩ := onTakeTurn_story hinv c (m.get 1)
      exact ⟨c, conn, es, _, none, hi.wanders, hstory, hinv.onTakeTurn c _, hnobody _, rfl⟩
  | @drop e c conn i refill hc _ hi hjoin _ _ =>
      have hw := dropped_wanders hi
      have hinv := h.modify hw.seat
      have hdead : ((r.modify c fun _ => conn.dropped).conns c).isAlive = false := by
        rw [modify_conns_self]
        rfl
      obtain ⟨es, hstory⟩ := ended_story (hinv.seats.vacated hc hdead)
      have hvacated : (r.modify c fun _ => conn.dropped).Tells
          ((r.modify c fun _ => conn.dropped).vacated c i) [] := .of_lobby rfl rfl rfl rfl
      have hleft : (r.modify c fun _ => conn.dropped).Story
          ((r.modify c fun _ => conn.dropped).vacated c i).ended es :=
        ⟨hvacated.trans hstory.tells, hstory.run⟩
      exact ⟨c, conn.dropped, es, _, refill, hw, hleft, hinv.left hc hdead,
        fun d hd => (hjoin d hd).left h.seats hc, rfl⟩

/-! ## The story since a player joined -/

/-- The story from the moment `c` joined. -/
def since (c : ConnId) (story : List Emission) : List Emission :=
  story.dropWhile fun e => decide (e ≠ .joined c)

theorem since_append_of_mem {c : ConnId} {story : List Emission} (h : .joined c ∈ story)
    (more : List Emission) : since c (story ++ more) = since c story ++ more := by
  induction story with
  | nil => cases h
  | cons e story ih =>
      by_cases he : e = .joined c
      · simp [since, he]
      · have hrest : .joined c ∈ story := by simpa [Ne.symm he] using h
        simpa [since, he] using ih hrest

theorem since_append_of_notMem {c : ConnId} {story : List Emission} (h : .joined c ∉ story)
    (more : List Emission) : since c (story ++ more) = since c more := by
  refine List.dropWhile_append_of_pos fun e he => ?_
  rw [decide_eq_true_eq]
  rintro rfl
  exact h he

theorem since_of_mem {c : ConnId} {story : List Emission} (h : .joined c ∈ story) :
    ∃ rest, since c story = .joined c :: rest := by
  induction story with
  | nil => cases h
  | cons e story ih =>
      by_cases he : e = .joined c
      · exact ⟨story, by simp [since, he]⟩
      · have hrest : .joined c ∈ story := by simpa [Ne.symm he] using h
        simpa [since, he] using ih hrest

/-- Players join between games, so what a player sees of the story is a story. -/
theorem run_since {c : ConnId} {story : List Emission} {state : Option ValidGame}
    (h : Lib.run tell none story = some state) (hc : .joined c ∈ story) :
    Lib.run tell none (since c story) = some state := by
  obtain ⟨rest, hrest⟩ := since_of_mem hc
  rw [← List.takeWhile_append_dropWhile (p := fun e => decide (e ≠ .joined c)) (l := story),
    run_append] at h
  obtain ⟨mid, _, hmid⟩ := Option.bind_eq_some_iff.mp h
  change Lib.run tell mid (since c story) = some state at hmid
  rw [hrest] at hmid ⊢
  cases mid with
  | none => exact hmid
  | some game => cases hmid

/-! ## What was sent -/

structure Heard (r : Room) : Prop where
  story : Lib.run tell none r.lobby.trace = some r.lobby.game
  joined : ∀ c, c ∈ r.lobby.handlers ↔ .joined c ∈ r.lobby.trace
  outside : ∀ c ∉ r.lobby.handlers, (r.conns c).told = []
  part : ∀ c ∈ r.lobby.handlers, (r.conns c).told <+:
    (since c r.lobby.trace).filterMap (·.seenBy c (r.conns c).id)
  alive : ∀ c ∈ r.lobby.handlers, (r.conns c).isAlive = true → (r.conns c).told =
    (since c r.lobby.trace).filterMap (·.seenBy c (r.conns c).id)

theorem told_append {c c' : Connection} {ms : List Message} (hsent : c'.sent = c.sent ++ ms)
    (hms : ∀ m ∈ ms, m.Housekeeping) : c'.told = c.told := by
  have hnone : ms.filter (fun m => decide ¬ m.Housekeeping) = [] := by
    rw [List.filter_eq_nil_iff]
    intro m hm
    simpa using hms m hm
  rw [Connection.told, Connection.told, hsent, List.filter_append, hnone, List.append_nil]

theorem told_hears {conn conn' : Connection} {c : ConnId} {es : List Emission}
    (hsent : conn'.sent = conn.sent ++ conn.hears c es) :
    conn'.told = conn.told ++ conn.hears c es := by
  have hall : (conn.hears c es).filter (fun m => decide ¬ m.Housekeeping) =
      conn.hears c es := by
    rw [List.filter_eq_self]
    intro m hm
    rw [Connection.hears] at hm
    split at hm
    · obtain ⟨e, _, he⟩ := List.mem_filterMap.mp hm
      simpa using seenBy_not_housekeeping he
    · cases hm
  rw [Connection.told, Connection.told, hsent, List.filter_append, hall]

theorem Heard.modify {r : Room} (h : r.Heard) {c : ConnId} {conn : Connection}
    (hw : (r.conns c).Wanders conn) : (r.modify c fun _ => conn).Heard := by
  obtain ⟨ms, hsent, hms⟩ := hw.sent
  have hsame : ∀ d, (((r.modify c fun _ => conn).conns d).told = (r.conns d).told ∧
      ((r.modify c fun _ => conn).conns d).id = (r.conns d).id) ∧
      (((r.modify c fun _ => conn).conns d).isAlive = true → (r.conns d).isAlive = true) := by
    intro d
    by_cases hd : d = c
    · rw [hd, modify_conns_self]
      exact ⟨⟨told_append hsent hms, hw.seat.id⟩, hw.seat.isAlive⟩
    · rw [modify_conns_of_ne r hd]
      exact ⟨⟨rfl, rfl⟩, id⟩
  refine ⟨h.story, h.joined, fun d hd => ?_, fun d hd => ?_, fun d hd halive => ?_⟩
  · rw [(hsame d).1.1]
    exact h.outside d hd
  · rw [(hsame d).1.1, (hsame d).1.2]
    exact h.part d hd
  · rw [(hsame d).1.1, (hsame d).1.2]
    exact h.alive d hd ((hsame d).2 halive)

theorem Heard.story_step {r r' : Room} {es : List Emission} (h : r.Heard)
    (hs : r.Story r' es) : r'.Heard := by
  have ht := hs.tells
  have hin : ∀ c, c ∈ r'.lobby.handlers ↔ c ∈ r.lobby.handlers := fun c => by
    rw [ht.within.handlers]
  have hseat : ∀ c, (r'.conns c).id = (r.conns c).id ∧
      (r'.conns c).isAlive = (r.conns c).isAlive := fun c =>
    ⟨congrArg (fun p => p.2.1) (ht.within.seat c), congrArg (fun p => p.2.2.2) (ht.within.seat c)⟩
  have hview : ∀ c ∈ r.lobby.handlers, ∀ id,
      (since c r'.lobby.trace).filterMap (·.seenBy c id) =
        (since c r.lobby.trace).filterMap (·.seenBy c id) ++ es.filterMap (·.seenBy c id) := by
    intro c hc id
    rw [ht.trace, since_append_of_mem ((h.joined c).mp hc), List.filterMap_append]
  refine ⟨?_, fun c => ?_, fun c hc => ?_, fun c hc => ?_, fun c hc halive => ?_⟩
  · rw [ht.trace, run_append, h.story]
    exact hs.run
  · rw [hin, h.joined, ht.trace, List.mem_append]
    exact ⟨.inl, fun hm => hm.resolve_right (ht.quiet c)⟩
  · rw [hin] at hc
    rw [ht.within.others c hc]
    exact h.outside c hc
  · rw [hin] at hc
    rw [told_hears (ht.heard c hc), (hseat c).1, hview c hc, Connection.hears]
    split
    · next halive =>
        rw [h.alive c hc halive]
    · rw [List.append_nil]
      exact (h.part c hc).trans (List.prefix_append ..)
  · rw [hin] at hc
    rw [(hseat c).2] at halive
    rw [told_hears (ht.heard c hc), (hseat c).1, hview c hc, Connection.hears, if_pos halive,
      h.alive c hc halive]

/-- The player that joins is told its id, if it is there to be told. -/
theorem Heard.addPlayer {r : Room} (h : r.Heard) (hinv : r.Inv) {c : ConnId}
    (hjoin : r.Joinable c) : (r.addPlayer c).Heard := by
  rcases addPlayer_cases hinv.seats c with ⟨_, heq⟩ | ⟨hcan, i, _, _, heq⟩ <;> rw [heq]
  · exact h
  · have hnot : c ∉ r.lobby.handlers := fun hc => hinv.seats.not_joinable hc hjoin
    have hnew : .joined c ∉ r.lobby.trace := fun hm => hnot ((h.joined c).mpr hm)
    have hself := admitted_conns_self hjoin i
    obtain ⟨_, hplay, _⟩ := canAddPlayers_iff.mp hcan
    have hgame : r.lobby.game = none := hinv.playing.not_game hplay
    have hsince : since c (r.admitted c i).lobby.trace = [.joined c] := by
      rw [admitted, since_append_of_notMem hnew]
      simp [since]
    have hseen : (since c (r.admitted c i).lobby.trace).filterMap
        (·.seenBy c ((r.admitted c i).conns c).id) =
          [.connected (UInt8.ofNat i + 1)] := by
      rw [hsince, hself]
      simp [Emission.seenBy]
    have htold : ((r.admitted c i).conns c).told =
        if (r.conns c).isAlive then [.connected (UInt8.ofNat i + 1)] else [] := by
      rw [hself, Connection.told]
      split
      · have hold := h.outside c hnot
        rw [Connection.told] at hold
        rw [List.filter_append, hold]
        rfl
      · exact h.outside c hnot
    have hothers : ∀ d ∈ r.lobby.handlers, d ≠ c := fun d hd heq => hnot (heq ▸ hd)
    have hview : ∀ d ∈ r.lobby.handlers, ∀ id,
        (since d (r.admitted c i).lobby.trace).filterMap (·.seenBy d id) =
          (since d r.lobby.trace).filterMap (·.seenBy d id) := by
      intro d hd id
      rw [admitted, since_append_of_mem ((h.joined d).mp hd), List.filterMap_append]
      simp [Emission.seenBy, Ne.symm (hothers d hd)]
    refine ⟨?_, fun d => ?_, fun d hd => ?_, fun d hd => ?_, fun d hd halive => ?_⟩
    · show Lib.run tell none (r.lobby.trace ++ [.joined c]) = some r.lobby.game
      rw [run_append, h.story, hgame]
      rfl
    · show d ∈ r.lobby.handlers ++ [c] ↔ .joined d ∈ r.lobby.trace ++ [.joined c]
      simp [h.joined d]
    · rcases not_or.mp (mt List.mem_append.mpr hd) with ⟨hd, hdc⟩
      rw [admitted_conns_of_ne r (by simpa using hdc)]
      exact h.outside d hd
    · rcases List.mem_append.mp hd with hd | hd
      · rw [admitted_conns_of_ne r (hothers d hd), hview d hd]
        exact h.part d hd
      · rw [List.mem_singleton.mp hd, hseen, htold]
        split
        · exact List.prefix_rfl
        · exact List.nil_prefix
    · rcases List.mem_append.mp hd with hd | hd
      · rw [admitted_conns_of_ne r (hothers d hd)] at halive ⊢
        rw [hview d hd]
        exact h.alive d hd halive
      · rw [List.mem_singleton.mp hd] at halive ⊢
        rw [hself] at halive
        rw [hseen, htold, if_pos (by exact halive)]

theorem Heard.moves {r r' : Room} {e : RoomEvent} (h : r.Heard) (hinv : r.Inv)
    (htwo : 2 ≤ r.lobby.maxPlayers.toNat) (hok : r.ReadyBetweenGames e) (hm : r.Moves e r') :
    r'.Heard := by
  obtain ⟨c, conn, es, mid, refill, hw, hstory, hmid, hjoin, rfl⟩ :=
    moves_story hinv htwo hok hm
  have hheard := (h.modify hw).story_step hstory
  cases refill with
  | none => exact hheard
  | some d => exact hheard.addPlayer hmid (hjoin d rfl)

theorem started_heard (maxPlayers : UInt8) : (started maxPlayers).Heard :=
  ⟨rfl, fun _ => iff_of_false List.not_mem_nil List.not_mem_nil, fun _ _ => rfl,
    fun _ h => absurd h List.not_mem_nil, fun _ h => absurd h List.not_mem_nil⟩

theorem reaches_heard {maxPlayers : UInt8} (htwo : 2 ≤ maxPlayers.toNat) {r : Room}
    (hr : Reaches Room.step ReadyBetweenGames (started maxPlayers) r) : r.Heard :=
  reaches_invariant (started_heard maxPlayers)
    (fun _ _ _ hinv hmax h hok hm => h.moves hinv (hmax ▸ htwo) hok hm) hr

/-! ## Nothing is unsent -/

theorem modify_sent {r : Room} {c : ConnId} {conn : Connection}
    (hw : (r.conns c).Wanders conn) (d : ConnId) :
    (r.conns d).sent <+: ((r.modify c fun _ => conn).conns d).sent := by
  by_cases hd : d = c
  · obtain ⟨ms, hsent, _⟩ := hw.sent
    rw [hd, modify_conns_self, hsent]
    exact List.prefix_append ..
  · rw [modify_conns_of_ne r hd]

theorem Tells.sent {r r' : Room} {es : List Emission} (h : r.Tells r' es) (d : ConnId) :
    (r.conns d).sent <+: (r'.conns d).sent := by
  by_cases hd : d ∈ r.lobby.handlers
  · rw [h.heard d hd]
    exact List.prefix_append ..
  · rw [h.within.others d hd]

theorem addPlayer_sent {r : Room} (h : r.Seats) {c : ConnId} (hjoin : r.Joinable c)
    (d : ConnId) : (r.conns d).sent <+: ((r.addPlayer c).conns d).sent := by
  rcases addPlayer_cases h c with ⟨_, heq⟩ | ⟨_, i, _, _, heq⟩ <;> rw [heq]
  by_cases hd : d = c
  · rw [hd, admitted_conns_self hjoin]
    split
    · exact List.prefix_append ..
    · exact List.prefix_rfl
  · rw [admitted_conns_of_ne r hd]

theorem moves_sent {r r' : Room} {e : RoomEvent} (hinv : r.Inv)
    (htwo : 2 ≤ r.lobby.maxPlayers.toNat) (hok : r.ReadyBetweenGames e) (hm : r.Moves e r')
    (d : ConnId) : (r.conns d).sent <+: (r'.conns d).sent := by
  obtain ⟨c, conn, es, mid, refill, hw, hstory, hmid, hjoin, rfl⟩ :=
    moves_story hinv htwo hok hm
  have hsent := (modify_sent hw d).trans (hstory.tells.sent d)
  cases refill with
  | none => exact hsent
  | some d' => exact hsent.trans (addPlayer_sent hmid.seats (hjoin d' rfl) d)

end Room

end ConnectDisks.Net
