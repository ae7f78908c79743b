import ConnectDisks.Net.Network
import ConnectDisks.Proofs.Stream

/-!
# The clients' copies of the game

A client learns of a turn from the answer to its own or from an update about
somebody else's, and plays it again on its copy. The clients get these on
separate streams, so at one moment their copies differ; each is the server's game
at some earlier turn.

The proof is a simulation. `follow` is the client's handler with a condition on the
message (`InStep`): the game it refers to exists, and the turn it brings succeeds. The
story of the lobby, seen from the seat of a connection, drives a client through
`follow` without ever getting stuck (`follow_story`), and what a client has
handled at any moment is a part of that story, by `Net.replayed`.
-/

namespace ConnectDisks.Net

open ConnectDisks.Game Lib

namespace Client

/-- The message finds the game where it has to be: updates and accepted turns
succeed on it, and a turn is requested only when there is one. -/
structure InStep (cl : Client) (m : Message) : Prop where
  update : m.type = .update →
    ∃ game ∈ cl.game, (game.takeTurn (m.get 0) (m.get 1)).2 = .success
  turnResult : m.type = .turnResult → m.get 0 = turnResultByte .success →
    ∃ game ∈ cl.game, (game.takeTurn cl.playerId (m.get 1)).2 = .success
  takeTurn : m.type = .takeTurn → cl.game ≠ none

instance (cl : Client) (m : Message) : Decidable (cl.InStep m) :=
  decidable_of_iff (_ ∧ _ ∧ _)
    ⟨fun h => ⟨h.1, h.2.1, h.2.2⟩, fun h => ⟨h.update, h.turnResult, h.takeTurn⟩⟩

/-- The handler, which gets stuck on a message that is out of step. -/
def follow (cl : Client) (m : Message) : Option Client :=
  if cl.InStep m then cl.receive m else none

theorem follow_eq_some {cl cl' : Client} {m : Message} :
    cl.follow m = some cl' ↔ cl.InStep m ∧ cl.receive m = some cl' := by
  rw [follow]
  exact Option.ite_none_right_eq_some

theorem follow_housekeeping (cl : Client) {m : Message} (h : m.Housekeeping) :
    cl.follow m = some cl := by
  refine follow_eq_some.mpr ⟨⟨?_, ?_, ?_⟩, ?_⟩
  all_goals rcases h with h | h
  all_goals simp [receive, handleRead, sendPong, h]

theorem receive_eq_some {cl cl' : Client} {m : Message} (h : cl.receive m = some cl') :
    ∃ calls, cl.handleRead m = .ok (cl', calls) := by
  rw [receive] at h
  split at h
  · next calls heq =>
      cases h
      exact ⟨calls, heq⟩
  · cases h

/-! ## Message by message -/

theorem follow_connected (cl : Client) (id : UInt8) :
    cl.follow (.connected id) = some { cl with playerId := id, isConnected := true } :=
  follow_eq_some.mpr ⟨⟨by simp, by simp, by simp⟩, rfl⟩

theorem follow_gameStart (cl : Client) {game : ValidGame} (h : Announced game) :
    cl.follow (.gameStart game.state.numPlayers game.getNumColumns game.getNumRows
      game.getCurrentPlayer) = some { cl with game := some game } := by
  refine follow_eq_some.mpr ⟨⟨by simp, by simp, by simp⟩, ?_⟩
  rw [Announced] at h
  simp [receive, handleRead, Message.gameStart, Message.blank, startGame, h]

theorem follow_gameEnd (cl : Client) (winner : UInt8) :
    cl.follow (.gameEnd winner) = some cl :=
  follow_eq_some.mpr ⟨⟨by simp, by simp, by simp⟩, rfl⟩

theorem follow_takeTurn {cl : Client} (h : cl.game ≠ none) (id column : UInt8) :
    cl.follow (.takeTurn id column) = some cl := by
  refine follow_eq_some.mpr ⟨⟨by simp, by simp, fun _ => h⟩, ?_⟩
  simp only [receive, handleRead, Message.takeTurn_type]
  by_cases hid : id = cl.playerId ∧ column = requestTurn
  · simp [hid]
  · simp [hid]

theorem follow_update {cl : Client} {game : ValidGame} (hgame : cl.game = some game)
    {playerId column : UInt8} (hturn : (game.takeTurn playerId column).2 = .success) :
    cl.follow (.update playerId column) =
      some { cl with game := some (game.takeTurn playerId column).1 } := by
  refine follow_eq_some.mpr ⟨⟨fun _ => ⟨game, hgame, hturn⟩, by simp, by simp⟩, ?_⟩
  simp [receive, handleRead, Message.update, Message.blank, takeOpponentTurn,
    hgame]

theorem follow_success {cl : Client} {game : ValidGame} (hgame : cl.game = some game)
    {column : UInt8} (hturn : (game.takeTurn cl.playerId column).2 = .success) :
    cl.follow (.turnResult .success column) =
      some { cl with game := some (game.takeTurn cl.playerId column).1 } := by
  refine follow_eq_some.mpr ⟨⟨by simp, fun _ _ => ⟨game, hgame, hturn⟩, by simp⟩, ?_⟩
  simp [receive, handleRead, Message.turnResult, Message.blank, checkTurnResult,
    hgame]

theorem follow_refused (cl : Client) {result : TurnResult} (h : result ≠ .success)
    (column : UInt8) : cl.follow (.turnResult result column) = some cl := by
  have hbyte : turnResultByte result ≠ turnResultByte .success := fun heq =>
    h (turnResultByte_inj.mp heq)
  refine follow_eq_some.mpr ⟨⟨by simp, fun _ heq => absurd heq hbyte, by simp⟩, ?_⟩
  by_cases herr : result = .error
  · simp [receive, handleRead, Message.turnResult, Message.blank,
      checkTurnResult, herr]
  · simp [receive, handleRead, Message.turnResult, Message.blank,
      checkTurnResult, h, herr]

/-! ## The simulation -/

theorem run_refused (cl : Client) (c : ConnId) (id playerId column : UInt8)
    {result : TurnResult} (hr : result ≠ .success) :
    run follow cl ((Emission.tookTurn playerId column result).seenBy c id).toList = some cl := by
  rw [Emission.seenBy]
  split
  · exact (run_singleton ..).trans (follow_refused cl hr column)
  · rfl

/-- An accepted turn is played again, from the answer or from the update. -/
theorem run_success {cl : Client} {game : ValidGame} (hgame : cl.game = some game)
    {playerId column : UInt8} (hturn : (game.takeTurn playerId column).2 = .success)
    (c : ConnId) :
    run follow cl
        ((Emission.tookTurn playerId column .success).seenBy c cl.playerId).toList =
      some { cl with game := some (game.takeTurn playerId column).1 } := by
  rw [Emission.seenBy]
  split
  · next hid =>
      subst hid
      exact (run_singleton ..).trans (follow_success hgame hturn)
  · exact (run_singleton ..).trans (follow_update hgame hturn)

/-- A client that has seen `story` from the seat with this id. -/
structure Follows (id : UInt8) (story : List Emission) (state : Option ValidGame)
    (cl : Client) : Prop where
  playerId : cl.playerId = id
  game : cl.game = lastGame story
  current : ∀ game, state = some game → lastGame story = some game

theorem Follows.step {c : ConnId} {id : UInt8} {story : List Emission}
    {state state' : Option ValidGame} {cl : Client} {e : Emission}
    (h : Follows id story state cl) (ht : tell state e = some state') :
    ∃ cl', run follow cl (e.seenBy c id).toList = some cl' ∧
      Follows id (story ++ [e]) state' cl' := by
  obtain ⟨rfl, hlastGame, hcurrent⟩ := h
  have hcurrent' : ∀ game, state' = some game → lastGame (story ++ [e]) = some game :=
    fun game hg => tell_lastGame ht hcurrent hg
  have hstay : lastGame (story ++ [e]) = lastGame story →
      ∀ cl' : Client, cl'.playerId = cl.playerId → cl'.game = cl.game →
        Follows cl.playerId (story ++ [e]) state' cl' := fun hlast cl' hid hgame =>
    ⟨hid, by rw [hgame, hlast, hlastGame], hcurrent'⟩
  unfold tell at ht
  split at ht
  · next d =>
      have hlast := lastGame_other story (e := .joined d) (by simp) (by simp)
      rw [Emission.seenBy]
      split
      · exact ⟨_, (run_singleton ..).trans (follow_connected cl _), hstay hlast _ rfl rfl⟩
      · exact ⟨cl, rfl, hstay hlast cl rfl rfl⟩
  · next playerId column =>
      have hlast := lastGame_other story (e := .tookTurn playerId column .error) (by simp)
        (by simp)
      exact ⟨cl, run_refused cl c _ playerId column (by simp), hstay hlast cl rfl rfl⟩
  · next game slots =>
      split at ht
      · next hann =>
          refine ⟨_, (run_singleton ..).trans (follow_gameStart cl hann), rfl, ?_, hcurrent'⟩
          rw [lastGame_gameStarted]
      · cases ht
  · next game playerId =>
      have hlast := lastGame_other story (e := .takeTurn playerId) (by simp) (by simp)
      have hgame : cl.game ≠ none := by
        rw [hlastGame, hcurrent game rfl]
        exact Option.some_ne_none game
      rw [Emission.seenBy]
      split
      · exact ⟨cl, (run_singleton ..).trans (follow_takeTurn hgame _ _),
          hstay hlast cl rfl rfl⟩
      · exact ⟨cl, rfl, hstay hlast cl rfl rfl⟩
  · next game playerId column result =>
      have hgame : cl.game = some game := by rw [hlastGame, hcurrent game rfl]
      split at ht
      · next hcond =>
          by_cases hr : result = .success
          · subst hr
            refine ⟨_, run_success hgame hcond.2 c, rfl, ?_, hcurrent'⟩
            rw [lastGame_success, hcurrent game rfl]
            rfl
          · have hlast := lastGame_other story (e := .tookTurn playerId column result)
              (by simp) (by simpa using hr)
            exact ⟨cl, run_refused cl c _ playerId column hr, hstay hlast cl rfl rfl⟩
      · cases ht
  · next game winner =>
      have hlast := lastGame_other story (e := .gameEnded winner) (by simp) (by simp)
      exact ⟨cl, (run_singleton ..).trans (follow_gameEnd cl winner), hstay hlast cl rfl rfl⟩
  · cases ht

/-- The story since a player joined takes its client along. -/
theorem follow_story {c : ConnId} (id : UInt8) {rest : List Emission}
    {state : Option ValidGame} (h : run tell none (.joined c :: rest) = some state) :
    ∃ cl, run follow new ((Emission.joined c :: rest).filterMap (·.seenBy c id)) = some cl ∧
      Follows id (.joined c :: rest) state cl := by
  have hjoin : Follows id [.joined c] none { new with playerId := id, isConnected := true } :=
    ⟨rfl, rfl, fun _ hg => by cases hg⟩
  have hrest : run tell none rest = some state := h
  obtain ⟨cl, hrun, hfollows⟩ := run_simulates (R := Follows id)
    (fun story state e state' cl hf ht => hf.step (c := c) ht) hjoin hrest
  refine ⟨cl, ?_, hfollows⟩
  have hseen : (Emission.joined c :: rest).filterMap (·.seenBy c id) =
      [.connected id] ++ rest.filterMap (·.seenBy c id) := by
    rw [List.filterMap_cons]
    simp [Emission.seenBy]
  rw [hseen, run_append, run_singleton, follow_connected]
  exact hrun

theorem run_follow_filter (cl : Client) (ms : List Message) :
    run follow cl (ms.filter fun m => decide ¬ m.Housekeeping) = run follow cl ms :=
  run_filter (fun cl m hm => follow_housekeeping cl (by simpa using hm)) cl ms

/-- A run that never got stuck is a run of the handler. -/
theorem receive_of_follow {cl cl' : Client} {ms : List Message}
    (h : run follow cl ms = some cl') : run receive cl ms = some cl' :=
  run_mono (fun _ _ _ hf => (follow_eq_some.mp hf).2) h

end Client

namespace Room

/-- What a connection was sent up to some point takes its client along a part of
the story. -/
theorem Heard.follow_part {r : Room} (h : r.Heard) {c : ConnId} {ms : List Message}
    (hms : ms <+: (r.conns c).sent) :
    ∃ story cl, story <+: since c r.lobby.trace ∧
      ms.filter (fun m => decide ¬ m.Housekeeping) =
        story.filterMap (·.seenBy c (r.conns c).id) ∧
      run Client.follow Client.new ms = some cl ∧
      (story ≠ [] → ∃ state, Client.Follows (r.conns c).id story state cl) := by
  have htold : ms.filter (fun m => decide ¬ m.Housekeeping) <+: (r.conns c).told :=
    hms.filter _
  have hnothing : ms.filter (fun m => decide ¬ m.Housekeeping) = [] →
      run Client.follow Client.new ms = some Client.new := by
    intro hnil
    rw [← Client.run_follow_filter, hnil]
    rfl
  by_cases hc : c ∈ r.lobby.handlers
  · obtain ⟨story, hstory, heq⟩ := List.prefix_filterMap_iff.mp (htold.trans (h.part c hc))
    have hjoined := (h.joined c).mp hc
    obtain ⟨rest, hrest⟩ := since_of_mem hjoined
    obtain ⟨state, hstate⟩ := run_passes (run_since h.story hjoined) hstory
    cases story with
    | nil => exact ⟨[], Client.new, hstory, heq, hnothing heq, fun hne => absurd rfl hne⟩
    | cons e story =>
        have he : e = .joined c := by
          rw [hrest] at hstory
          exact (List.cons_prefix_cons.mp hstory).1
        subst he
        obtain ⟨cl, hrun, hfollows⟩ := Client.follow_story (r.conns c).id hstate
        refine ⟨_, cl, hstory, heq, ?_, fun _ => ⟨state, hfollows⟩⟩
        rw [← Client.run_follow_filter, heq]
        exact hrun
  · rw [h.outside c hc] at htold
    have hnil := List.prefix_nil.mp htold
    exact ⟨[], Client.new, List.nil_prefix, hnil, hnothing hnil, fun hne => absurd rfl hne⟩

/-- Everything a live connection was sent takes its client to the lobby's game. -/
theorem Heard.follow_all {r : Room} (h : r.Heard) {c : ConnId} (hc : c ∈ r.lobby.handlers)
    (halive : (r.conns c).isAlive = true) :
    ∃ cl, run Client.follow Client.new (r.conns c).sent = some cl ∧
      Client.Follows (r.conns c).id (since c r.lobby.trace) r.lobby.game cl := by
  have hjoined := (h.joined c).mp hc
  obtain ⟨rest, hrest⟩ := since_of_mem hjoined
  have hrun := run_since h.story hjoined
  rw [hrest] at hrun
  obtain ⟨cl, hcl, hfollows⟩ := Client.follow_story (r.conns c).id hrun
  rw [← hrest] at hcl hfollows
  refine ⟨cl, ?_, hfollows⟩
  rw [← Client.run_follow_filter]
  exact (congrArg _ (h.alive c hc halive)).trans hcl

end Room

theorem countP_gameStart (c : ConnId) (id : UInt8) (story : List Emission) :
    (story.filterMap (·.seenBy c id)).countP (fun m => decide (m.type = .gameStart)) =
      (games story).length := by
  induction story using List.reverseRecOn with
  | nil => rfl
  | append_singleton story e ih =>
      rw [List.filterMap_append, List.countP_append, ih, games_concat]
      cases e with
      | gameStarted game slots => simp [Emission.seenBy, log]
      | joined d =>
          by_cases hd : d = c <;> simp [Emission.seenBy, log, hd]
      | gameEnded winner => simp [Emission.seenBy, log]
      | takeTurn playerId =>
          by_cases hp : playerId = id <;> simp [Emission.seenBy, log, hp]
      | tookTurn playerId column result =>
          have hlog : (log (games story) (.tookTurn playerId column result)).length =
              (games story).length := by
            cases result <;> cases games story <;> rfl
          rw [hlog]
          by_cases hp : playerId = id
          · simp [Emission.seenBy, hp]
          · by_cases hr : result = .success <;> simp [Emission.seenBy, hp, hr]

namespace Network

/-- How many games the client has seen start. -/
def gamesSeen (n : Network) (c : ConnId) : Nat :=
  (n.arrived sent c).countP fun m => decide (m.type = .gameStart)

variable {maxPlayers : UInt8} {n : Network}

theorem replayed (htwo : 2 ≤ maxPlayers.toNat)
    (hn : Reaches step (Net.When Room.ReadyBetweenGames) (started maxPlayers) n) :
    Net.Replayed Room.step Room.ReadyBetweenGames sent Client.receive
      (Room.started maxPlayers) Client.new n := by
  refine Net.replayed (fun r e r' hr hok hs c => ?_) hn
  have hinv := Room.reachable_inv hr.reachable
  have hmax := Room.reachable_maxPlayers hr.reachable
  exact Room.moves_sent hinv (hmax ▸ htwo) hok (Room.step_moves hinv hs) c

/-- The client of a live player knows its id, or is about to be told; and a request
that is under way carries that id. -/
theorem known (htwo : 2 ≤ maxPlayers.toNat)
    (hn : Reaches step (Net.When Room.ReadyBetweenGames) (started maxPlayers) n) {c : ConnId}
    (hc : c ∈ n.sender.lobby.handlers) (halive : (n.sender.conns c).isAlive = true) :
    ((n.receiver c).playerId = (n.sender.conns c).id ∨
      ∃ m ∈ n.inFlight sent c, m.type = .connected) ∧
    ∀ m ∈ n.inFlight sent c, m.type = .takeTurn →
      m.get 0 = (n.sender.conns c).id ∧ m.get 1 = requestTurn := by
  have hrep := replayed htwo hn
  have hheard := Room.reaches_heard htwo hrep.sender
  have hsplit : sent n.sender c = n.arrived sent c ++ n.inFlight sent c :=
    (List.take_append_drop ..).symm
  have htold := hheard.alive c hc halive
  constructor
  · obtain ⟨story, cl, _, hfilter, hrun, hfollows⟩ :=
      hheard.follow_part (c := c) (List.take_prefix (n.delivered c) _)
    by_cases hne : story = []
    · right
      subst hne
      obtain ⟨rest, hrest⟩ := Room.since_of_mem ((hheard.joined c).mp hc)
      have hin : Message.connected (n.sender.conns c).id ∈ (n.sender.conns c).told := by
        rw [htold, hrest, List.filterMap_cons]
        simp [Emission.seenBy]
      rw [Connection.told, show (n.sender.conns c).sent = _ from hsplit, List.filter_append,
        show (n.arrived sent c).filter _ = [] from hfilter, List.nil_append] at hin
      exact ⟨_, List.mem_of_mem_filter hin, rfl⟩
    · left
      obtain ⟨state, hf⟩ := hfollows hne
      have hcl : n.receiver c = cl :=
        Option.some.inj ((hrep.receiver c).symm.trans (Client.receive_of_follow hrun))
      rw [hcl, hf.playerId]
  · intro m hm htype
    have hin : m ∈ (n.sender.conns c).told := by
      rw [Connection.told, List.mem_filter]
      refine ⟨List.mem_of_mem_drop hm, ?_⟩
      simp [Message.Housekeeping, htype]
    rw [htold] at hin
    obtain ⟨e, _, he⟩ := List.mem_filterMap.mp hin
    cases e with
    | takeTurn playerId =>
        rw [Emission.seenBy] at he
        split at he
        · next hid =>
            cases he
            exact ⟨hid, rfl⟩
        · cases he
    | _ =>
        simp only [Emission.seenBy] at he
        repeat' split at he
        all_goals cases he <;> cases htype

theorem handled (htwo : 2 ≤ maxPlayers.toNat)
    (hn : Reaches step (Net.When Room.ReadyBetweenGames) (started maxPlayers) n) {c : ConnId}
    {m : Message} (hm : (n.inFlight sent c).head? = some m) :
    (∃ out, (n.receiver c).handleRead m = .ok out) ∧ (n.receiver c).InStep m := by
  have hrep := replayed htwo hn
  have hheard := Room.reaches_heard htwo hrep.sender
  obtain ⟨_, cl, _, _, hrun, _⟩ := hheard.follow_part (Net.arrived_next hm)
  rw [run_append] at hrun
  obtain ⟨mid, hmid, hnext⟩ := Option.bind_eq_some_iff.mp hrun
  have hcl : n.receiver c = mid :=
    Option.some.inj ((hrep.receiver c).symm.trans (Client.receive_of_follow hmid))
  rw [run_singleton, ← hcl] at hnext
  obtain ⟨hstep, hreceive⟩ := Client.follow_eq_some.mp hnext
  obtain ⟨calls, hread⟩ := Client.receive_eq_some hreceive
  exact ⟨⟨_, hread⟩, hstep⟩

/-- In every state of every run that counts ready messages only between games:
the server's game is the last one of the story; handling what is in flight brings
the client of every live player to it; a client that has seen the start of a game
has that game after some of its turns; and the next message is handled without a
fault and finds the client in step. -/
theorem replicas_agree (htwo : 2 ≤ maxPlayers.toNat)
    (hn : Reaches step (Net.When Room.ReadyBetweenGames) (started maxPlayers) n) (c : ConnId) :
    (∀ game, n.sender.lobby.game = some game →
      lastGame n.sender.lobby.trace = some game) ∧
    (∀ i, n.sender.Seated i c → (n.sender.conns c).isAlive = true →
      n.sender.lobby.isPlayingGame = true →
        ∃ cl game, run Client.receive (n.receiver c) (n.inFlight sent c) = some cl ∧
          n.sender.lobby.game = some game ∧ cl.game = some game) ∧
    (0 < n.gamesSeen c →
      ∃ later record earlier,
        games (Room.since c n.sender.lobby.trace) = later ++ record :: earlier ∧
        earlier.length + 1 = n.gamesSeen c ∧
        ∃ k ≤ record.turns.length, (n.receiver c).game = some (record.after k)) ∧
    (∀ m, (n.inFlight sent c).head? = some m →
      (∃ out, (n.receiver c).handleRead m = .ok out) ∧ (n.receiver c).InStep m) := by
  have hrep := replayed htwo hn
  have hinv := Room.reachable_inv hrep.sender.reachable
  have hheard := Room.reaches_heard htwo hrep.sender
  refine ⟨fun game hgame => ?_, fun i hi halive hplay => ?_, fun hseen => ?_, fun m hm => ?_⟩
  · exact run_tell_lastGame (hgame ▸ hheard.story)
  · have hin := (hinv.seats.seated i c hi).1
    obtain ⟨game, hgame⟩ := hinv.playing.exists_game hplay
    obtain ⟨cl, hrun, hfollows⟩ := hheard.follow_all hin halive
    refine ⟨cl, game, ?_, hgame, ?_⟩
    · rw [hrep.inFlight c]
      exact Client.receive_of_follow hrun
    · rw [hfollows.game, hfollows.current game hgame]
  · obtain ⟨story, cl, hpart, hfilter, hrun, hfollows⟩ :=
      hheard.follow_part (c := c) (List.take_prefix (n.delivered c) _)
    have hcl : n.receiver c = cl :=
      Option.some.inj ((hrep.receiver c).symm.trans (Client.receive_of_follow hrun))
    -- what is housekeeping is not the start of a game
    have hcount : n.gamesSeen c = (games story).length := by
      rw [← countP_gameStart c (n.sender.conns c).id, ← hfilter, List.countP_filter]
      refine List.countP_congr fun m _ => ?_
      by_cases htype : m.type = .gameStart <;> simp [htype, Message.Housekeeping]
    rw [hcount] at hseen ⊢
    obtain ⟨record, earlier, hgames⟩ := List.exists_cons_of_length_pos hseen
    obtain ⟨more, hmore⟩ := hpart
    obtain ⟨later, record', hlater, hext⟩ := games_append story more hgames
    have hne : story ≠ [] := by
      rintro rfl
      cases hgames
    obtain ⟨state, hf⟩ := hfollows hne
    refine ⟨later, record', earlier, hmore ▸ hlater, by rw [hgames, List.length_cons],
      record.turns.length, hext.game.1, ?_⟩
    rw [hcl, hf.game, lastGame, hgames, ← hext.game.2]
    rfl
  · exact handled htwo hn hm

/-- A game of two starts, the first player moves, and the second client has read no
further than the start. -/
def oneTurnBehind : List (NetEvent RoomEvent ConnId) :=
  Room.bothReady.map .send ++
    [.send (.read 0 (.message (.takeTurn 1 3)) 1 none), .deliver 1, .deliver 1, .deliver 1]

theorem replicas_agree_behind :
    ∃ n, run step (started 2) oneTurnBehind = some n ∧
      (n.receiver 1).game = some (.standard 2 1) ∧
      n.sender.lobby.game ≠ some (.standard 2 1) ∧
      (∃ cl game, run Client.receive (n.receiver 1) (n.inFlight sent 1) = some cl ∧
        n.sender.lobby.game = some game ∧ cl.game = some game) ∧
      (∃ later record earlier,
        games (Room.since 1 n.sender.lobby.trace) = later ++ record :: earlier ∧
        earlier.length + 1 = n.gamesSeen 1 ∧
        ∃ k ≤ record.turns.length, (n.receiver 1).game = some (record.after k)) ∧
      (n.receiver 1).InStep (.update 1 3) := by
  have hrun : (run step (started 2) oneTurnBehind).any (fun n =>
      decide ((n.receiver 1).game = some (.standard 2 1) ∧
        n.sender.lobby.game ≠ some (.standard 2 1) ∧ 0 < n.gamesSeen 1 ∧
        n.sender.lobby.players[1]? = some (some 1) ∧
        (n.sender.conns 1).isAlive = true ∧ n.sender.lobby.isPlayingGame = true ∧
        (n.inFlight sent 1).head? = some (.update 1 3))) = true := by
    decide +kernel
  obtain ⟨n, hrun, hn⟩ := (Option.any_eq_true ..).mp hrun
  obtain ⟨hold, hnew, hseen, hseated, halive, hplay, hnext⟩ := of_decide_eq_true hn
  obtain ⟨_, hagree, hgames, hstep⟩ :=
    replicas_agree (n := n) (show 2 ≤ (2 : UInt8).toNat by decide)
      (.run .refl (by decide +kernel) hrun) 1
  exact ⟨n, hrun, hold, hnew, hagree 1 hseated halive hplay, hgames hseen,
    (hstep _ hnext).2⟩

end Network

end ConnectDisks.Net
