import ConnectDisks.Proofs.ReadyCount

/-!
# When a game starts

`onReady` adds one to the counter for every ready message, also for one from a
player that was ready already, and looks at nothing else to decide whether
everybody is. So the counter is at most the number of ready players as long as
only players are counted that were not ready yet (`gameStarted_all_ready`), and
it keeps up with that number as long as nobody arrives ready either
(`playing_of_all_ready`).

Both are invariants of a run between games. While a game is on, the counter may
be anything: the end of the game sets it to zero and every flag to false.
-/

namespace ConnectDisks.Net

open ConnectDisks.Game Lib

namespace Room

/-- The connection whose ready message `onReady` counts at this event: the lobby
is connected to it, and an occupant has the id it has. -/
def counts (r : Room) (e : RoomEvent) : Option ConnId :=
  match e.message? with
  | none => none
  | some (c, m) =>
      if m.type = .ready ∧ m.get 0 = (r.conns c).id ∧
          r.lobby.address ∈ (r.conns c).handlers ∧
          (r.findPlayer (r.conns c).id).isSome = true then some c
      else none

/-- A ready message with the sender's own id is counted if it finds an occupant. -/
theorem counts_ready {r : Room} (h : r.Seats) {c : ConnId} {m : Message} (first : UInt8)
    (refill : Option ConnId) {conn : Connection} (hc : c ∈ r.lobby.handlers)
    (hi : (r.conns c).Idles conn) (htype : m.type = .ready)
    (hid : m.get 0 = (r.conns c).id) :
    r.counts (.read c (.message m) first refill) =
      if ((r.modify c fun _ => conn.readied).findPlayer
        ((r.modify c fun _ => conn.readied).conns c).getId).isSome then some c else none := by
  rw [modify_findPlayer (ready_wanders hi).seat, modify_conns_self,
    show conn.readied.getId = (r.conns c).id from hi.id]
  simp only [counts, RoomEvent.message?, htype, hid, (h.mem_handlers c).mp hc, true_and]

theorem counts_of_found {r : Room} (h : r.Seats) {c : ConnId} {m : Message} {first : UInt8}
    {refill : Option ConnId} {conn : Connection} (hc : c ∈ r.lobby.handlers)
    (hi : (r.conns c).Idles conn) (htype : m.type = .ready) (hid : m.get 0 = (r.conns c).id)
    {i : Nat} (hfound : (r.modify c fun _ => conn.readied).findPlayer
      ((r.modify c fun _ => conn.readied).conns c).getId = some i) :
    r.counts (.read c (.message m) first refill) = some c := by
  rw [counts_ready h first refill hc hi htype hid, hfound]
  rfl

/-- The occupants that are ready once `c` is. -/
def readyWith (r : Room) (c : ConnId) : Nat :=
  (r.modify c fun conn => conn.handleClientReady.1).readyCount

theorem readyWith_eq {r : Room} {c : ConnId} {conn : Connection} (hr : conn.isReady = true) :
    (r.modify c fun _ => conn).readyCount = r.readyWith c := by
  refine readyCount_congr rfl fun i d _ => ?_
  by_cases hd : d = c
  · rw [hd, modify_conns_self, modify_conns_self, hr]
    rfl
  · rw [modify_conns_of_ne r hd, modify_conns_of_ne r hd]

theorem readyCount_lt {r : Room} (h : r.Seats) : r.readyCount < 256 := by
  have := r.readyCount_le_length
  have := h.maxPlayers_le
  omega

/-- The counter does not wrap while it is below the number of players. -/
theorem toNat_add_one {n : UInt8} {k : Nat} (h : n.toNat < k) (hk : k < 256) :
    (n + 1).toNat = n.toNat + 1 := by
  rw [UInt8.toNat_add]
  exact Nat.mod_eq_of_lt (show n.toNat + 1 < 256 by omega)

theorem vacated_numReady (r : Room) (c : ConnId) (i : Nat) :
    (r.vacated c i).lobby.numReady.toNat =
      r.lobby.numReady.toNat - (if (r.conns c).isReady then 1 else 0) := by
  simp only [vacated]
  cases (r.conns c).isReady with
  | false => rfl
  | true =>
      simp only [Bool.true_and, decide_eq_true_eq, if_true]
      split
      · next hpos => exact toNat_sub_one (UInt8.lt_iff_toNat_lt.mp hpos)
      · next hpos =>
          have hzero : ¬ 0 < r.lobby.numReady.toNat := fun h =>
            hpos (UInt8.lt_iff_toNat_lt.mpr h)
          omega

/-! ## The counter never runs ahead -/

/-- Between games no more messages were counted than players are ready, and
whenever a game was started everybody was. -/
structure Agreed (r : Room) : Prop where
  covered : r.lobby.isPlayingGame = false → r.lobby.numReady.toNat ≤ r.readyCount
  starts : ∀ game slots, .gameStarted game slots ∈ r.lobby.trace →
    slots = List.replicate r.lobby.maxPlayers.toNat (some true)

theorem Agreed.addPlayer {r : Room} (h : r.Agreed) (hs : r.Seats) {c : ConnId}
    (hjoin : r.Joinable c) : (r.addPlayer c).Agreed := by
  rcases addPlayer_cases hs c with ⟨_, heq⟩ | ⟨_, i, hnull, hlt, heq⟩ <;> rw [heq]
  · exact h
  · refine ⟨fun hplay => ?_, fun game slots hin => h.starts game slots ?_⟩
    · rw [admitted_readyCount hs hjoin hnull hlt]
      exact (h.covered hplay).trans (Nat.le_add_right _ _)
    · simpa [admitted] using hin

theorem Agreed.gameOver {r : Room} (h : r.Agreed) (winner : UInt8) :
    (r.gameOver winner).Agreed := by
  refine ⟨fun _ => Nat.zero_le _, fun game slots hin => h.starts game slots ?_⟩
  simpa [Room.gameOver, gameEnded] using hin

theorem Agreed.tookTurn {r : Room} (h : r.Agreed) (playerId column : UInt8)
    (result : TurnResult) : (r.tookTurn playerId column result).Agreed := by
  refine ⟨fun hplay => ?_, fun game slots hin => h.starts game slots ?_⟩
  · rw [tookTurn_readyCount]
    exact h.covered hplay
  · simpa [Room.tookTurn] using hin

theorem Agreed.takeTurn {r : Room} (h : r.Agreed) (playerId : UInt8) :
    (r.takeTurn playerId).Agreed := by
  refine ⟨fun hplay => ?_, fun game slots hin => h.starts game slots ?_⟩
  · rw [takeTurn_readyCount]
    exact h.covered hplay
  · simpa [Room.takeTurn] using hin

theorem Agreed.modify {r : Room} (h : r.Agreed) {c : ConnId} {conn : Connection}
    (hc : r.readyCount ≤ (r.modify c fun _ => conn).readyCount) :
    (r.modify c fun _ => conn).Agreed :=
  ⟨fun hplay => (h.covered hplay).trans hc, h.starts⟩

theorem Agreed.withGame {r : Room} (h : r.Agreed) (game : Option ValidGame) :
    (r.withGame game).Agreed :=
  ⟨h.covered, h.starts⟩

theorem Agreed.vacated {r : Room} (h : r.Agreed) {i : Nat} {c : ConnId}
    (hc : r.Seated i c) : (r.vacated c i).Agreed := by
  refine ⟨fun hplay => ?_, h.starts⟩
  have hle := h.covered hplay
  have hcount := vacated_readyCount hc
  rw [vacated_numReady]
  omega

theorem Agreed.ended {r : Room} (h : r.Agreed) : r.ended.Agreed := by
  rw [Room.ended]
  split
  · exact h
  · exact h.gameOver _

/-- A ready message that was not counted before. -/
theorem Agreed.onReady {r : Room} (h : r.Agreed) (hinv : r.Inv) (c : ConnId) (first : UInt8)
    (hfresh : (∃ i, r.findPlayer (r.conns c).getId = some i) →
      r.lobby.isPlayingGame = false → r.lobby.numReady.toNat < r.readyCount) :
    (r.onReady c first).Agreed := by
  rcases onReady_cases hinv.seats.isOpen c first with
    ⟨_, heq⟩ | ⟨i, hi, _, heq⟩ | ⟨i, _, _, _, hplay, heq⟩ | ⟨i, hi, hall, hfull, hplay, heq⟩ <;>
    rw [heq]
  · exact h
  · refine ⟨fun hplay => ?_, h.starts⟩
    have hlt := hfresh ⟨i, hi⟩ hplay
    show (r.lobby.numReady + 1).toNat ≤ r.readyCount
    rw [toNat_add_one hlt (readyCount_lt hinv.seats)]
    exact hlt
  · refine ⟨fun hnot => ?_, h.starts⟩
    have : r.lobby.isPlayingGame = false := hnot
    rw [hplay] at this
    cases this
  · -- the start: the counter says `maxPlayers`, so that many players are ready
    refine ⟨fun hnot => absurd hnot (by simp), fun game slots hin => ?_⟩
    simp only [opened, Room.takeTurn, gameStarted, emit_lobby, List.mem_append,
      List.mem_singleton, reduceCtorEq, or_false, Emission.gameStarted.injEq] at hin
    rcases hin with hin | ⟨_, rfl⟩
    · exact h.starts game slots hin
    · have hlt := hfresh ⟨i, hi⟩ hplay
      have hnum : (r.lobby.numReady + 1).toNat = r.lobby.maxPlayers.toNat := by
        rw [hall, beq_iff_eq.mp hfull]
      rw [toNat_add_one hlt (readyCount_lt hinv.seats), ← hinv.seats.length] at hnum
      show r.slots = List.replicate r.lobby.maxPlayers.toNat (some true)
      rw [← hinv.seats.length]
      exact slots_of_readyCount (by omega)

/-- Between games a message is counted only while the counter is below the number of
ready occupants, its sender among them. -/
def CountsFresh (r : Room) (e : RoomEvent) : Prop :=
  ∀ c ∈ r.counts e, r.lobby.isPlayingGame = false →
    r.lobby.numReady.toNat < r.readyWith c

theorem Agreed.moves {r r' : Room} {e : RoomEvent} (hinv : r.Inv) (h : r.Agreed)
    (hok : r.CountsFresh e) (hm : r.Moves e r') : r'.Agreed := by
  cases hm with
  | idle hi _ _ => exact h.modify (modify_readyCount_of_eq hi.isReady).ge
  | outside hc _ _ _ => exact h.modify (modify_readyCount_of_notMem hinv.seats hc _).ge
  | join hjoin => exact h.addPlayer hinv.seats hjoin
  | @ready c m first refill conn hc hi htype hid =>
      refine (h.modify (le_modify_readyCount rfl)).onReady
        (hinv.modify (ready_wanders hi).seat) c first ?_
      rintro ⟨i, hfound⟩ hplay
      rw [readyWith_eq rfl]
      exact hok c (counts_of_found hinv.seats hc hi htype hid hfound) hplay
  | turn _ hi _ _ _ =>
      have hturn := h.modify (modify_readyCount_of_eq hi.isReady).ge
      have hinv' := hinv.modify hi.keepsSeat
      rcases onTakeTurn_cases hinv'.playing _ _ with
        ⟨_, heq⟩ | ⟨_, _, _, _, _, heq⟩ | ⟨_, game', _, _, _, _, heq⟩ |
          ⟨_, game', _, _, _, heq⟩ <;> rw [heq]
      · exact hturn.tookTurn _ _ _
      · exact hturn.tookTurn _ _ _
      · exact ((hturn.withGame _).tookTurn _ _ _).takeTurn _
      · exact ((hturn.withGame _).tookTurn _ _ _).gameOver _
  | @drop e c conn i refill hc halive hi hjoin _ _ =>
      have hready : conn.dropped.isReady = (r.conns c).isReady := hi.isReady
      have hdead := h.modify (modify_readyCount_of_eq hready).ge
      have hleft := (hdead.vacated hc).ended
      cases refill with
      | none => exact hleft
      | some d =>
          exact hleft.addPlayer (hinv.dropped hc hi).seats ((hjoin d rfl).left hinv.seats hc)

theorem started_agreed (maxPlayers : UInt8) : (started maxPlayers).Agreed :=
  ⟨fun _ => Nat.zero_le _, fun _ _ hin => by cases hin⟩

/-- The ready messages a run may count between games: those of occupants that were not
ready yet. -/
def CountsNew (r : Room) (e : RoomEvent) : Prop :=
  ∀ c ∈ r.counts e, r.lobby.isPlayingGame = false →
    some c ∈ r.lobby.players ∧ (r.conns c).isReady = false

instance (r : Room) (e : RoomEvent) : Decidable (r.CountsNew e) := by
  unfold CountsNew
  infer_instance

/-- A player that was not ready is one more that is, so the counter may follow. -/
theorem CountsNew.fresh {r : Room} {e : RoomEvent} (hok : r.CountsNew e) (hs : r.Seats)
    (h : r.Agreed) : r.CountsFresh e := by
  intro c hc hplay
  obtain ⟨hin, hnot⟩ := hok c hc hplay
  obtain ⟨i, hi⟩ := mem_players_iff.mp hin
  have hcovered := h.covered hplay
  rw [← readyWith_eq (Connection.readied_isReady (r.conns c)),
    modify_readyCount_of_ready hs hi hnot rfl]
  omega

/-- A game starts only when every slot holds a player that is ready, in every run that
counts, between games, no message of a player that was ready already or has no slot. -/
theorem gameStarted_all_ready {maxPlayers : UInt8} {r : Room}
    (hr : Reaches Room.step CountsNew (started maxPlayers) r) :
    ∀ game slots, .gameStarted game slots ∈ r.lobby.trace →
      slots = List.replicate maxPlayers.toNat (some true) := by
  have hmax := reachable_maxPlayers hr.reachable
  have hagreed := reaches_invariant (started_agreed maxPlayers)
    (fun _ _ _ hinv _ h hok hm => h.moves hinv (hok.fresh hinv.seats h) hm) hr
  intro game slots hin
  rw [← hmax]
  exact hagreed.starts game slots hin

/-- A client accepted and added to the lobby. -/
def arrives (c : ConnId) : List RoomEvent := [.accept c, .join c]

/-- A ready message is read on the socket of a connection. -/
def readies (c : ConnId) (id : UInt8) : RoomEvent :=
  .read c (.message (.ready id)) 1 none

/-- Two players, one ready message from each. -/
def bothReady : List RoomEvent :=
  arrives 0 ++ arrives 1 ++ [readies 0 1, readies 1 2]

theorem gameStarted_all_ready_both :
    ∃ r, run Room.step (started 2) bothReady = some r ∧ r.lobby.isPlayingGame = true ∧
      ∀ game slots, .gameStarted game slots ∈ r.lobby.trace →
        slots = [some true, some true] := by
  have hplay : (run Room.step (started 2) bothReady).any (·.lobby.isPlayingGame) = true := by
    decide
  obtain ⟨r, hrun, hr⟩ := (Option.any_eq_true ..).mp hplay
  refine ⟨r, hrun, hr, gameStarted_all_ready (.run .refl ?_ hrun)⟩
  decide

/-- The first player says it is ready twice, the second not at all. -/
def readyTwice : List RoomEvent :=
  arrives 0 ++ arrives 1 ++ [readies 0 1, readies 0 1]

/-- The game starts all the same. -/
theorem gameStarted_one_ready :
    ¬ ∀ r, Reachable Room.step (started 2) r → ∀ game slots,
      .gameStarted game slots ∈ r.lobby.trace → slots = List.replicate 2 (some true) := by
  intro hall
  have hrun : (run Room.step (started 2) readyTwice).any (fun r =>
      decide (.gameStarted (.standard 2 1) [some true, some false] ∈ r.lobby.trace)) = true := by
    decide
  obtain ⟨r, hrun, hr⟩ := (Option.any_eq_true ..).mp hrun
  have := hall r (.of_run hrun) _ _ (of_decide_eq_true hr)
  exact absurd this (by decide)

/-! ## The counter never falls behind -/

/-- Between games every ready player was counted, and somebody is missing. -/
structure KeptUp (r : Room) : Prop where
  counted : r.lobby.isPlayingGame = false → r.readyCount ≤ r.lobby.numReady.toNat
  missing : r.lobby.isPlayingGame = false → r.readyCount < r.lobby.maxPlayers.toNat

theorem KeptUp.addPlayer {r : Room} (h : r.KeptUp) (hs : r.Seats) {c : ConnId}
    (hjoin : r.Joinable c) (hnot : (r.conns c).isReady = false) : (r.addPlayer c).KeptUp := by
  rcases addPlayer_cases hs c with ⟨_, heq⟩ | ⟨_, i, hnull, hlt, heq⟩ <;> rw [heq]
  · exact h
  · have hcount : (r.admitted c i).readyCount = r.readyCount := by
      rw [admitted_readyCount hs hjoin hnull hlt, hnot]
      rfl
    refine ⟨fun hplay => ?_, fun hplay => ?_⟩
    · rw [hcount]
      exact h.counted hplay
    · rw [hcount]
      exact h.missing hplay

theorem KeptUp.modify {r : Room} (h : r.KeptUp) {c : ConnId} {conn : Connection}
    (hc : (r.modify c fun _ => conn).readyCount ≤ r.readyCount) :
    (r.modify c fun _ => conn).KeptUp :=
  ⟨fun hplay => hc.trans (h.counted hplay), fun hplay => hc.trans_lt (h.missing hplay)⟩

theorem KeptUp.withGame {r : Room} (h : r.KeptUp) (game : Option ValidGame) :
    (r.withGame game).KeptUp :=
  ⟨h.counted, h.missing⟩

theorem KeptUp.gameOver {r : Room} (hs : r.Seats) (hpos : 0 < r.lobby.maxPlayers.toNat)
    (winner : UInt8) : (r.gameOver winner).KeptUp := by
  have hcount := gameOver_readyCount hs winner
  refine ⟨fun _ => ?_, fun _ => ?_⟩
  · rw [hcount]
    exact Nat.zero_le _
  · rw [hcount]
    exact hpos

theorem KeptUp.tookTurn {r : Room} (h : r.KeptUp) (playerId column : UInt8)
    (result : TurnResult) : (r.tookTurn playerId column result).KeptUp := by
  have hcount := r.tookTurn_readyCount playerId column result
  exact ⟨fun hplay => hcount.symm ▸ h.counted hplay, fun hplay => hcount.symm ▸ h.missing hplay⟩

theorem KeptUp.takeTurn {r : Room} (h : r.KeptUp) (playerId : UInt8) :
    (r.takeTurn playerId).KeptUp := by
  have hcount := r.takeTurn_readyCount playerId
  exact ⟨fun hplay => hcount.symm ▸ h.counted hplay, fun hplay => hcount.symm ▸ h.missing hplay⟩

theorem KeptUp.left {r : Room} (h : r.KeptUp) (hs : r.Seats)
    (hpos : 0 < r.lobby.maxPlayers.toNat) {i : Nat} {c : ConnId} (hc : r.Seated i c)
    (hdead : (r.conns c).isAlive = false) : (r.vacated c i).ended.KeptUp := by
  rw [Room.ended]
  split
  · have hcount := vacated_readyCount hc
    refine ⟨fun hplay => ?_, fun hplay => ?_⟩
    · have hle := h.counted hplay
      rw [vacated_numReady]
      omega
    · have hlt := h.missing hplay
      show (r.vacated c i).readyCount < r.lobby.maxPlayers.toNat
      omega
  · exact .gameOver (hs.vacated hc hdead) hpos _

/-- A ready message from a player that was not ready: when it is the last one
missing, the game starts. -/
theorem KeptUp.onReady {r : Room} (hinv : r.Inv) {c : ConnId} (first : UInt8)
    (hnum : r.lobby.isPlayingGame = false → r.lobby.numReady.toNat + 1 = r.readyCount)
    (hfound : ∃ i, r.findPlayer (r.conns c).getId = some i) : (r.onReady c first).KeptUp := by
  have hwrap : r.lobby.isPlayingGame = false →
      (r.lobby.numReady + 1).toNat = r.readyCount := fun hplay => by
    rw [toNat_add_one (k := r.readyCount) (by have := hnum hplay; omega)
      (readyCount_lt hinv.seats), hnum hplay]
  rcases onReady_cases hinv.seats.isOpen c first with
    ⟨hnone, _⟩ | ⟨i, _, hwait, heq⟩ | ⟨i, _, _, _, hplay, heq⟩ | ⟨i, _, _, _, _, heq⟩
  · rw [hnone] at hfound
    obtain ⟨i, hi⟩ := hfound
    cases hi
  · rw [heq]
    refine ⟨fun hplay => (hwrap hplay).ge, fun hplay => ?_⟩
    by_contra hall
    have hslots := slots_of_readyCount (r := r) (by
      rw [hinv.seats.length]
      exact Nat.le_of_not_lt hall)
    have hfull : r.lobby.isFull = true := by
      rw [hinv.seats.isFull_iff]
      intro j hj
      have hget : r.slots[j]? = some (some true) := by
        rw [hslots, List.getElem?_replicate, if_pos hj]
      rw [slots, List.getElem?_map, Option.map_eq_some_iff] at hget
      obtain ⟨slot, hslot, hmap⟩ := hget
      obtain ⟨d, rfl, _⟩ := Option.map_eq_some_iff.mp hmap
      exact ⟨d, hslot⟩
    refine hwait ⟨?_, hfull⟩
    rw [← UInt8.toNat_inj, hwrap hplay, readyCount_of_slots hslots, hinv.seats.length,
      beq_iff_eq.mp hfull]
  · rw [heq]
    have hnot : ∀ {p : Prop}, r.lobby.isPlayingGame = false → p := fun h =>
      absurd (h.symm.trans hplay) (by decide)
    exact ⟨hnot, hnot⟩
  · rw [heq]
    exact ⟨fun hplay => absurd hplay (by simp), fun hplay => absurd hplay (by simp)⟩

/-- The ready messages and the arrivals a run may have: between games, a message
is counted only for an occupant that was not ready yet, and nobody is offered to
the lobby who is ready beforehand. -/
def CountsOnce (r : Room) (e : RoomEvent) : Prop :=
  r.CountsNew e ∧ ∀ d ∈ e.joins, (r.conns d).isReady = false

instance (r : Room) (e : RoomEvent) : Decidable (r.CountsOnce e) := by
  unfold CountsOnce
  infer_instance

theorem KeptUp.moves {r r' : Room} {e : RoomEvent} (hinv : r.Inv)
    (hpos : 0 < r.lobby.maxPlayers.toNat) (ha : r.Agreed) (h : r.KeptUp)
    (hok : r.CountsOnce e) (hm : r.Moves e r') : r'.KeptUp := by
  cases hm with
  | idle hi _ _ => exact h.modify (modify_readyCount_of_eq hi.isReady).le
  | outside hc _ _ _ => exact h.modify (modify_readyCount_of_notMem hinv.seats hc _).le
  | join hjoin => exact h.addPlayer hinv.seats hjoin (hok.2 _ rfl)
  | @ready c m first refill conn hc hi htype hid =>
      have hinv' := hinv.modify (ready_wanders hi).seat
      cases hfound : (r.modify c fun _ => conn.readied).findPlayer
          ((r.modify c fun _ => conn.readied).conns c).getId with
      | none =>
          have hout : ∀ i, ¬ r.Seated i c := by
            intro i hseat
            have hsome := hinv'.seats.findPlayer_of_seated (i := i) (c := c) hseat
            rw [hfound] at hsome
            cases hsome
          rw [Room.onReady, hfound]
          exact h.modify (modify_readyCount_of_not_seated hout _).le
      | some i =>
          refine .onReady hinv' first (fun hplay => ?_) ⟨i, hfound⟩
          obtain ⟨hin, hnot⟩ :=
            hok.1 c (counts_of_found hinv.seats hc hi htype hid hfound) hplay
          obtain ⟨j, hj⟩ := mem_players_iff.mp hin
          rw [modify_readyCount_of_ready hinv.seats hj hnot (Connection.readied_isReady _)]
          exact congrArg (· + 1)
            (Nat.le_antisymm (ha.covered hplay) (h.counted hplay))
  | turn _ hi _ _ _ =>
      have hturn := h.modify (modify_readyCount_of_eq hi.isReady).le
      have hinv' := hinv.modify hi.keepsSeat
      rcases onTakeTurn_cases hinv'.playing _ _ with
        ⟨_, heq⟩ | ⟨_, _, _, _, _, heq⟩ | ⟨_, game', _, _, _, _, heq⟩ |
          ⟨_, game', _, _, _, heq⟩ <;> rw [heq]
      · exact hturn.tookTurn _ _ _
      · exact hturn.tookTurn _ _ _
      · exact ((hturn.withGame _).tookTurn _ _ _).takeTurn _
      · exact .gameOver ((hinv'.seats.withGame _).tookTurn _ _ _) hpos _
  | @drop e c conn i refill hc halive hi hjoin _ hjoins =>
      have hready : conn.dropped.isReady = (r.conns c).isReady := hi.isReady
      have hdead := h.modify (modify_readyCount_of_eq hready).le
      have hseats := (hinv.modify (dropped_wanders hi).seat).seats
      have hleft := hdead.left hseats hpos hc (by rw [modify_conns_self]; rfl)
      cases refill with
      | none => exact hleft
      | some d =>
          refine hleft.addPlayer (hinv.dropped hc hi).seats
            ((hjoin d rfl).left hinv.seats hc) ?_
          rw [left_conns_of_joinable hinv.seats hc (hjoin d rfl)]
          exact hok.2 d (hjoins ▸ rfl)

theorem started_keptUp {maxPlayers : UInt8} (hpos : 0 < maxPlayers.toNat) :
    (started maxPlayers).KeptUp := by
  have hnone : (started maxPlayers).readyCount = 0 := by
    simp [readyCount, started, GameLobby.new, GameLobby.start, GameLobby.startLobby,
      List.countP_replicate]
  exact ⟨fun _ => by rw [hnone]; exact Nat.zero_le _, fun _ => by rw [hnone]; exact hpos⟩

/-- When every slot holds a player that is ready, the game is on, in every run that
counts each player once and in which nobody arrives ready. -/
theorem playing_of_all_ready {maxPlayers : UInt8} (hpos : 0 < maxPlayers.toNat) {r : Room}
    (hr : Reaches Room.step CountsOnce (started maxPlayers) r)
    (hslots : r.slots = List.replicate maxPlayers.toNat (some true)) :
    r.lobby.isPlayingGame = true := by
  have hinv := reachable_inv hr.reachable
  have hmax := reachable_maxPlayers hr.reachable
  have hboth : r.Agreed ∧ r.KeptUp :=
    reaches_invariant (I := fun r => r.Agreed ∧ r.KeptUp)
      ⟨started_agreed maxPlayers, started_keptUp hpos⟩
      (fun s e s' hinv hmax h hok hm =>
        ⟨h.1.moves hinv (hok.1.fresh hinv.seats h.1) hm,
          h.2.moves hinv (hmax.symm ▸ hpos) h.1 hok hm⟩) hr
  by_contra hnot
  have hmissing := hboth.2.missing (Bool.not_eq_true _ ▸ hnot)
  rw [← hmax, ← hinv.seats.length] at hslots
  rw [readyCount_of_slots hslots, hinv.seats.length] at hmissing
  exact absurd hmissing (Nat.lt_irrefl _)

theorem playing_of_all_ready_both :
    ∃ r, run Room.step (started 2) bothReady = some r ∧
      r.slots = List.replicate 2 (some true) ∧ r.lobby.isPlayingGame = true := by
  have hslots : (run Room.step (started 2) bothReady).any (fun r =>
      decide (r.slots = List.replicate (2 : UInt8).toNat (some true))) = true := by
    decide
  obtain ⟨r, hrun, hr⟩ := (Option.any_eq_true ..).mp hslots
  have hr := of_decide_eq_true hr
  exact ⟨r, hrun, hr, playing_of_all_ready (by decide) (.run .refl (by decide) hrun) hr⟩

/-- The first player says it is ready twice while it is alone, the second once when
it comes. -/
def readyTooSoon : List RoomEvent :=
  arrives 0 ++ [readies 0 1, readies 0 1] ++ arrives 1 ++ [readies 1 2]

/-- Everybody is ready, three messages were counted, and no game starts. -/
theorem all_ready_stuck :
    ¬ ∀ r, Reachable Room.step (started 2) r →
      r.slots = List.replicate 2 (some true) → r.lobby.isPlayingGame = true := by
  intro hall
  have hrun : (run Room.step (started 2) readyTooSoon).any (fun r =>
      decide (r.slots = List.replicate 2 (some true) ∧ r.lobby.isPlayingGame = false)) =
      true := by
    decide
  obtain ⟨r, hrun, hr⟩ := (Option.any_eq_true ..).mp hrun
  obtain ⟨hslots, hplay⟩ := of_decide_eq_true hr
  exact absurd ((hall r (.of_run hrun) hslots).symm.trans hplay) (by decide)

end Room

end ConnectDisks.Net
