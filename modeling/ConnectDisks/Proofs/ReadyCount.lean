import ConnectDisks.Proofs.RoomStep

/-!
# How many players are ready

The lobby counts ready messages; what the count stands for is the number of
occupants whose `isReady` holds. This module says what each method does to that
number, without looking at the counter. Comparing the two is left to the modules
about the start of a game.
-/

namespace ConnectDisks.Net

open ConnectDisks.Game Lib

namespace Connection

@[simp] theorem sendMessage_isReady (c : Connection) (m : Message) :
    (c.sendMessage m).isReady = c.isReady := by
  rw [sendMessage]
  split <;> rfl

@[simp] theorem onGameStart_isReady (c : Connection) (n : UInt8) (game : ValidGame) :
    (c.onGameStart n game).isReady = c.isReady :=
  sendMessage_isReady c _

@[simp] theorem onGameEnd_isReady (c : Connection) (winner : UInt8) :
    (c.onGameEnd winner).isReady = false :=
  sendMessage_isReady _ _

@[simp] theorem onTurn_isReady (c : Connection) (playerId : UInt8) :
    (c.onTurn playerId).isReady = c.isReady := by
  rw [onTurn]
  split
  · exact sendMessage_isReady c _
  · rfl

@[simp] theorem onUpdate_isReady (c : Connection) (playerId col : UInt8)
    (result : TurnResult) : (c.onUpdate playerId col result).isReady = c.isReady := by
  rw [onUpdate]
  split
  · split
    · exact sendMessage_isReady c _
    · rfl
  · exact sendMessage_isReady c _

end Connection

namespace Room

def readyCount (r : Room) : Nat :=
  r.lobby.players.countP fun slot => slot.any fun c => (r.conns c).isReady

theorem readyCount_le_length (r : Room) : r.readyCount ≤ r.lobby.players.length :=
  List.countP_le_length

theorem mem_players_iff {r : Room} {c : ConnId} :
    some c ∈ r.lobby.players ↔ ∃ i, r.Seated i c :=
  List.mem_iff_getElem?

/-- Only the occupants' readiness matters. -/
theorem readyCount_mono {r r' : Room} (hp : r'.lobby.players = r.lobby.players)
    (hc : ∀ i c, r.Seated i c → (r.conns c).isReady = true → (r'.conns c).isReady = true) :
    r.readyCount ≤ r'.readyCount := by
  rw [readyCount, readyCount, hp]
  refine List.countP_mono_left fun slot hslot hr => ?_
  cases slot with
  | none => cases hr
  | some c =>
      obtain ⟨i, hi⟩ := mem_players_iff.mp hslot
      exact hc i c hi hr

theorem readyCount_congr {r r' : Room} (hp : r'.lobby.players = r.lobby.players)
    (hc : ∀ i c, r.Seated i c → (r'.conns c).isReady = (r.conns c).isReady) :
    r'.readyCount = r.readyCount := by
  refine Nat.le_antisymm (readyCount_mono hp.symm fun i c hi hr => ?_)
    (readyCount_mono hp fun i c hi hr => ?_)
  · rw [Seated, hp] at hi
    rwa [hc i c hi] at hr
  · rwa [hc i c hi]

/-- With every slot counted, every slot is occupied and its occupant ready. -/
theorem slots_of_readyCount {r : Room} (h : r.lobby.players.length ≤ r.readyCount) :
    r.slots = List.replicate r.lobby.players.length (some true) := by
  have heq := List.countP_eq_length.mp (Nat.le_antisymm (readyCount_le_length r) h)
  rw [slots, List.eq_replicate_iff, List.length_map]
  refine ⟨rfl, ?_⟩
  intro b hb
  obtain ⟨slot, hslot, rfl⟩ := List.mem_map.mp hb
  have := heq slot hslot
  cases slot with
  | none => cases this
  | some c => exact congrArg some this

theorem readyCount_of_slots {r : Room}
    (h : r.slots = List.replicate r.lobby.players.length (some true)) :
    r.readyCount = r.lobby.players.length := by
  rw [slots, List.eq_replicate_iff] at h
  refine List.countP_eq_length.mpr fun slot hslot => ?_
  have := h.2 _ (List.mem_map_of_mem hslot)
  cases slot with
  | none => cases this
  | some c => exact Option.some.inj this

/-! ## The signals -/

theorem emit_isReady (r : Room) (e : Emission) {f : Connection → Connection}
    (hf : ∀ c, (f c).isReady = c.isReady) (c : ConnId) :
    ((r.emit e f).conns c).isReady = (r.conns c).isReady :=
  broadcast_keeps Connection.isReady hf r.lobby.handlers r.conns c

theorem tookTurn_readyCount (r : Room) (playerId column : UInt8) (result : TurnResult) :
    (r.tookTurn playerId column result).readyCount = r.readyCount :=
  readyCount_congr rfl fun _ c _ =>
    r.emit_isReady _ (fun d => d.onUpdate_isReady playerId column result) c

theorem takeTurn_readyCount (r : Room) (playerId : UInt8) :
    (r.takeTurn playerId).readyCount = r.readyCount :=
  readyCount_congr rfl fun _ c _ => r.emit_isReady _ (fun d => d.onTurn_isReady playerId) c

theorem gameOver_isReady {r : Room} (h : r.Seats) (winner : UInt8) {i : Nat} {c : ConnId}
    (hc : r.Seated i c) : ((r.gameOver winner).conns c).isReady = false := by
  rw [gameOver_conns, broadcast_of_mem h.nodup (h.seated i c hc).1]
  exact Connection.onGameEnd_isReady _ _

theorem gameOver_readyCount {r : Room} (h : r.Seats) (winner : UInt8) :
    (r.gameOver winner).readyCount = 0 := by
  refine List.countP_eq_zero.mpr fun slot hslot hr => ?_
  cases slot with
  | none => cases hr
  | some c =>
      obtain ⟨i, hi⟩ := mem_players_iff.mp hslot
      have hnot := gameOver_isReady h winner hi
      exact absurd (hnot.symm.trans hr) (by decide)

/-! ## Changes of one slot -/

theorem vacated_readyCount {r : Room} {i : Nat} {c : ConnId} (hc : r.Seated i c) :
    r.readyCount = (r.vacated c i).readyCount + (if (r.conns c).isReady then 1 else 0) := by
  have hlt := Seats.seated_lt hc
  have hget : r.lobby.players[i] = some c := by
    rw [Seated, List.getElem?_eq_getElem hlt] at hc
    exact Option.some.inj hc
  have hset := List.countP_set (p := fun slot => slot.any fun c => (r.conns c).isReady)
    (a := none) hlt
  rw [hget] at hset
  simp only [readyCount, vacated, hset, Option.any_some, Option.any_none,
    Bool.false_eq_true, if_false, Nat.add_zero]
  split
  · next hr =>
      have hpos : 0 < r.lobby.players.countP fun slot => slot.any fun c =>
          (r.conns c).isReady :=
        List.countP_pos_iff.mpr ⟨some c, List.mem_of_getElem? hc, hr⟩
      omega
  · rfl

theorem vacated_modify_readyCount {r : Room} (h : r.Seats) {i : Nat} {c : ConnId}
    (hc : r.Seated i c) (f : Connection → Connection) :
    ((r.modify c f).vacated c i).readyCount = (r.vacated c i).readyCount := by
  refine readyCount_congr rfl fun j d hd => ?_
  have hne : d ≠ c := by
    rintro rfl
    simp only [Seated, vacated, List.getElem?_set] at hd
    split at hd
    · split at hd <;> cases hd
    · next hij => exact hij ((h.seated_inj hc hd).mp rfl)
  rw [vacated_conns, vacated_conns, modify_conns_of_ne r hne]

theorem modify_readyCount_of_not_seated {r : Room} {c : ConnId} (hc : ∀ i, ¬ r.Seated i c)
    (f : Connection → Connection) : (r.modify c f).readyCount = r.readyCount := by
  refine readyCount_congr rfl fun i d hd => ?_
  have hne : d ≠ c := fun heq => hc i (heq ▸ hd)
  rw [modify_conns_of_ne r hne]

theorem modify_readyCount_of_notMem {r : Room} (h : r.Seats) {c : ConnId}
    (hc : c ∉ r.lobby.handlers) (f : Connection → Connection) :
    (r.modify c f).readyCount = r.readyCount :=
  modify_readyCount_of_not_seated (fun i hi => hc (h.seated i c hi).1) f

theorem modify_readyCount_of_eq {r : Room} {c : ConnId} {conn : Connection}
    (hc : conn.isReady = (r.conns c).isReady) :
    (r.modify c fun _ => conn).readyCount = r.readyCount := by
  refine readyCount_congr rfl fun i d _ => ?_
  by_cases hd : d = c
  · rw [hd, modify_conns_self, hc]
  · rw [modify_conns_of_ne r hd]

theorem modify_readyCount_of_ready {r : Room} (h : r.Seats) {i : Nat} {c : ConnId}
    (hc : r.Seated i c) (hnot : (r.conns c).isReady = false) {conn : Connection}
    (hr : conn.isReady = true) :
    (r.modify c fun _ => conn).readyCount = r.readyCount + 1 := by
  have hc' : (r.modify c fun _ => conn).Seated i c := hc
  rw [vacated_readyCount hc, vacated_readyCount hc', vacated_modify_readyCount h hc,
    modify_conns_self, hr, hnot]
  rfl

theorem le_modify_readyCount {r : Room} {c : ConnId} {conn : Connection}
    (hr : conn.isReady = true) : r.readyCount ≤ (r.modify c fun _ => conn).readyCount := by
  refine readyCount_mono rfl fun i d _ hd => ?_
  by_cases hdc : d = c
  · rw [hdc, modify_conns_self, hr]
  · rwa [modify_conns_of_ne r hdc]

theorem admitted_readyCount {r : Room} (h : r.Seats) {c : ConnId} (hjoin : r.Joinable c)
    {i : Nat} (hnull : r.lobby.players[i]? = some none) (hlt : i < r.lobby.players.length) :
    (r.admitted c i).readyCount =
      r.readyCount + (if (r.conns c).isReady then 1 else 0) := by
  have hnot : c ∉ r.lobby.handlers := fun hc => h.not_joinable hc hjoin
  have hready : ((r.admitted c i).conns c).isReady = (r.conns c).isReady := by
    rw [admitted_conns_self hjoin]
    rfl
  have hget : r.lobby.players[i] = none := by
    rw [List.getElem?_eq_getElem hlt] at hnull
    exact Option.some.inj hnull
  have hold : r.lobby.players.countP
      (fun slot => slot.any fun d => ((r.admitted c i).conns d).isReady) = r.readyCount := by
    refine List.countP_congr fun slot hslot => ?_
    cases slot with
    | none => rfl
    | some d =>
        obtain ⟨j, hj⟩ := mem_players_iff.mp hslot
        have hne : d ≠ c := fun heq => hnot (heq ▸ (h.seated j d hj).1)
        rw [Option.any_some, Option.any_some, admitted_conns_of_ne r hne]
  have hset := List.countP_set
    (p := fun slot => slot.any fun d => ((r.admitted c i).conns d).isReady)
    (a := some c) hlt
  rw [hget, hold] at hset
  rw [readyCount, show (r.admitted c i).lobby.players = r.lobby.players.set i (some c) from rfl,
    hset, Option.any_some, hready]
  simp

end Room

end ConnectDisks.Net
