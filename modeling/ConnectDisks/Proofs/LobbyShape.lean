import ConnectDisks.Proofs.LobbyFrame
import ConnectDisks.Proofs.Readiness

/-!
# The shape of a lobby

What the representation invariant says in the lobby's own terms, for every state of
every run: the counter, the slots, the ids and the game agree with one another.
And because ids and slots agree, `onDisconnect`, which looks for an id, empties the
slot of the very connection that left and of no other.
-/

namespace ConnectDisks.Net

open ConnectDisks.Game Lib

namespace Room

/-- The lobby between two events. -/
structure Shape (r : Room) : Prop where
  length : r.lobby.players.length = r.lobby.maxPlayers.toNat
  count : r.lobby.numPlayers.toNat = r.lobby.players.countP Option.isSome
  atMost : r.lobby.numPlayers ≤ r.lobby.maxPlayers
  ids : ∀ i c, r.Seated i c → (r.conns c).getId.toNat = i + 1
  distinct : ∀ i j c d, r.Seated i c → r.Seated j d →
    (r.conns c).getId = (r.conns d).getId → i = j ∧ c = d
  inside : r.lobby.canAddPlayers = true →
    r.lobby.getFirstAvailableId.toNat < r.lobby.players.length
  defined : r.lobby.undefined = false
  game : r.lobby.game.isSome = true ↔ r.lobby.isPlayingGame = true
  full : r.lobby.isPlayingGame = true → ∀ i < r.lobby.maxPlayers.toNat, ∃ c, r.Seated i c
  running : ∀ game, r.lobby.game = some game → game.hasWinner = false ∧ game.boardFull = false

theorem Inv.shape {r : Room} (h : r.Inv) : r.Shape := by
  refine ⟨h.seats.length, h.seats.count, ?_, fun i c hc => (h.seats.seated i c hc).2, ?_, ?_,
    h.playing.defined, by rw [h.playing.playing], fun hplay => ?_, fun game hgame => ?_⟩
  · rw [UInt8.le_iff_toNat_le, h.seats.count, ← h.seats.length]
    exact List.countP_le_length
  · intro i j c d hc hd hid
    exact ⟨(h.seats.seated_inj hc hd).mp hid, h.seats.occupant_inj hc hd hid⟩
  · intro hcan
    obtain ⟨_, _, hfull⟩ := canAddPlayers_iff.mp hcan
    obtain ⟨i, _, hid, hlt⟩ := h.seats.getFirstAvailableId hfull
    have hle := h.seats.maxPlayers_le
    rw [hid, UInt8.toNat_ofNat_of_lt' (show i < 256 by omega)]
    exact hlt
  · rw [← h.seats.length]
    exact h.seats.isFull_iff.mp (h.playing.full hplay)
  · exact ⟨(h.playing.running game hgame).1, (h.playing.running game hgame).2.1⟩

/-! ## A connection of the lobby is dropped -/

/-- When a player leaves and the slot is filled, nobody else dies. -/
theorem dropped_isAlive_eq (r : Room) (c : ConnId) (conn : Connection) (i : Nat)
    (refill : Option ConnId) (d : ConnId) :
    (((((r.modify c fun _ => conn.dropped).vacated c i).ended).onLobbyAvailable
      refill).conns d).isAlive = ((r.modify c fun _ => conn.dropped).conns d).isAlive := by
  rw [lobbyKeeps_isAlive.refilled]
  exact congrArg (fun p => p.2.2.2) ((left_within (r.modify c fun _ => conn.dropped) c i).seat d)

/-- The only event in which a connection of the lobby dies is the one that takes it
out of its slot. -/
theorem Moves.drops {r r' : Room} {e : RoomEvent} (hm : r.Moves e r') {c : ConnId}
    (hc : c ∈ r.lobby.handlers) (halive : (r.conns c).isAlive = true)
    (hdead : (r'.conns c).isAlive = false) :
    ∃ i conn refill, r.Seated i c ∧ (r.conns c).Idles conn ∧
      (∀ d ∈ refill, r.Joinable d) ∧ e.message? = none ∧
      r' = (((r.modify c fun _ => conn.dropped).vacated c i).ended).onLobbyAvailable refill := by
  have hkept : ∀ {d : ConnId} {conn : Connection}, conn.isAlive = (r.conns d).isAlive →
      ((r.modify d fun _ => conn).conns c).isAlive = true := by
    intro d conn hconn
    by_cases hcd : c = d
    · rw [hcd, modify_conns_self, hconn, ← hcd, halive]
    · rw [modify_conns_of_ne r hcd, halive]
  have habsurd : ∀ {p : Prop}, (r'.conns c).isAlive = true → p := fun h =>
    absurd (h.symm.trans hdead) (by decide)
  cases hm with
  | idle hi _ _ => exact habsurd (hkept hi.isAlive)
  | @outside e d conn hd _ _ _ =>
      have hne : c ≠ d := fun heq => hd (heq ▸ hc)
      refine habsurd ?_
      rw [modify_conns_of_ne r hne, halive]
  | join _ =>
      refine habsurd ?_
      rw [lobbyKeeps_isAlive.addPlayer, halive]
  | @ready d m first refill conn _ hi _ _ =>
      refine habsurd ?_
      rw [lobbyKeeps_isAlive.onReady]
      exact @hkept d conn.readied hi.isAlive
  | @turn d m first refill conn _ hi _ _ _ =>
      refine habsurd ?_
      rw [lobbyKeeps_isAlive.onTakeTurn]
      exact hkept hi.isAlive
  | @drop e d conn i refill hd _ hi hjoin hsilent _ =>
      by_cases hcd : c = d
      · subst hcd
        exact ⟨i, conn, refill, hd, hi, hjoin, hsilent, rfl⟩
      · refine habsurd ?_
        rw [dropped_isAlive_eq, modify_conns_of_ne r hcd]
        exact halive

theorem onLobbyAvailable_seated {r : Room} (h : r.Seats) {refill : Option ConnId} {j : Nat}
    {d : ConnId} (hd : r.Seated j d) : (r.onLobbyAvailable refill).Seated j d := by
  rcases onLobbyAvailable_cases h refill with heq | ⟨a, i, _, hnull, hlt, heq⟩ <;> rw [heq]
  · exact hd
  · refine (admitted_seated a hlt).mpr (.inr ⟨?_, hd⟩)
    rintro rfl
    rw [Seated, hnull] at hd
    cases hd

theorem seated_of_onLobbyAvailable {r : Room} (h : r.Seats) {refill : Option ConnId}
    {j : Nat} {d : ConnId} (hd : (r.onLobbyAvailable refill).Seated j d) :
    r.Seated j d ∨ refill = some d := by
  rcases onLobbyAvailable_cases h refill with heq | ⟨a, i, hrefill, _, hlt, heq⟩ <;> rw [heq] at hd
  · exact .inl hd
  · rcases (admitted_seated a hlt).mp hd with ⟨_, rfl⟩ | ⟨_, hd⟩
    · exact .inr hrefill
    · exact .inl hd

/-- The step in which a connection of the lobby is dropped: it had a slot, the slot
is taken from it, and everybody else keeps theirs. -/
def LeavesOwnSlot (r r' : Room) : Prop :=
  ∀ c ∈ r.lobby.handlers, (r.conns c).isAlive = true → (r'.conns c).isAlive = false →
    (∃ i, r.Seated i c) ∧ (∀ j, ¬ r'.Seated j c) ∧
      ∀ j d, d ≠ c → r.Seated j d → r'.Seated j d

theorem Moves.leavesOwnSlot {r r' : Room} {e : RoomEvent} (h : r.Inv) (hm : r.Moves e r') :
    r.LeavesOwnSlot r' := by
  intro c hc halive hdead
  obtain ⟨i, conn, refill, hi, hidles, hjoin, _, rfl⟩ := hm.drops hc halive hdead
  have hlt := Seats.seated_lt hi
  have hinv := h.dropped hi hidles
  have hplayers : ∀ j d, (((r.modify c fun _ => conn.dropped).vacated c i).ended).Seated j d ↔
      j ≠ i ∧ r.Seated j d := by
    intro j d
    rw [Seated, left_players]
    exact vacated_seated (r := r) c hlt
  refine ⟨⟨i, hi⟩, fun j hj => ?_, fun j d hne hd => ?_⟩
  · rcases seated_of_onLobbyAvailable hinv.seats hj with hj | rfl
    · obtain ⟨hji, hj⟩ := (hplayers j c).mp hj
      exact hji ((h.seats.seated_inj hj hi).mp rfl)
    · exact h.seats.not_joinable hc (hjoin c rfl)
  · refine onLobbyAvailable_seated hinv.seats ((hplayers j d).mpr ⟨?_, hd⟩)
    rintro rfl
    exact hne (Option.some.inj (Option.some.inj (hd.symm.trans hi)))

/-- The representation invariant, in every state of every run; and what each step
does to the slots when it drops a connection. -/
theorem lobby_shape {maxPlayers : UInt8} {r : Room}
    (hr : Reachable Room.step (started maxPlayers) r) :
    r.Shape ∧ r.lobby.maxPlayers = maxPlayers ∧
      (∀ i c, r.Seated i c →
        (r.onDisconnect c).1.lobby.players = r.lobby.players.set i none) ∧
      ∀ e r', r.step e = some r' → r.LeavesOwnSlot r' := by
  have hinv := reachable_inv hr
  refine ⟨hinv.shape, reachable_maxPlayers hr, fun i c hc => ?_, fun e r' hs => ?_⟩
  · rw [onDisconnect_eq hinv hc]
    exact left_players r c i
  · exact (step_moves hinv hs).leavesOwnSlot hinv

/-- A game that its first player leaves; a third client gets the slot. -/
def refilled : List RoomEvent :=
  bothReady ++ [.accept 2, .read 0 (.failed .eof) 1 (some 2)]

/-- The third client plays the game that starts after the first one left, with the
id the first one had. -/
def replaced : List RoomEvent :=
  refilled ++ [readies 2 1, readies 1 2]

theorem lobby_shape_refilled :
    ∃ r, run Room.step (started 2) refilled = some r ∧
      r.lobby.players = [some 2, some 1] ∧ r.Shape ∧
      ∀ e r', r.step e = some r' → r.LeavesOwnSlot r' := by
  have hplayers : (run Room.step (started 2) refilled).any (fun r =>
      decide (r.lobby.players = [some 2, some 1])) = true := by
    decide
  obtain ⟨r, hrun, hr⟩ := (Option.any_eq_true ..).mp hplayers
  obtain ⟨hshape, _, _, hleaves⟩ := lobby_shape (.of_run hrun)
  exact ⟨r, hrun, of_decide_eq_true hr, hshape, hleaves⟩

end Room

end ConnectDisks.Net
