import ConnectDisks.Proofs.QueueOrder

/-!
# The places that are told

A player is told its place when it joins the queue, and from then on by the sweeps
that notify. In between the queue only moves up, so what a player was told last is its
place or a worse one, and what it is told next is no worse (`places_honest`).
-/

namespace ConnectDisks.Net

open ConnectDisks.Game Lib

namespace Server

/-- The queue is a standard list, whose size is a `size_t`, also with one player more. -/
def Fits (s : Server) (_ : ServerEvent) : Prop := s.playerQueue.length + 1 < 2 ^ 64

instance (s : Server) (e : ServerEvent) : Decidable (s.Fits e) := by
  unfold Fits
  infer_instance

/-- What was told never gets worse, and to a player in the queue it was never better
than the place the player has now. -/
structure Told (s : Server) : Prop where
  falling : ∀ c, (s.places c).Pairwise (· ≥ ·)
  behind : ∀ i c, s.playerQueue[i]? = some c →
    s.places c ≠ [] ∧ ∀ p ∈ s.places c, i + 1 ≤ p.toNat

theorem toNat_place {n : ℕ} (h : n < 2 ^ 64) : (UInt64.ofNat n).toNat = n := by
  rw [UInt64.toNat_ofNat']
  exact Nat.mod_eq_of_lt h

theorem pairwise_tell {places : List UInt64} {i j : ℕ} (h : places.Pairwise (· ≥ ·))
    (hall : ∀ p ∈ places, i + 1 ≤ p.toNat) (hle : j ≤ i) (hj : j + 1 < 2 ^ 64) :
    (places ++ [UInt64.ofNat (j + 1)]).Pairwise (· ≥ ·) ∧
      ∀ p ∈ places ++ [UInt64.ofNat (j + 1)], j + 1 ≤ p.toNat := by
  have hplace := toNat_place hj
  refine ⟨List.pairwise_append.mpr ⟨h, List.pairwise_singleton _ _, fun p hp q hq => ?_⟩,
    fun p hp => ?_⟩
  · rw [List.mem_singleton.mp hq, ge_iff_le, UInt64.le_iff_toNat_le, hplace]
    have := hall p hp
    omega
  · rcases List.mem_append.mp hp with hp | hp
    · have := hall p hp
      omega
    · rw [List.mem_singleton.mp hp, hplace]

theorem Told.moves {s s' : Server} {e : ServerEvent} (hl : s.InLine) (hfits : s.Fits e)
    (h : s.Told) (hm : s.QueueMoves e s') : s'.Told := by
  have hkept : ∀ {c : ConnId} {i j : ℕ}, s'.places c = s.places c → j ≤ i →
      s.playerQueue[i]? = some c → s'.places c ≠ [] ∧ ∀ p ∈ s'.places c, j + 1 ≤ p.toNat := by
    intro c i j htold hle hi
    obtain ⟨hne, hall⟩ := h.behind i c hi
    rw [htold]
    exact ⟨hne, fun p hp => by have := hall p hp; omega⟩
  have hfalling : ∀ {c : ConnId}, s'.places c = s.places c → (s'.places c).Pairwise (· ≥ ·) :=
    fun {c} htold => htold ▸ h.falling c
  cases hm with
  | stays _ hline _ htold =>
      refine ⟨fun c => hfalling (htold c), fun i c hi => ?_⟩
      rw [queue_of_line hline] at hi
      exact hkept (htold c) (Nat.le_refl i) hi
  | seated _ _ hline htold =>
      refine ⟨fun c => hfalling (htold c), fun i c hi => ?_⟩
      rw [queue_of_line hline] at hi
      exact hkept (htold c) (Nat.le_refl i) hi
  | @queued a _ hnew _ hline _ htold hothers =>
      have hnil : s.places a = [] := by
        rw [places, hl.inv.book.unborn a hnew]
        rfl
      have htell := @pairwise_tell (s.places a) s.playerQueue.length s.playerQueue.length
        (by rw [hnil]; exact .nil) (by simp [hnil]) (Nat.le_refl _) hfits
      rw [← htold] at htell
      refine ⟨fun c => ?_, fun i c hi => ?_⟩
      · by_cases hc : c = a
        · rw [hc]
          exact htell.1
        · exact hfalling (hothers c hc)
      · rw [queue_of_line hline] at hi
        rcases getElem?_concat_iff.mp hi with hi | ⟨rfl, rfl⟩
        · have hin : c ∈ s.accepted := hl.orderly.queue.subset (List.mem_of_getElem? hi)
          exact hkept (hothers c fun heq => hnew (heq ▸ hin)) (Nat.le_refl i) hi
        · exact ⟨by rw [htold]; simp, htell.2⟩
  | swept hline _ htold hothers hsilent =>
      have hsub : s.liveQueue.Sublist s.playerQueue := List.filter_sublist
      by_cases hn : s.Notifies
      · have htell : ∀ j c, s.liveQueue[j]? = some c →
            (s'.places c).Pairwise (· ≥ ·) ∧ ∀ p ∈ s'.places c, j + 1 ≤ p.toNat := by
          intro j c hj
          obtain ⟨i, hle, hi⟩ := exists_getElem?_of_sublist hsub hj
          have hlt := (List.getElem?_eq_some_iff.mp hi).1
          rw [htold hn j c hj]
          exact pairwise_tell (h.falling c) (h.behind i c hi).2 hle
            (Nat.lt_of_le_of_lt (by omega) hfits)
        refine ⟨fun c => ?_, fun j c hj => ?_⟩
        · by_cases hc : c ∈ s.liveQueue
          · obtain ⟨j, hj⟩ := List.mem_iff_getElem?.mp hc
            exact (htell j c hj).1
          · exact hfalling (hothers c hc)
        · rw [queue_of_line hline] at hj
          exact ⟨by rw [htold hn j c hj]; simp, (htell j c hj).2⟩
      · refine ⟨fun c => hfalling (hsilent hn c), fun j c hj => ?_⟩
        rw [queue_of_line hline] at hj
        obtain ⟨i, hle, hi⟩ := exists_getElem?_of_sublist hsub hj
        exact hkept (hsilent hn c) hle hi
  | filled _ hfront hline _ htold =>
      refine ⟨fun c => hfalling (htold c), fun i c hi => ?_⟩
      rw [queue_of_line hline] at hi
      exact hkept (i := i + 1) (htold c) (Nat.le_succ i) (by rw [hfront]; exact hi)

theorem new_told : new.Told :=
  ⟨fun _ => .nil, fun _ _ h => (by cases h)⟩

theorem reaches_told {s : Server} (hs : Reaches step Fits new s) : s.Told := by
  induction hs with
  | refl => exact new_told
  | step hs hfits hstep ih =>
      have hl := reachable_inLine hs.reachable
      exact ih.moves hl hfits (step_queueMoves hl.inv hstep)

theorem QueueMoves.told_few {s s' : Server} (hm : s.QueueMoves .queueTimer s')
    (hpos : 1 ≤ s'.playerQueue.length) (hfew : s'.playerQueue.length ≤ 9) {i : ℕ} {c : ConnId}
    (hi : s'.playerQueue[i]? = some c) :
    ∃ p, (s'.places c).getLast? = some p ∧ p.toNat = i + 1 := by
  cases hm with
  | stays htick _ _ _ => exact absurd rfl htick
  | filled htick _ _ _ _ => exact absurd rfl htick
  | swept hline _ htold _ _ =>
      rw [queue_of_line hline] at hpos hfew hi
      have hlt := (List.getElem?_eq_some_iff.mp hi).1
      have hn : s.Notifies := ⟨hpos, .inl (Nat.lt_succ_of_le hfew)⟩
      refine ⟨UInt64.ofNat (i + 1), ?_, toNat_place (by omega)⟩
      rw [htold hn i c hi, List.getLast?_concat]

theorem QueueMoves.placed_silent {s s' : Server} {e : ServerEvent} (hl : s.InLine)
    (hm : s.QueueMoves e s') {c : ConnId} (hc : c ∈ s'.placed) : s'.places c = s.places c := by
  cases hm with
  | stays _ _ _ htold => exact htold c
  | seated _ _ _ htold => exact htold c
  | filled _ _ _ _ htold => exact htold c
  | queued hnew _ hline _ _ hothers =>
      rw [show s'.placed = s.placed from congrArg WaitingLine.served hline] at hc
      refine hothers c ?_
      rintro rfl
      exact hnew (hl.orderly.served c hc).1
  | swept hline _ _ hothers _ =>
      rw [show s'.placed = s.placed from congrArg WaitingLine.served hline] at hc
      exact hothers c fun hin => (hl.orderly.served c hc).2 (List.mem_of_mem_filter hin)

/-- The places a player is told never get worse; while it is queued, the last of them is
no better than the place it has; a sweep that leaves between one and nine players tells
them the places they have; and a player that was placed is told no more. -/
theorem places_honest {s : Server} (hs : Reaches step Fits new s) :
    (∀ c, (s.places c).Pairwise (· ≥ ·)) ∧
    (∀ i c, s.playerQueue[i]? = some c →
      ∃ p, (s.places c).getLast? = some p ∧ i + 1 ≤ p.toNat) ∧
    (∀ s', s.step .queueTimer = some s' → 1 ≤ s'.playerQueue.length →
      s'.playerQueue.length ≤ 9 → ∀ i c, s'.playerQueue[i]? = some c →
        ∃ p, (s'.places c).getLast? = some p ∧ p.toNat = i + 1) ∧
    (∀ e s', s.step e = some s' → ∀ c ∈ s'.placed, s'.places c = s.places c) := by
  have hl := reachable_inLine hs.reachable
  have htold := reaches_told hs
  refine ⟨htold.falling, fun i c hi => ?_, fun s' hstep hpos hfew i c hi => ?_,
    fun e s' hstep c hc => (step_queueMoves hl.inv hstep).placed_silent hl hc⟩
  · obtain ⟨hne, hall⟩ := htold.behind i c hi
    exact ⟨_, List.getLast?_eq_some_getLast hne, hall _ (List.getLast_mem hne)⟩
  · exact (step_queueMoves hl.inv hstep).told_few hpos hfew hi

/-- The second player of the queue moves up, and hears of it at the next sweep. -/
theorem places_honest_vacancy :
    ∃ s s', run step new (nineArrivals ++ [.accept false, .read 0 (.failed .eof) 0]) = some s ∧
      s.step .queueTimer = some s' ∧ s.places 9 = [2] ∧ s'.places 9 = [2, 1] ∧
      (∃ p, (s.places 9).getLast? = some p ∧ 0 + 1 ≤ p.toNat) ∧
      ∃ p, (s'.places 9).getLast? = some p ∧ p.toNat = 0 + 1 := by
  have hrun : (run step new (nineArrivals ++ [.accept false, .read 0 (.failed .eof) 0])).any
      (fun s => (s.step .queueTimer).any fun s' =>
        decide (s.places 9 = [2] ∧ s'.places 9 = [2, 1] ∧ s.playerQueue = [9] ∧
          s'.playerQueue = [9])) = true := by
    decide +kernel
  obtain ⟨s, hrun, hs⟩ := (Option.any_eq_true ..).mp hrun
  obtain ⟨s', hstep, hs'⟩ := (Option.any_eq_true ..).mp hs
  obtain ⟨htold, htold', hq, hq'⟩ := of_decide_eq_true hs'
  have hfits : Meets step Fits new (nineArrivals ++ [.accept false, .read 0 (.failed .eof) 0]) := by
    decide +kernel
  obtain ⟨_, hlast, hfew, _⟩ := places_honest (.run .refl hfits hrun)
  refine ⟨s, s', hrun, hstep, htold, htold', hlast 0 9 (by rw [hq]; rfl), ?_⟩
  exact hfew s' hstep (by rw [hq']; decide) (by rw [hq']; decide) 0 9 (by rw [hq']; rfl)

end Server

end ConnectDisks.Net
