import ConnectDisks.Proofs.Placement

/-!
# Failed accepts

The server keeps one accept outstanding by starting the next one in the handler of the
last. On an error the handler returns before that. So the first accept that fails is
the last: everything else goes on as before, and nobody is accepted any more.

That nothing else is lost is the frame of this argument. No method but
`waitForConnections` touches the outstanding accepts, so two servers that differ only
there stay alike as long as no accept completes (`step_withAccepting`).
-/

namespace ConnectDisks.Net

open ConnectDisks.Game Lib

namespace Server

def withAccepting (s : Server) (accepting : List ConnId) : Server :=
  { s with accepting := accepting }

@[simp] theorem withAccepting_accepting (s : Server) (a : List ConnId) :
    (s.withAccepting a).accepting = a := rfl

@[simp] theorem withAccepting_conns (s : Server) (a : List ConnId) :
    (s.withAccepting a).conns = s.conns := rfl

/-! ## Two servers that differ there -/

theorem addPlayer_withAccepting (s : Server) (a : List ConnId) (l : LobbyId) (c : ConnId) :
    (s.withAccepting a).addPlayer l c = (s.addPlayer l c).withAccepting a := by
  rw [addPlayer, addPlayer, show (s.withAccepting a).lobbies = s.lobbies from rfl]
  cases s.lobbies[l]? with
  | none => rfl
  | some lobby => rfl

theorem onLobbyAvailable_withAccepting (s : Server) (a : List ConnId) (l : LobbyId) :
    (s.withAccepting a).onLobbyAvailable l = (s.onLobbyAvailable l).withAccepting a := by
  rw [onLobbyAvailable, onLobbyAvailable,
    show (s.withAccepting a).playerQueue = s.playerQueue from rfl]
  cases s.playerQueue with
  | nil => rfl
  | cons player rest =>
      simp only
      rw [addPlayer_withAccepting]
      rfl

theorem handle_withAccepting (s : Server) (a : List ConnId) (l : LobbyId) (c : ConnId)
    (first : UInt8) (signal : Signal) :
    (s.withAccepting a).handle l c first signal =
      (s.handle l c first signal).withAccepting a := by
  rw [handle, handle, show (s.withAccepting a).lobbies = s.lobbies from rfl]
  cases s.lobbies[l]? with
  | none => rfl
  | some lobby =>
      simp only [show (s.withAccepting a).room lobby = s.room lobby from rfl]
      split
      · exact onLobbyAvailable_withAccepting (s.putRoom l _) a l
      · rfl

theorem dispatch_withAccepting (s : Server) (a : List ConnId) (c : ConnId) (first : UInt8)
    (signal : Option Signal) :
    (s.withAccepting a).dispatch c first signal =
      (s.dispatch c first signal).withAccepting a := by
  cases signal with
  | none => rfl
  | some signal =>
      rw [dispatch, dispatch, withAccepting_conns]
      generalize (s.conns c).handlers = ls
      induction ls generalizing s with
      | nil => rfl
      | cons l ls ih =>
          rw [List.foldl_cons, List.foldl_cons, handle_withAccepting, ih]

theorem complete_withAccepting (s : Server) (a : List ConnId) (c : ConnId)
    (outcome : Connection × Option Signal) (first : UInt8) :
    (s.withAccepting a).complete c outcome first =
      (s.complete c outcome first).withAccepting a :=
  dispatch_withAccepting (s.modify c fun _ => outcome.1) a c first outcome.2

theorem step_withAccepting (s : Server) (a : List ConnId) {e : ServerEvent}
    (he : ∀ failed, e ≠ .accept failed) :
    (s.withAccepting a).step e = (s.step e).map (·.withAccepting a) := by
  cases e with
  | accept failed => exact absurd rfl (he failed)
  | read c result first =>
      rw [step, step, withAccepting_conns]
      split
      · exact congrArg some (complete_withAccepting s a c _ first)
      · rfl
  | pingTimer c error =>
      rw [step, step, withAccepting_conns]
      split
      · exact congrArg some (complete_withAccepting s a c _ 0)
      · rfl
  | queueTimer =>
      rw [step, step, show (s.withAccepting a).timers = s.timers from rfl]
      split <;> rfl

theorem step_accepting {s s' : Server} {e : ServerEvent} (he : ∀ failed, e ≠ .accept failed)
    (hs : s.step e = some s') : s'.accepting = s.accepting := by
  have hsame : s.step e = (s.step e).map (·.withAccepting s.accepting) :=
    step_withAccepting s s.accepting he
  rw [hs] at hsame
  have heq : s' = s'.withAccepting s.accepting := Option.some.inj hsame
  rw [heq, withAccepting_accepting]

theorem run_withAccepting {s s' : Server} (a : List ConnId) {es : List ServerEvent}
    (hes : ∀ failed, .accept failed ∉ es) (hrun : run step (s.withAccepting a) es = some s') :
    ∃ t, run step s es = some t ∧ t.accepting = s.accepting ∧ s' = t.withAccepting a := by
  induction es generalizing s with
  | nil => exact ⟨s, rfl, rfl, (Option.some.inj hrun).symm⟩
  | cons e es ih =>
      have he : ∀ failed, e ≠ .accept failed := by
        rintro failed rfl
        exact hes failed List.mem_cons_self
      obtain ⟨mid, hmid, hrest⟩ := Option.bind_eq_some_iff.mp hrun
      rw [step_withAccepting s a he] at hmid
      obtain ⟨mid, hstep, rfl⟩ := Option.map_eq_some_iff.mp hmid
      obtain ⟨t, ht, hacc, heq⟩ := ih (fun failed h => hes failed (List.mem_cons_of_mem e h)) hrest
      refine ⟨t, ?_, hacc.trans (step_accepting he hstep), heq⟩
      rw [run, hstep]
      exact ht

/-- Where no accept is outstanding, none completes and none is started. -/
theorem run_no_accepts {s s' : Server} {es : List ServerEvent} (h : s.accepting = [])
    (hrun : run step s es = some s') : ∀ failed, .accept failed ∉ es := by
  induction es generalizing s with
  | nil => exact fun _ hin => by cases hin
  | cons e es ih =>
      obtain ⟨mid, hmid, hrest⟩ := Option.bind_eq_some_iff.mp hrun
      have he : ∀ failed, e ≠ .accept failed := by
        rintro failed rfl
        rw [step, h] at hmid
        cases hmid
      intro failed hin
      rcases List.mem_cons.mp hin with heq | hin
      · exact he failed heq.symm
      · exact ih ((step_accepting he hmid).trans h) hrest failed hin

/-! ## The accept loop -/

theorem onConnectionAccepted_accepting (s : Server) (c : ConnId) :
    (s.onConnectionAccepted c false).accepting = s.accepting ++ [s.created] := by
  have hadd : ∀ (q : Server) (l : LobbyId), (q.addPlayer l c).accepting = q.accepting ∧
      (q.addPlayer l c).created = q.created := by
    intro q l
    rw [addPlayer]
    split <;> exact ⟨rfl, rfl⟩
  have hwait : ∀ q : Server, q.accepting = s.accepting ∧ q.created = s.created →
      q.waitForConnections.accepting = s.accepting ++ [s.created] := by
    rintro q ⟨hacc, hcreated⟩
    rw [waitForConnections, hacc, hcreated]
  rcases onConnectionAccepted_cases s c with
    ⟨l, _, _, _, heq⟩ | ⟨_, _, heq⟩ | ⟨_, _, heq⟩ <;> rw [heq]
  · exact hwait _ (hadd (s.welcomed c) l)
  · exact hwait _ (hadd (s.welcomed c).makeNewLobby.1 s.lobbies.length)
  · exact hwait _ ⟨rfl, rfl⟩

def withoutFailed (es : List ServerEvent) : List ServerEvent :=
  es.filter fun e => decide (e ≠ .accept true)

theorem withoutFailed_of_notMem {es : List ServerEvent} (h : .accept true ∉ es) :
    withoutFailed es = es := by
  refine List.filter_eq_self.mpr fun e he => decide_eq_true ?_
  rintro rfl
  exact h he

/-- A run and the same run without the accepts that failed: they lead to the same
server, but for the accept that is outstanding. -/
theorem run_withoutFailed {s s' : Server} {es : List ServerEvent}
    (h : s.accepting.length = 1) (hrun : run step s es = some s') :
    ∃ t, run step s (withoutFailed es) = some t ∧ t.accepting.length = 1 ∧
      s' = if .accept true ∈ es then t.withAccepting [] else t := by
  induction es generalizing s with
  | nil =>
      obtain rfl := Option.some.inj hrun
      exact ⟨s, rfl, h, rfl⟩
  | cons e es ih =>
      obtain ⟨mid, hmid, hrest⟩ := Option.bind_eq_some_iff.mp hrun
      obtain ⟨c, hc⟩ := List.length_eq_one_iff.mp h
      by_cases he : e = .accept true
      · subst he
        rw [step, hc] at hmid
        obtain rfl := Option.some.inj hmid
        have hnone := run_no_accepts rfl hrest
        obtain ⟨t, ht, hacc, heq⟩ := run_withAccepting (s := s) [] hnone hrest
        refine ⟨t, ?_, hacc ▸ h, by rw [if_pos List.mem_cons_self]; exact heq⟩
        rw [withoutFailed, List.filter_cons_of_neg (by simp)]
        show run step s (withoutFailed es) = some t
        rw [withoutFailed_of_notMem (hnone true)]
        exact ht
      · have hmid' : mid.accepting.length = 1 := by
          cases e with
          | accept failed =>
              obtain rfl : failed = false := by
                cases failed with
                | false => rfl
                | true => exact absurd rfl he
              rw [step, hc] at hmid
              rw [← Option.some.inj hmid, onConnectionAccepted_accepting]
              rfl
          | _ => rw [step_accepting (by simp) hmid, h]
        obtain ⟨t, ht, hlen, heq⟩ := ih hmid' hrest
        refine ⟨t, ?_, hlen, ?_⟩
        · rw [withoutFailed, List.filter_cons_of_pos (by simpa using he), run, hmid]
          exact ht
        · rw [heq]
          simp [Ne.symm he]

/-- The failed accepts of a run did no harm: without them it would have led to the same
lobbies, the same queue and the same outstanding accept, which is one. -/
def Harmless (es : List ServerEvent) (s : Server) : Prop :=
  (∃ t, run step new (withoutFailed es) = some t ∧ t.lobbies = s.lobbies ∧
    t.playerQueue = s.playerQueue ∧ t.accepting = s.accepting) ∧ s.accepting.length = 1

/-- They do no harm exactly when there are none. -/
theorem harmless_iff {es : List ServerEvent} {s : Server} (hrun : run step new es = some s) :
    Harmless es s ↔ .accept true ∉ es := by
  obtain ⟨t, ht, hlen, heq⟩ := run_withoutFailed rfl hrun
  constructor
  · rintro ⟨_, hone⟩ hin
    rw [heq, if_pos hin] at hone
    cases hone
  · intro hnot
    rw [if_neg hnot] at heq
    subst heq
    exact ⟨⟨s, ht, rfl, rfl, rfl⟩, hlen⟩

theorem harmless_iff_nine :
    ∃ s, run step new nineArrivals = some s ∧
      (Harmless nineArrivals s ↔ .accept true ∉ nineArrivals) := by
  have hrun : (run step new nineArrivals).isSome = true := by
    decide +kernel
  obtain ⟨s, hrun⟩ := Option.isSome_iff_exists.mp hrun
  exact ⟨s, hrun, harmless_iff hrun⟩

/-- One accept that fails, and the server accepts nobody any more. -/
theorem harmless_failed :
    ¬ ∀ es s, run step new es = some s → Harmless es s := by
  intro hall
  have hrun : run step new [.accept true] = some { new with accepting := [] } := rfl
  obtain ⟨_, hone⟩ := hall _ _ hrun
  cases hone

end Server

end ConnectDisks.Net
