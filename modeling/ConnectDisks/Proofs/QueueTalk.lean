import Mathlib.Data.List.ReduceOption
import ConnectDisks.Proofs.TwinStep
import ConnectDisks.Server.Twins

/-!
# What is said in the queue

A connection has the id 0 until it gets a lobby, and `onReadSocket` asks only that the id
in a `ready` is the connection's own. So a client that waits in the queue can say that it
is ready, with the id 0, and is taken at its word: no lobby counts it, but the connection
keeps the readiness and brings it along when it gets a slot. The lobby then has an occupant
that is ready and was never counted, and counts it out when it leaves.

That is all that gets through. Everything else a client says in the queue is forgotten. So
two runs that differ in what one client says there show the same lobbies exactly if the
client was not made ready by it, or would have been ready anyway, by the time it got its
slot.
-/

namespace ConnectDisks.Net

open ConnectDisks.Game Lib

namespace Server

/-! ## What can be seen of a lobby -/

/-- The slots of a lobby, its ready counter, which of its occupants are ready, and
its game. -/
structure Face where
  players : List (Option ConnId)
  numReady : UInt8
  ready : List ConnId
  isPlayingGame : Bool
  game : Option ValidGame
deriving DecidableEq

def face (s : Server) (lobby : GameLobby) : Face where
  players := lobby.players
  numReady := lobby.numReady
  ready := lobby.players.reduceOption.filter fun c => (s.conns c).isReady
  isPlayingGame := lobby.isPlayingGame
  game := lobby.game

def faces (s : Server) : List Face := s.lobbies.map s.face

theorem faces_modify {s : Server} {q : ConnId} {f : Connection → Connection}
    (h : ∀ lobby ∈ s.lobbies, some q ∈ lobby.players →
      (f (s.conns q)).isReady = (s.conns q).isReady) : (s.modify q f).faces = s.faces := by
  refine List.map_congr_left fun lobby hin => ?_
  have hready : ∀ c ∈ lobby.players.reduceOption,
      ((s.modify q f).conns c).isReady = (s.conns c).isReady := by
    intro c hc
    by_cases hcq : c = q
    · subst hcq
      rw [modify_conns_self]
      exact h lobby hin (List.reduceOption_mem_iff.mp hc)
    · rw [modify_conns_of_ne s hcq]
  rw [face, face, List.filter_congr hready]

theorem isReady_of_faces {s : Server} {q : ConnId} {f : Connection → Connection}
    (h : (s.modify q f).faces = s.faces) {lobby : GameLobby} (hin : lobby ∈ s.lobbies)
    (hslot : some q ∈ lobby.players) : (f (s.conns q)).isReady = (s.conns q).isReady := by
  have hface : lobby.players.reduceOption.filter (fun c => ((s.modify q f).conns c).isReady) =
      lobby.players.reduceOption.filter fun c => (s.conns c).isReady :=
    congrArg Face.ready (List.map_inj_left.mp h lobby hin)
  have hmem := congrArg (q ∈ ·) hface
  simp only [List.mem_filter, List.reduceOption_mem_iff, hslot, true_and,
    modify_conns_self] at hmem
  exact Bool.eq_iff_iff.mpr (iff_of_eq hmem)

theorem Twin.faces {s t : Server} {q : ConnId} (hr : s.Rooms) (h : Twin q s t) :
    t.faces = s.faces := by
  cases h with
  | same => rfl
  | seated _ n => exact faces_modify fun _ _ _ => rfl
  | waiting _ hnil n b =>
      exact faces_modify fun lobby hin hslot => absurd hslot (hr.not_occupant hnil hin)

/-! ## One step of both -/

/-- The event takes `q` from the queue into a slot. -/
def TakesIn (q : ConnId) (s s' : Server) : Prop :=
  q ∈ s.playerQueue ∧ ∃ lobby ∈ s'.lobbies, some q ∈ lobby.players

theorem TakesIn.lobbies_ne {q : ConnId} {s s' : Server} (hinv : s.Inv) (h : TakesIn q s s') :
    s'.lobbies ≠ s.lobbies := by
  intro heq
  obtain ⟨hq, lobby, hin, hslot⟩ := h
  rw [heq] at hin
  exact hinv.rooms.not_occupant (hinv.book.queued q hq).2.2 hin hslot

theorem own_lobbies {q : ConnId} {s s' : Server} {e : ServerEvent}
    (hnil : (s.conns q).handlers = []) (he : e.conn? = some q) (hs : s.step e = some s') :
    s'.lobbies = s.lobbies := by
  obtain ⟨out, first, hout, rfl, _⟩ := own_step he hs
  have heq := congrArg lobbies (complete_of_outside hnil hout.keepsSeat out.2 first)
  exact heq

/-- Where both servers take `q` in and look the same afterwards, they agreed on its
readiness. -/
theorem TakesIn.agree {q : ConnId} {s s' t t' : Server} {e : ServerEvent} (hs : s.Inv)
    (ht : t.Inv) (h : TakesIn q s s') (hqueue : t.playerQueue = s.playerQueue)
    (he : e.conn? ≠ some q) (hstep : s.step e = some s') (hstep' : t.step e = some t')
    (htwin : ∃ n b, t' = s'.modify q (·.tuned n b)) (hfaces : t'.faces = s'.faces) :
    (t.conns q).isReady = (s.conns q).isReady := by
  obtain ⟨hq, lobby, hin, hslot⟩ := h
  obtain ⟨n, b, htwin⟩ := htwin
  have hready := step_isReady hs (hs.book.queued q hq).2.2 he hstep
  have hready' := step_isReady ht (ht.book.queued q (hqueue ▸ hq)).2.2 he hstep'
  rw [← hready, ← hready']
  rw [htwin] at hfaces
  rw [htwin, modify_conns_self]
  exact isReady_of_faces hfaces hin hslot

/-- `q` is in the queue, or was not accepted yet. -/
def Waits (q : ConnId) (s : Server) : Prop := q ∈ s.playerQueue ∨ q ∉ s.accepted

theorem Waits.plain {q : ConnId} {s : Server} (hinv : s.Inv) (h : Waits q s) :
    (s.conns q).id = 0 ∧ (s.conns q).handlers = [] := by
  rcases h with hq | hnew
  · exact (hinv.book.queued q hq).2
  · rw [hinv.book.unborn q hnew]
    exact ⟨rfl, rfl⟩

theorem Waits.back {q : ConnId} {s s' : Server} {e : ServerEvent} (hinv : s.Inv)
    (hs : s.step e = some s') (h : Waits q s') : Waits q s := by
  have hm := step_queueMoves hinv hs
  rcases h with hq | hnew
  · cases hm with
    | stays _ hline _ _ =>
        rw [queue_of_line hline] at hq
        exact .inl hq
    | seated _ _ hline _ =>
        rw [queue_of_line hline] at hq
        exact .inl hq
    | queued hnew _ hline _ _ _ =>
        rw [queue_of_line hline] at hq
        rcases List.mem_append.mp hq with hq | hq
        · exact .inl hq
        · exact .inr (List.mem_singleton.mp hq ▸ hnew)
    | swept hline _ _ _ _ =>
        rw [queue_of_line hline] at hq
        exact .inl (List.mem_of_mem_filter hq)
    | filled _ hfront hline _ _ =>
        rw [queue_of_line hline] at hq
        rw [Waits, hfront]
        exact .inl (List.mem_cons_of_mem _ hq)
  · exact .inr fun hacc => hnew (hm.accepted hacc)

/-- A connection that waits turns ready by saying so with the id 0, and in no other
way. -/
theorem Waits.isReady_iff {q : ConnId} {s s' : Server} {e : ServerEvent} (hinv : s.Inv)
    (h : Waits q s) (hs : s.step e = some s') :
    (s'.conns q).isReady = true ↔ (s.conns q).isReady = true ∨
      ∃ m first, e = .read q (.message m) first ∧ m.SaysReady 0 := by
  obtain ⟨hid, hnil⟩ := h.plain hinv
  by_cases he : e.conn? = some q
  · obtain ⟨out, first, hout, rfl, _⟩ := own_step he hs
    rw [show s.complete q out first = _ from
      complete_of_outside hnil hout.keepsSeat out.2 first, modify_conns_self, hout.isReady_iff, hid]
    refine or_congr_right ⟨?_, ?_⟩
    · rintro ⟨m, hm, hsays⟩
      cases e with
      | read c result first =>
          obtain rfl := Option.some.inj he
          cases result with
          | message m' =>
              obtain rfl : m' = m := Option.some.inj hm
              exact ⟨m', first, rfl, hsays⟩
          | _ => cases hm
      | _ => cases hm
    · rintro ⟨m, _, rfl, hsays⟩
      exact ⟨m, rfl, hsays⟩
  · rw [step_isReady hinv hnil he hs]
    refine (or_iff_left ?_).symm
    rintro ⟨m, first, rfl, _⟩
    exact he rfl

end Server

namespace Twins

/-- Every lobby looks the same in both servers. -/
def Alike (p : Twins) : Prop := p.loud.faces = p.quiet.faces

theorem step_cases {q : ConnId} {p p' : Twins} {e : TwinEvent} (hs : step q p e = some p') :
    (∃ e', e = .both e' ∧ p.quiet.step e' = some p'.quiet ∧ p.loud.step e' = some p'.loud) ∨
    ∃ m first, e = .extra m first ∧ q ∈ p.loud.playerQueue ∧ m.type ≠ .pong ∧
      p'.quiet = p.quiet ∧ p.loud.step (.read q (.message m) first) = some p'.loud := by
  cases e with
  | both e =>
      rw [step] at hs
      split at hs
      · next quiet loud hquiet hloud =>
          obtain rfl := Option.some.inj hs
          exact .inl ⟨e, rfl, hquiet, hloud⟩
      · cases hs
  | extra m first =>
      obtain ⟨⟨hq, _, hpong⟩, hs⟩ := Option.ite_none_right_eq_some.mp hs
      obtain ⟨loud, hloud, rfl⟩ := Option.map_eq_some_iff.mp hs
      exact .inr ⟨m, first, rfl, hq, hpong, rfl, hloud⟩

theorem reachable {q : ConnId} {p : Twins} (h : Reachable (step q) new p) :
    Reachable Server.step Server.new p.quiet ∧ Reachable Server.step Server.new p.loud := by
  refine h.invariant (I := fun p => Reachable Server.step Server.new p.quiet ∧
    Reachable Server.step Server.new p.loud) ⟨.refl, .refl⟩ fun p e p' hp _ hs => ?_
  rcases step_cases hs with ⟨e', _, hquiet, hloud⟩ | ⟨m, first, _, _, _, hquiet, hloud⟩
  · exact ⟨.step hp.1 trivial hquiet, .step hp.2 trivial hloud⟩
  · exact ⟨hquiet ▸ hp.1, .step hp.2 trivial hloud⟩

/-- Where `q` gets its lobby the servers look the same afterwards exactly if they agree on
its readiness before. Everywhere else they stay alike. -/
theorem step_twin {q : ConnId} {p p' : Twins} {e : TwinEvent} (hquiet : p.quiet.Inv)
    (hloud : p.loud.Inv) (h : Server.Twin q p.quiet p.loud) (hs : step q p e = some p') :
    (p'.Alike ↔ (Server.TakesIn q p.quiet p'.quiet →
      (p.loud.conns q).isReady = (p.quiet.conns q).isReady)) ∧
    ((Server.TakesIn q p.quiet p'.quiet →
      (p.loud.conns q).isReady = (p.quiet.conns q).isReady) →
      Server.Twin q p'.quiet p'.loud) := by
  have hqueue : p.loud.playerQueue = p.quiet.playerQueue := by
    obtain ⟨_, _, heq⟩ := h.exists_tuned
    rw [heq]
    rfl
  rcases step_cases hs with ⟨e', rfl, hq, hl⟩ | ⟨m, first, rfl, hin, hpong, hq, hl⟩
  · have hinv' := (hquiet.moves (Server.step_moves hquiet.rooms hq)).rooms
    by_cases he : e'.conn? = some q
    · have htwin := h.own hquiet he hq hl
      refine ⟨iff_of_true (htwin.faces hinv') fun htakes => ?_, fun _ => htwin⟩
      have hnil := (hquiet.book.queued q htakes.1).2.2
      exact absurd (Server.own_lobbies hnil he hq) (htakes.lobbies_ne hquiet)
    · have hagree : ∀ htakes : Server.TakesIn q p.quiet p'.quiet,
          (∃ n b, p'.loud = p'.quiet.modify q (·.tuned n b)) → p'.Alike →
            (p.loud.conns q).isReady = (p.quiet.conns q).isReady := fun htakes =>
        htakes.agree hquiet hloud hqueue he hq hl
      rcases h.others hquiet he hq hl with htwin | ⟨hin, hslot, n, b, ht, ht'⟩
      · have halike : p'.Alike := htwin.faces hinv'
        exact ⟨iff_of_true halike fun htakes => hagree htakes htwin.exists_tuned halike,
          fun _ => htwin⟩
      · have hseated : (p.loud.conns q).isReady = (p.quiet.conns q).isReady →
            Server.Twin q p'.quiet p'.loud := by
          intro hready
          have hnil := (hquiet.book.queued q hin).2.2
          rw [ht, Server.modify_conns_self, ← Server.step_isReady hquiet hnil he hq] at hready
          obtain rfl : b = (p'.quiet.conns q).isReady := hready
          rw [ht']
          exact .seated ((Server.step_queueMoves hquiet hq).accepted
            (hquiet.book.queued q hin).1) n
        exact ⟨⟨fun halike htakes => hagree htakes ⟨n, b, ht'⟩ halike,
          fun hok => (hseated (hok ⟨hin, hslot⟩)).faces hinv'⟩, fun hok => hseated (hok ⟨hin, hslot⟩)⟩
  · have htwin : Server.Twin q p'.quiet p'.loud := hq ▸ h.extra hquiet hin hpong hl
    have hinv' : p'.quiet.Rooms := hq ▸ hquiet.rooms
    refine ⟨iff_of_true (htwin.faces hinv') fun htakes => ?_, fun _ => htwin⟩
    exact absurd (congrArg Server.lobbies hq) (htakes.lobbies_ne hquiet)

/-! ## Whole runs -/

/-- An additional message was a `ready` with the id 0. -/
def SaidBesides (es : List TwinEvent) : Prop :=
  ∃ m first, .extra m first ∈ es ∧ m.SaysReady 0

/-- `q` sent a `ready` with the id 0 in both runs. -/
def SaidAnyway (q : ConnId) (es : List TwinEvent) : Prop :=
  ∃ m first, .both (.read q (.message m) first) ∈ es ∧ m.SaysReady 0

theorem saidBesides_concat {es : List TwinEvent} {e : TwinEvent} :
    SaidBesides (es ++ [e]) ↔ SaidBesides es ∨ ∃ m first, e = .extra m first ∧ m.SaysReady 0 := by
  simp [SaidBesides, or_and_right, exists_or, eq_comm]

theorem saidAnyway_concat {q : ConnId} {es : List TwinEvent} {e : TwinEvent} :
    SaidAnyway q (es ++ [e]) ↔ SaidAnyway q es ∨
      ∃ m first, e = .both (.read q (.message m) first) ∧ m.SaysReady 0 := by
  simp [SaidAnyway, or_and_right, exists_or, eq_comm]

/-- As long as `q` waits, the servers are alike, and its readiness in either is what it
said there. -/
theorem said {q : ConnId} {es : List TwinEvent} {p : Twins} (hrun : run (step q) new es = some p)
    (hw : Server.Waits q p.quiet) :
    Server.Twin q p.quiet p.loud ∧
    ((p.quiet.conns q).isReady = true ↔ SaidAnyway q es) ∧
    ((p.loud.conns q).isReady = true ↔ SaidAnyway q es ∨ SaidBesides es) := by
  induction es using List.reverseRecOn generalizing p with
  | nil =>
      obtain rfl := Option.some.inj hrun
      refine ⟨.same, ?_, ?_⟩
      · simp [new, Server.new, Server.waitForConnections, Connection.create, SaidAnyway,
          Connection.isReady]
      · simp [new, Server.new, Server.waitForConnections, Connection.create, SaidAnyway,
          SaidBesides, Connection.isReady]
  | append_singleton es e ih =>
      rw [run_append] at hrun
      obtain ⟨p₀, hrun₀, hs⟩ := Option.bind_eq_some_iff.mp hrun
      rw [run_singleton] at hs
      obtain ⟨hquiet, hloud⟩ := reachable (.of_run hrun₀)
      have hquiet := Server.reachable_inv hquiet
      have hloud := Server.reachable_inv hloud
      have hinv : p.quiet.Inv := by
        rcases step_cases hs with ⟨_, _, hq, _⟩ | ⟨_, _, _, _, _, hq, _⟩
        · exact hquiet.moves (Server.step_moves hquiet.rooms hq)
        · rwa [hq]
      have hw₀ : Server.Waits q p₀.quiet := by
        rcases step_cases hs with ⟨_, _, hq, _⟩ | ⟨_, _, _, _, _, hq, _⟩
        · exact hw.back hquiet hq
        · rwa [← hq]
      obtain ⟨htwin, hready, hready'⟩ := ih hrun₀ hw₀
      have htwin' := (step_twin hquiet hloud htwin hs).2 fun htakes => by
        obtain ⟨_, lobby, hin, hslot⟩ := htakes
        exact absurd hslot (hinv.rooms.not_occupant (hw.plain hinv).2 hin)
      have hw₀' : Server.Waits q p₀.loud := by
        obtain ⟨_, _, heq⟩ := htwin.exists_tuned
        rw [heq]
        exact hw₀
      refine ⟨htwin', ?_⟩
      rw [saidAnyway_concat, saidBesides_concat]
      rcases step_cases hs with ⟨e', rfl, hq, hl⟩ | ⟨m, first, rfl, _, _, hq, hl⟩
      · rw [hw₀.isReady_iff hquiet hq, hw₀'.isReady_iff hloud hl, hready, hready']
        simp [or_right_comm]
      · rw [hq, hw₀'.isReady_iff hloud hl, hready, hready']
        simp [or_assoc]

/-- Whenever `q` is taken from the queue into a slot, and an additional message was a
`ready` with the id 0, it has sent one of those anyway. -/
def Discreet (q : ConnId) (es : List TwinEvent) : Prop :=
  ∀ es₁ e es₂ p p', es = es₁ ++ e :: es₂ → run (step q) new es₁ = some p →
    step q p e = some p' → Server.TakesIn q p.quiet p'.quiet → SaidBesides es₁ → SaidAnyway q es₁

/-- The lobbies look the same at every point of the two runs exactly if what `q` said
besides did not make it ready by the time it got its lobby. -/
theorem alike_iff (q : ConnId) (es : List TwinEvent) :
    Along (step q) (fun _ _ p' => p'.Alike) new es ↔ Discreet q es := by
  have hstep : Along (step q) (fun _ _ p' => p'.Alike) new es ↔
      Along (step q) (fun p _ p' => Server.TakesIn q p.quiet p'.quiet →
        (p.loud.conns q).isReady = (p.quiet.conns q).isReady) new es := by
    refine Along.iff_of_guarded (J := fun p => Server.Twin q p.quiet p.loud)
      (fun p e p' hp h hs => ?_) .refl .same es
    obtain ⟨hquiet, hloud⟩ := reachable hp
    exact step_twin (Server.reachable_inv hquiet) (Server.reachable_inv hloud) h hs
  rw [hstep, along_iff_forall]
  refine forall_congr' fun es₁ => forall_congr' fun e => forall_congr' fun es₂ =>
    forall_congr' fun p => forall_congr' fun p' => forall_congr' fun _ => ?_
  refine forall_congr' fun hrun => forall_congr' fun _ => forall_congr' fun htakes => ?_
  obtain ⟨_, hquiet, hloud⟩ := said hrun (.inl htakes.1)
  rw [Bool.eq_iff_iff, hquiet, hloud]
  exact or_iff_left_iff_imp

/-- The ninth player says that it is ready while it waits in the queue. Then the first
player leaves, and the ninth gets its slot. -/
def readyInQueue : List TwinEvent :=
  Server.nineArrivals.map .both ++
    [.extra (.ready 0) 1, .both (.read 0 (.failed .eof) 1)]

/-- It is a ready occupant only if it said so. -/
theorem alike_ready : ¬ ∀ q es, Along (step q) (fun _ _ p' => p'.Alike) new es := by
  intro hall
  have hrun : (run (step 8) new readyInQueue).any
      (fun p => decide (p.loud.faces ≠ p.quiet.faces)) = true := by
    decide +kernel
  obtain ⟨p, hrun, hne⟩ := (Option.any_eq_true ..).mp hrun
  exact of_decide_eq_true hne ((hall 8 readyInQueue).ends rfl hrun)

end Twins

end ConnectDisks.Net
