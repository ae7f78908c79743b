import Mathlib.Tactic.TypeStar

/-!
# Runs of a partial step function

A system is a step function that answers `none` where an event is not enabled.
`Reaches` collects the states that runs lead to when every step taken meets a
condition on the state it starts from and its event; with no condition it is
plain reachability. An invariant is proved once, by `Reaches.invariant`.

`run` is the same thing as a function on a list of events, which is how a
particular run is written down, and `Meets` the condition along it.
-/

namespace Lib

variable {σ ε : Type*}

/-- The states that runs from `s₀` lead to, with every step meeting `ok`. -/
inductive Reaches (step : σ → ε → Option σ) (ok : σ → ε → Prop) (s₀ : σ) : σ → Prop
  | refl : Reaches step ok s₀ s₀
  | step {s s' : σ} {e : ε} : Reaches step ok s₀ s → ok s e → step s e = some s' →
      Reaches step ok s₀ s'

/-- The states that runs from `s₀` lead to. -/
abbrev Reachable (step : σ → ε → Option σ) (s₀ : σ) : σ → Prop :=
  Reaches step (fun _ _ => True) s₀

/-- The invariant rule: what holds at first and is kept by every step that meets
the condition holds in every state reached. -/
theorem Reaches.invariant {step : σ → ε → Option σ} {ok : σ → ε → Prop} {s₀ s : σ}
    {I : σ → Prop} (h : Reaches step ok s₀ s) (h0 : I s₀)
    (hstep : ∀ s e s', I s → ok s e → step s e = some s' → I s') : I s := by
  induction h with
  | refl => exact h0
  | step _ hok hs ih => exact hstep _ _ _ ih hok hs

theorem Reaches.mono {step : σ → ε → Option σ} {ok ok' : σ → ε → Prop} {s₀ s : σ}
    (hok : ∀ s e, ok s e → ok' s e) (h : Reaches step ok s₀ s) :
    Reaches step ok' s₀ s := by
  induction h with
  | refl => exact .refl
  | step _ h hs ih => exact .step ih (hok _ _ h) hs

theorem Reaches.reachable {step : σ → ε → Option σ} {ok : σ → ε → Prop} {s₀ s : σ}
    (h : Reaches step ok s₀ s) : Reachable step s₀ s :=
  h.mono fun _ _ _ => trivial

/-- A list of events, taken one after the other. -/
def run (step : σ → ε → Option σ) (s : σ) : List ε → Option σ
  | [] => some s
  | e :: es => (step s e).bind fun s' => run step s' es

/-- Every step of the run on these events starts in a state where its event
meets the condition. -/
def Meets (step : σ → ε → Option σ) (ok : σ → ε → Prop) (s : σ) : List ε → Prop
  | [] => True
  | e :: es => ok s e ∧ ∀ s', step s e = some s' → Meets step ok s' es

instance Meets.decidable (step : σ → ε → Option σ) (ok : σ → ε → Prop)
    [∀ s e, Decidable (ok s e)] : (s : σ) → (es : List ε) → Decidable (Meets step ok s es)
  | _, [] => isTrue trivial
  | s, e :: es =>
      match h : step s e with
      | none => decidable_of_iff (ok s e) ⟨fun hok => ⟨hok, fun _ hs => by simp [h] at hs⟩,
          fun hm => hm.1⟩
      | some s' =>
          have := Meets.decidable step ok s' es
          decidable_of_iff (ok s e ∧ Meets step ok s' es)
            ⟨fun hm => ⟨hm.1, fun t ht => by rw [h] at ht; exact Option.some.inj ht ▸ hm.2⟩,
              fun hm => ⟨hm.1, hm.2 s' h⟩⟩

theorem Meets.concat {step : σ → ε → Option σ} {ok : σ → ε → Prop} {s : σ} {es : List ε}
    {e : ε} (h : Meets step ok s es) (hlast : ∀ s', Lib.run step s es = some s' → ok s' e) :
    Meets step ok s (es ++ [e]) := by
  induction es generalizing s with
  | nil => exact ⟨hlast s rfl, fun _ _ => trivial⟩
  | cons e' es ih =>
      refine ⟨h.1, fun mid hmid => ih (h.2 mid hmid) fun s' hs' => hlast s' ?_⟩
      rw [run, hmid]
      exact hs'

theorem Reaches.run {step : σ → ε → Option σ} {ok : σ → ε → Prop} {s₀ s s' : σ}
    {es : List ε} (h : Reaches step ok s₀ s) (hok : Meets step ok s es)
    (hrun : run step s es = some s') : Reaches step ok s₀ s' := by
  induction es generalizing s with
  | nil =>
      injection hrun with hrun
      exact hrun ▸ h
  | cons e es ih =>
      obtain ⟨mid, hmid, hrest⟩ := Option.bind_eq_some_iff.mp hrun
      exact ih (.step h hok.1 hmid) (hok.2 mid hmid) hrest

theorem Reachable.of_run {step : σ → ε → Option σ} {s₀ s : σ} {es : List ε}
    (hrun : run step s₀ es = some s) : Reachable step s₀ s := by
  refine Reaches.run .refl ?_ hrun
  clear hrun
  induction es generalizing s₀ with
  | nil => trivial
  | cons e es ih => exact ⟨trivial, fun _ _ => ih⟩

theorem Reachable.extend {step : σ → ε → Option σ} {s₀ s s' : σ} {es : List ε}
    (h : Reachable step s₀ s) (hrun : run step s es = some s') : Reachable step s₀ s' := by
  induction es generalizing s with
  | nil =>
      injection hrun with hrun
      exact hrun ▸ h
  | cons e es ih =>
      obtain ⟨mid, hmid, hrest⟩ := Option.bind_eq_some_iff.mp hrun
      exact ih (.step h trivial hmid) hrest

/-! ## Cutting and translating runs -/

theorem run_append (step : σ → ε → Option σ) (s : σ) (es fs : List ε) :
    run step s (es ++ fs) = (run step s es).bind fun s' => run step s' fs := by
  induction es generalizing s with
  | nil => rfl
  | cons e es ih =>
      rw [List.cons_append, run, run]
      cases step s e with
      | none => rfl
      | some s' => exact ih s'

theorem run_singleton (step : σ → ε → Option σ) (s : σ) (e : ε) :
    run step s [e] = step s e := by
  rw [run]
  cases step s e <;> rfl

/-- A run passes through a state after every prefix. -/
theorem run_passes {step : σ → ε → Option σ} {s s' : σ} {es fs : List ε}
    (hrun : run step s fs = some s') (h : es <+: fs) : ∃ t, run step s es = some t := by
  obtain ⟨gs, rfl⟩ := h
  rw [run_append] at hrun
  obtain ⟨t, ht, _⟩ := Option.bind_eq_some_iff.mp hrun
  exact ⟨t, ht⟩

/-- A machine that takes every step of another takes every run of it. -/
theorem run_mono {step step' : σ → ε → Option σ}
    (h : ∀ s e s', step s e = some s' → step' s e = some s') {s s' : σ} {es : List ε}
    (hrun : run step s es = some s') : run step' s es = some s' := by
  induction es generalizing s with
  | nil => exact hrun
  | cons e es ih =>
      obtain ⟨mid, hmid, hrest⟩ := Option.bind_eq_some_iff.mp hrun
      rw [run, h s e mid hmid]
      exact ih hrest

/-- Events that change nothing may be left out. -/
theorem run_filter {step : σ → ε → Option σ} {p : ε → Bool}
    (h : ∀ s e, p e = false → step s e = some s) (s : σ) (es : List ε) :
    run step s (es.filter p) = run step s es := by
  induction es generalizing s with
  | nil => rfl
  | cons e es ih =>
      cases hp : p e with
      | false =>
          rw [List.filter_cons_of_neg (by simp [hp]), run, h s e hp]
          exact ih s
      | true =>
          rw [List.filter_cons_of_pos hp, run, run]
          cases step s e with
          | none => rfl
          | some s' => exact ih s'

/-- Simulation: a second machine is driven by what the events of a run show of
themselves. The relation may look at the events so far. -/
theorem run_simulates {τ μ : Type*} {step : σ → ε → Option σ} {handle : τ → μ → Option τ}
    {view : ε → Option μ} {R : List ε → σ → τ → Prop}
    (h : ∀ es s e s' t, R es s t → step s e = some s' →
      ∃ t', run handle t (view e).toList = some t' ∧ R (es ++ [e]) s' t')
    {es₀ es : List ε} {s s' : σ} {t : τ} (h0 : R es₀ s t) (hrun : run step s es = some s') :
    ∃ t', run handle t (es.filterMap view) = some t' ∧ R (es₀ ++ es) s' t' := by
  induction es generalizing es₀ s t with
  | nil =>
      injection hrun with hrun
      subst hrun
      exact ⟨t, rfl, by rwa [List.append_nil]⟩
  | cons e es ih =>
      obtain ⟨mid, hmid, hrest⟩ := Option.bind_eq_some_iff.mp hrun
      obtain ⟨t₁, ht₁, hR⟩ := h es₀ s e mid t h0 hmid
      obtain ⟨t₂, ht₂, hR'⟩ := ih hR hrest
      refine ⟨t₂, ?_, by rwa [List.append_assoc] at hR'⟩
      have hview : (e :: es).filterMap view = (view e).toList ++ es.filterMap view := by
        cases hv : view e <;> simp [hv]
      rw [hview, run_append, ht₁]
      exact ht₂

/-! ## Projections -/

/-- What the events of a run are to a part of the system, where that may depend on the
state an event is taken in. -/
def shown {μ : Type*} (step : σ → ε → Option σ) (view : σ → ε → List μ) (s : σ) :
    List ε → List μ
  | [] => []
  | e :: es =>
      view s e ++
        match step s e with
        | none => []
        | some s' => shown step view s' es

/-- Every run of the system is, in what it shows of itself, a run of the part. -/
theorem run_projects {τ μ : Type*} {step : σ → ε → Option σ} {handle : τ → μ → Option τ}
    {view : σ → ε → List μ} {R : σ → τ → Prop}
    (h : ∀ s e s' t, R s t → step s e = some s' →
      ∃ t', run handle t (view s e) = some t' ∧ R s' t')
    {s s' : σ} {t : τ} (h0 : R s t) {es : List ε} (hrun : run step s es = some s') :
    ∃ t', run handle t (shown step view s es) = some t' ∧ R s' t' := by
  induction es generalizing s t with
  | nil =>
      injection hrun with hrun
      exact ⟨t, rfl, hrun ▸ h0⟩
  | cons e es ih =>
      obtain ⟨mid, hmid, hrest⟩ := Option.bind_eq_some_iff.mp hrun
      obtain ⟨t₁, ht₁, hR⟩ := h s e mid t h0 hmid
      obtain ⟨t₂, ht₂, hR'⟩ := ih hR hrest
      refine ⟨t₂, ?_, hR'⟩
      rw [shown, hmid, run_append, ht₁]
      exact ht₂

/-- So every state the system reaches shows a state the part reaches. -/
theorem Reaches.projects {τ μ : Type*} {step : σ → ε → Option σ} {ok : σ → ε → Prop}
    {handle : τ → μ → Option τ} {view : σ → ε → List μ} {R : σ → τ → Prop}
    (h : ∀ s e s' t, R s t → step s e = some s' →
      ∃ t', Lib.run handle t (view s e) = some t' ∧ R s' t')
    {s₀ s : σ} {t₀ : τ} (h0 : R s₀ t₀) (hs : Reaches step ok s₀ s) :
    ∃ t, Reachable handle t₀ t ∧ R s t := by
  induction hs with
  | refl => exact ⟨t₀, .refl, h0⟩
  | step _ _ hstep ih =>
      obtain ⟨t, ht, hR⟩ := ih
      obtain ⟨t', hrun, hR'⟩ := h _ _ _ _ hR hstep
      exact ⟨t', ht.extend hrun, hR'⟩

/-- Stuttering simulation: every step is answered by a step of a second machine, or by
none. So every run is answered by a run, and a condition by a condition. -/
theorem Reaches.simulates {τ μ : Type*} {step : σ → ε → Option σ} {ok : σ → ε → Prop}
    {step' : τ → μ → Option τ} {ok' : τ → μ → Prop} {R : σ → τ → Prop}
    (h : ∀ s e s' t, R s t → ok s e → step s e = some s' →
      ∃ t', (t' = t ∨ ∃ e', ok' t e' ∧ step' t e' = some t') ∧ R s' t')
    {s₀ s : σ} {t₀ : τ} (h0 : R s₀ t₀) (hs : Reaches step ok s₀ s) :
    ∃ t, Reaches step' ok' t₀ t ∧ R s t := by
  induction hs with
  | refl => exact ⟨t₀, .refl, h0⟩
  | step _ hok hstep ih =>
      obtain ⟨t, ht, hR⟩ := ih
      obtain ⟨t', hanswer, hR'⟩ := h _ _ _ _ hR hok hstep
      obtain rfl | ⟨e', hok', hstep'⟩ := hanswer
      · exact ⟨t', ht, hR'⟩
      · exact ⟨t', .step ht hok' hstep', hR'⟩

/-! ## Steps of a run -/

/-- Every step of the run on these events satisfies `P`. -/
def Along (step : σ → ε → Option σ) (P : σ → ε → σ → Prop) (s : σ) : List ε → Prop
  | [] => True
  | e :: es => ∀ s', step s e = some s' → P s e s' ∧ Along step P s' es

/-- A property of all states a run passes holds where it ends. -/
theorem Along.ends {step : σ → ε → Option σ} {K : σ → Prop} {s s' : σ} {es : List ε}
    (h : Along step (fun _ _ s' => K s') s es) (h0 : K s)
    (hrun : Lib.run step s es = some s') : K s' := by
  induction es generalizing s with
  | nil => exact Option.some.inj hrun ▸ h0
  | cons e es ih =>
      obtain ⟨mid, hmid, hrest⟩ := Option.bind_eq_some_iff.mp hrun
      obtain ⟨hK, hall⟩ := h mid hmid
      exact ih hall hK hrest

theorem Along.last {step : σ → ε → Option σ} {P : σ → ε → σ → Prop} {s s' : σ}
    {es : List ε} {e : ε} (hrun : Lib.run step s es = some s')
    (h : Along step P s (es ++ [e])) : ∀ t, step s' e = some t → P s' e t := by
  induction es generalizing s with
  | nil =>
      injection hrun with hrun
      exact hrun ▸ fun t ht => (h t ht).1
  | cons e' es ih =>
      obtain ⟨mid, hmid, hrest⟩ := Option.bind_eq_some_iff.mp hrun
      exact ih hrest (h mid hmid).2

/-- Two properties of steps agree on whole runs if they agree on every step, as long as
an invariant holds, which the steps that have the second property keep. -/
theorem Along.iff_of_guarded {step : σ → ε → Option σ} {J : σ → Prop}
    {P ok : σ → ε → σ → Prop} {s₀ : σ}
    (h : ∀ s e s', Reachable step s₀ s → J s → step s e = some s' →
      (P s e s' ↔ ok s e s') ∧ (ok s e s' → J s'))
    {s : σ} (hs : Reachable step s₀ s) (hJ : J s) (es : List ε) :
    Along step P s es ↔ Along step ok s es := by
  induction es generalizing s with
  | nil => exact Iff.rfl
  | cons e es ih =>
      refine forall_congr' fun s' => forall_congr' fun hstep => ?_
      obtain ⟨hiff, hkept⟩ := h s e s' hs hJ hstep
      exact (and_congr_left' hiff).trans
        (and_congr_right fun hok => ih (.step hs trivial hstep) (hkept hok))

/-- Two properties of steps that agree on every step from a reachable state agree
on whole runs. -/
theorem Along.iff {step : σ → ε → Option σ} {P Q : σ → ε → σ → Prop} {s₀ : σ}
    (h : ∀ s e s', Reachable step s₀ s → step s e = some s' → (P s e s' ↔ Q s e s'))
    {s : σ} (hs : Reachable step s₀ s) (es : List ε) :
    Along step P s es ↔ Along step Q s es :=
  iff_of_guarded (J := fun _ => True)
    (fun s e s' hs _ hstep => ⟨h s e s' hs hstep, fun _ => trivial⟩) hs trivial es

/-- A property of states that holds at first, and that each step from a reachable
state keeps exactly when it meets a condition. -/
theorem Along.iff_of_kept {step : σ → ε → Option σ} {J : σ → Prop} {ok : σ → ε → Prop}
    {s₀ : σ} (h : ∀ s e s', Reachable step s₀ s → J s → step s e = some s' → (J s' ↔ ok s e))
    {s : σ} (hs : Reachable step s₀ s) (hJ : J s) (es : List ε) :
    Along step (fun _ _ s' => J s') s es ↔ Along step (fun s e _ => ok s e) s es :=
  iff_of_guarded (fun s e s' hs hJ hstep => ⟨h s e s' hs hJ hstep, (h s e s' hs hJ hstep).mpr⟩)
    hs hJ es

/-- Every step of a run is the last of some prefix. -/
theorem along_iff_forall {step : σ → ε → Option σ} {P : σ → ε → σ → Prop} {s : σ}
    {es : List ε} :
    Along step P s es ↔ ∀ es₁ e es₂ t t', es = es₁ ++ e :: es₂ → run step s es₁ = some t →
      step t e = some t' → P t e t' := by
  induction es generalizing s with
  | nil => exact iff_of_true trivial fun es₁ e es₂ t t' h => by simp at h
  | cons e es ih =>
      constructor
      · rintro hall (_ | ⟨e₁, es₁⟩) e' es₂ t t' heq hrun hstep
        · obtain ⟨rfl, rfl⟩ := List.cons.inj heq
          obtain rfl := Option.some.inj hrun
          exact (hall t' hstep).1
        · obtain ⟨rfl, rfl⟩ := List.cons.inj heq
          obtain ⟨mid, hmid, hrest⟩ := Option.bind_eq_some_iff.mp hrun
          exact ih.mp (hall mid hmid).2 es₁ e' es₂ t t' rfl hrest hstep
      · intro hall s' hstep
        refine ⟨hall [] e es s s' rfl rfl hstep, ih.mpr fun es₁ e' es₂ t t' heq hrun => ?_⟩
        refine hall (e :: es₁) e' es₂ t t' (by rw [heq, List.cons_append]) ?_
        rw [run, hstep]
        exact hrun

end Lib
