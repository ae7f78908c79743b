import Mathlib.Data.List.Nodup
import Mathlib.Data.List.Perm.Subperm

/-!
# A waiting line

People arrive one after the other. Who finds nobody waiting may be served at
once; everybody else joins the end of the line, and whoever is at its front is
served next. People in the line may give up, wherever they stand.

Such a line is first come, first served: nobody is served before somebody who
arrived earlier, unless the earlier one gave up. The order of two people in a list
without repetitions is written `[a, b].Sublist l`.
-/

namespace Lib

variable {α : Type*}

theorem not_before_of_after {l : List α} (hl : l.Nodup) {a b : α}
    (hab : [a, b].Sublist l) : ¬ [b, a].Sublist l := by
  induction l with
  | nil => cases hab
  | cons c l ih =>
      intro hba
      obtain ⟨hc, hl⟩ := List.nodup_cons.mp hl
      rcases List.sublist_cons_iff.mp hab with hab | ⟨r, hr, hab⟩
      · rcases List.sublist_cons_iff.mp hba with hba | ⟨r', hr', hba⟩
        · exact ih hl hab hba
        · injection hr' with hbc _
          exact hc (hbc ▸ hab.subset (by simp))
      · injection hr with hac hr
        subst hr
        rcases List.sublist_cons_iff.mp hba with hba | ⟨r', hr', _⟩
        · exact hc (hac ▸ hba.subset (by simp))
        · injection hr' with hbc _
          exact hc (hbc ▸ List.singleton_sublist.mp hab)

theorem pair_sublist_concat {l : List α} {a b c : α} :
    [a, b].Sublist (l ++ [c]) ↔ [a, b].Sublist l ∨ (a ∈ l ∧ b = c) := by
  constructor
  · intro h
    obtain ⟨l₁, l₂, heq, h₁, h₂⟩ := List.sublist_append_iff.mp h
    rcases List.sublist_singleton.mp h₂ with rfl | rfl
    · rw [List.append_nil] at heq
      exact .inl (heq ▸ h₁)
    · obtain ⟨ha, hb⟩ := List.append_inj' (show [a] ++ [b] = l₁ ++ [c] from heq) rfl
      subst ha
      injection hb with hb
      exact .inr ⟨List.singleton_sublist.mp h₁, hb⟩
  · rintro (h | ⟨ha, rfl⟩)
    · exact h.trans (List.sublist_append_left l [c])
    · exact (List.singleton_sublist.mpr ha).append_right [b]

theorem getElem?_concat_iff {l : List α} {a b : α} {i : ℕ} :
    (l ++ [a])[i]? = some b ↔ l[i]? = some b ∨ (i = l.length ∧ b = a) := by
  rcases Nat.lt_trichotomy i l.length with hlt | heq | hgt
  · rw [List.getElem?_append_left hlt]
    exact (or_iff_left fun h => absurd h.1 (Nat.ne_of_lt hlt)).symm
  · rw [heq, List.getElem?_concat_length, List.getElem?_eq_none (Nat.le_refl _)]
    simp [eq_comm]
  · rw [List.getElem?_eq_none (by simp; omega), List.getElem?_eq_none (Nat.le_of_lt hgt)]
    simp
    omega

/-- Who stays in a line does not move back. -/
theorem exists_getElem?_of_sublist {l l' : List α} (h : l.Sublist l') {j : ℕ} {a : α}
    (ha : l[j]? = some a) : ∃ i, j ≤ i ∧ l'[i]? = some a := by
  induction h generalizing j with
  | slnil => simp at ha
  | cons b _ ih =>
      obtain ⟨i, hle, hi⟩ := ih ha
      exact ⟨i + 1, by omega, hi⟩
  | cons_cons b _ ih =>
      cases j with
      | zero => exact ⟨0, Nat.le_refl 0, ha⟩
      | succ j =>
          obtain ⟨i, hle, hi⟩ := ih ha
          exact ⟨i + 1, by omega, hi⟩

/-- Everybody who has arrived, who of them is waiting, and who was served, each in
order. -/
structure WaitingLine (α : Type*) where
  arrived : List α
  queue : List α
  served : List α

namespace WaitingLine

def empty : WaitingLine α where
  arrived := []
  queue := []
  served := []

/-- What can happen to a line. -/
inductive Moves (l : WaitingLine α) : WaitingLine α → Prop
  | stay : Moves l l
  | serve {a : α} (new : a ∉ l.arrived) (nobody : l.queue = []) :
      Moves l ⟨l.arrived ++ [a], l.queue, l.served ++ [a]⟩
  | join {a : α} (new : a ∉ l.arrived) :
      Moves l ⟨l.arrived ++ [a], l.queue ++ [a], l.served⟩
  | leave (stays : α → Bool) : Moves l { l with queue := l.queue.filter stays }
  | next {a : α} {rest : List α} (front : l.queue = a :: rest) :
      Moves l { l with queue := rest, served := l.served ++ [a] }

theorem Moves.grows {l l' : WaitingLine α} (hm : l.Moves l') : l.arrived <+: l'.arrived := by
  cases hm with
  | stay => exact List.prefix_refl _
  | serve _ _ => exact List.prefix_append _ _
  | join _ => exact List.prefix_append _ _
  | leave _ => exact List.prefix_refl _
  | next _ => exact List.prefix_refl _

/-- The line keeps the order of arrival, and who was served was served in it. -/
structure Orderly (l : WaitingLine α) : Prop where
  nodup : l.arrived.Nodup
  queue : l.queue.Sublist l.arrived
  served : ∀ a ∈ l.served, a ∈ l.arrived ∧ a ∉ l.queue
  fair : ∀ a b, [a, b].Sublist l.arrived → b ∈ l.served →
    [a, b].Sublist l.served ∨ (a ∉ l.queue ∧ a ∉ l.served)

theorem empty_orderly : (empty : WaitingLine α).Orderly :=
  ⟨.nil, .slnil, fun _ h => (by cases h), fun _ _ _ h => (by cases h)⟩

namespace Orderly

variable {l : WaitingLine α}

theorem serve (h : l.Orderly) {a : α} (new : a ∉ l.arrived) (nobody : l.queue = []) :
    Orderly ⟨l.arrived ++ [a], l.queue, l.served ++ [a]⟩ := by
  refine ⟨List.nodup_append_comm.mp (List.nodup_cons.mpr ⟨new, h.nodup⟩), ?_, ?_, ?_⟩
  · exact h.queue.trans (List.sublist_append_left ..)
  · intro b hb
    rw [nobody]
    rcases List.mem_append.mp hb with hb | hb
    · exact ⟨List.mem_append_left _ (h.served b hb).1, List.not_mem_nil⟩
    · exact ⟨List.mem_append_right _ hb, List.not_mem_nil⟩
  · intro b c hbc hc
    rw [nobody]
    rcases pair_sublist_concat.mp hbc with hbc | ⟨hb, rfl⟩
    · have hne : c ≠ a := fun heq => new (heq ▸ hbc.subset (by simp))
      have hc' : c ∈ l.served := (List.mem_append.mp hc).resolve_right (by simpa using hne)
      rcases h.fair b c hbc hc' with hs | ⟨_, hs⟩
      · exact .inl (hs.trans (List.sublist_append_left ..))
      · refine .inr ⟨List.not_mem_nil, fun hb => ?_⟩
        rcases List.mem_append.mp hb with hb | hb
        · exact hs hb
        · exact new (List.mem_singleton.mp hb ▸ hbc.subset (by simp))
    · by_cases hs : b ∈ l.served
      · exact .inl (pair_sublist_concat.mpr (.inr ⟨hs, rfl⟩))
      · refine .inr ⟨List.not_mem_nil, fun hin => ?_⟩
        rcases List.mem_append.mp hin with hin | hin
        · exact hs hin
        · exact new (List.mem_singleton.mp hin ▸ hb)

theorem join (h : l.Orderly) {a : α} (new : a ∉ l.arrived) :
    Orderly ⟨l.arrived ++ [a], l.queue ++ [a], l.served⟩ := by
  have hserved : ∀ b ∈ l.served, b ≠ a := fun b hb heq => new (heq ▸ (h.served b hb).1)
  refine ⟨List.nodup_append_comm.mp (List.nodup_cons.mpr ⟨new, h.nodup⟩), ?_, ?_, ?_⟩
  · exact h.queue.append_right [a]
  · intro b hb
    refine ⟨List.mem_append_left _ (h.served b hb).1, fun hin => ?_⟩
    rcases List.mem_append.mp hin with hin | hin
    · exact (h.served b hb).2 hin
    · exact hserved b hb (List.mem_singleton.mp hin)
  · intro b c hbc hc
    rcases pair_sublist_concat.mp hbc with hbc | ⟨_, rfl⟩
    · rcases h.fair b c hbc hc with hs | ⟨hq, hs⟩
      · exact .inl hs
      · refine .inr ⟨fun hin => ?_, hs⟩
        rcases List.mem_append.mp hin with hin | hin
        · exact hq hin
        · exact new (List.mem_singleton.mp hin ▸ hbc.subset (by simp))
    · exact absurd rfl (hserved c hc)

theorem leave (h : l.Orderly) (stays : α → Bool) :
    Orderly { l with queue := l.queue.filter stays } := by
  have hsub : ∀ a ∈ l.queue.filter stays, a ∈ l.queue := fun a ha =>
    (List.mem_filter.mp ha).1
  refine ⟨h.nodup, List.filter_sublist.trans h.queue, ?_, ?_⟩
  · exact fun a ha => ⟨(h.served a ha).1, fun hin => (h.served a ha).2 (hsub a hin)⟩
  · intro a b hab hb
    exact (h.fair a b hab hb).imp_right fun hn => ⟨fun hin => hn.1 (hsub a hin), hn.2⟩

theorem next (h : l.Orderly) {a : α} {rest : List α} (front : l.queue = a :: rest) :
    Orderly { l with queue := rest, served := l.served ++ [a] } := by
  have hline := h.queue
  rw [front] at hline
  have hnot : a ∉ rest := (List.nodup_cons.mp (hline.nodup h.nodup)).1
  have hmem : ∀ b, b ∈ l.queue ↔ b = a ∨ b ∈ rest := fun b => by
    rw [front, List.mem_cons]
  refine ⟨h.nodup, (List.sublist_cons_self a rest).trans hline, ?_, ?_⟩
  · intro b hb
    rcases List.mem_append.mp hb with hb | hb
    · exact ⟨(h.served b hb).1, fun hin => (h.served b hb).2 ((hmem b).mpr (.inr hin))⟩
    · rw [List.mem_singleton.mp hb]
      exact ⟨hline.subset List.mem_cons_self, hnot⟩
  · intro b c hbc hc
    rcases List.mem_append.mp hc with hc | hc
    · rcases h.fair b c hbc hc with hs | ⟨hq, hs⟩
      · exact .inl (hs.trans (List.sublist_append_left ..))
      · rw [hmem, not_or] at hq
        refine .inr ⟨hq.2, fun hin => ?_⟩
        rcases List.mem_append.mp hin with hin | hin
        · exact hs hin
        · exact hq.1 (List.mem_singleton.mp hin)
    · obtain rfl := List.mem_singleton.mp hc
      -- whoever is still in the line stands behind the one at its front
      have hbehind : b ∉ rest := fun hin =>
        not_before_of_after h.nodup hbc
          (((List.singleton_sublist.mpr hin).cons_cons c).trans hline)
      have hne : b ≠ c := by
        rintro rfl
        exact List.nodup_iff_sublist.mp h.nodup b hbc
      by_cases hs : b ∈ l.served
      · exact .inl (pair_sublist_concat.mpr (.inr ⟨hs, rfl⟩))
      · refine .inr ⟨hbehind, fun hin => ?_⟩
        rcases List.mem_append.mp hin with hin | hin
        · exact hs hin
        · exact hne (List.mem_singleton.mp hin)

theorem moves {l' : WaitingLine α} (h : l.Orderly) (hm : l.Moves l') : l'.Orderly := by
  cases hm with
  | stay => exact h
  | serve new nobody => exact h.serve new nobody
  | join new => exact h.join new
  | leave stays => exact h.leave stays
  | next front => exact h.next front

/-- First come, first served. -/
theorem before (h : l.Orderly) {a b : α} (hab : [a, b].Sublist l.arrived)
    (hb : b ∈ l.served) (ha : a ∈ l.queue ∨ a ∈ l.served) : [a, b].Sublist l.served := by
  rcases h.fair a b hab hb with hs | ⟨hq, hs⟩
  · exact hs
  · exact (ha.elim hq hs).elim

end Orderly

end WaitingLine

end Lib
