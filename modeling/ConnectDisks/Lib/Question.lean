import Mathlib.Data.List.Basic

/-!
# Questions and news on one channel

A channel on which somebody is asked questions and is told news. A question stands from
when it was put until it is called off. On a calm channel no news comes after a question
that stands, so whoever looks at a question knows already all there is to know.

`Calm q` is about what is still under way to somebody who has a standing question or not.
-/

namespace Lib

/-- What a message on the channel comes to. -/
inductive Remark
  | nothing
  | question
  | news
  | ending
deriving DecidableEq

/-- Whether a question stands once this is read. -/
def Remark.leaves (asked : Bool) : Remark → Bool
  | .question => true
  | .ending => false
  | _ => asked

/-- Whether a question stands once all of this is read. -/
def standing (asked : Bool) (xs : List Remark) : Bool := xs.foldl Remark.leaves asked

def Calm : Bool → List Remark → Prop
  | _, [] => True
  | asked, x :: xs => (asked = true → x ≠ .news) ∧ Calm (x.leaves asked) xs

variable {x : Remark} {xs ys : List Remark} {asked : Bool}

theorem calm_append : Calm asked (xs ++ ys) ↔ Calm asked xs ∧ Calm (standing asked xs) ys := by
  induction xs generalizing asked with
  | nil => exact ⟨fun h => ⟨trivial, h⟩, fun h => h.2⟩
  | cons x xs ih =>
      rw [List.cons_append, Calm, Calm, ih, and_assoc]
      rfl

/-- A question that nobody put cannot be in the way. -/
theorem Calm.mono {asked' : Bool} (h : Calm asked xs) (hasked : asked' = true → asked = true) :
    Calm asked' xs := by
  induction xs generalizing asked asked' with
  | nil => trivial
  | cons x xs ih =>
      obtain ⟨hnews, hrest⟩ := h
      refine ⟨fun h => hnews (hasked h), ih hrest ?_⟩
      cases x with
      | question => exact id
      | ending => exact id
      | nothing => exact hasked
      | news => exact hasked

theorem calm_of_no_news (h : .news ∉ xs) (asked : Bool) : Calm asked xs := by
  induction xs generalizing asked with
  | nil => trivial
  | cons x xs ih =>
      refine ⟨fun _ heq => h (heq ▸ List.mem_cons_self), ?_⟩
      exact ih (fun hin => h (List.mem_cons_of_mem x hin)) _

theorem standing_of_no_question (h : .question ∉ xs) : standing false xs = false := by
  induction xs with
  | nil => rfl
  | cons x xs ih =>
      have hrest := ih fun hin => h (List.mem_cons_of_mem x hin)
      cases x with
      | question => exact absurd List.mem_cons_self h
      | nothing => exact hrest
      | news => exact hrest
      | ending => exact hrest

theorem calm_news (hxs : ∀ y ∈ xs, y = .nothing) (hys : .news ∉ ys) :
    Calm false (xs ++ x :: ys) := by
  have hquestion : .question ∉ xs := fun hin => by cases hxs _ hin
  have hnews : .news ∉ xs := fun hin => by cases hxs _ hin
  refine calm_append.mpr ⟨calm_of_no_news hnews false, ?_⟩
  rw [standing_of_no_question hquestion]
  exact ⟨fun h => (by cases h), calm_of_no_news hys _⟩

/-- Under a standing question there is no news but behind its end. -/
theorem Calm.no_news (h : Calm true xs) (hending : .ending ∉ xs) : .news ∉ xs := by
  induction xs with
  | nil => exact List.not_mem_nil
  | cons x xs ih =>
      obtain ⟨hnews, hrest⟩ := h
      have hstands : x.leaves true = true := by
        cases x with
        | ending => exact absurd List.mem_cons_self hending
        | _ => rfl
      rw [hstands] at hrest
      intro hin
      rcases List.mem_cons.mp hin with heq | hin
      · exact hnews rfl heq.symm
      · exact ih hrest (fun hin => hending (List.mem_cons_of_mem x hin)) hin

end Lib
