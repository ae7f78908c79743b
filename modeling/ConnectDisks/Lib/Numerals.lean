import Mathlib.Tactic.TypeStar

/-!
# Numbers in a text

Programs print numbers between words, bars and line breaks. `numbersIn` reads them
back: it looks for the longest runs of decimal digits, and whatever stands between two
runs only has to contain no digit. So for a text that was put together from numerals
and such fillings, its numbers are those it was made of, in order.
-/

namespace Lib

/-- The decimal numbers in a text, in order. -/
def numbersIn (text : List Char) : List Nat :=
  ((text.splitOnP fun c => !c.isDigit).filter (· ≠ [])).map fun ds => Nat.ofDigitChars 10 ds 0

/-- A text with no digits. -/
def Blank (text : List Char) : Prop := ∀ c ∈ text, c.isDigit = false

instance (text : List Char) : Decidable (Blank text) :=
  List.decidableBAll (fun c : Char => c.isDigit = false) text

theorem blank_replicate {c : Char} (h : c.isDigit = false) (n : Nat) :
    Blank (List.replicate n c) :=
  fun _ hd => List.eq_of_mem_replicate hd ▸ h

@[simp] theorem numbersIn_nil : numbersIn [] = [] := rfl

theorem numbersIn_cons {c : Char} (h : c.isDigit = false) (text : List Char) :
    numbersIn (c :: text) = numbersIn text := by
  rw [numbersIn, List.splitOnP_cons_eq_if_modifyHead, if_pos (by simp [h])]
  rfl

/-- What has no digits does not show. -/
theorem numbersIn_blank_append {filling : List Char} (h : Blank filling) (text : List Char) :
    numbersIn (filling ++ text) = numbersIn text := by
  induction filling with
  | nil => rfl
  | cons c filling ih =>
      rw [List.cons_append, numbersIn_cons (h c List.mem_cons_self)]
      exact ih fun d hd => h d (List.mem_cons_of_mem c hd)

theorem numbersIn_blank {filling : List Char} (h : Blank filling) : numbersIn filling = [] := by
  have := numbersIn_blank_append h []
  rwa [List.append_nil] at this

theorem digits_isDigit (n : Nat) : ∀ c ∈ Nat.toDigits 10 n, (!c.isDigit) = false := by
  intro c hc
  rw [Nat.isDigit_of_mem_toDigits (by decide) (by decide) hc]
  rfl

/-- A numeral ends where a text begins that does not begin with a digit. -/
theorem numbersIn_digits_append (n : Nat) {text : List Char}
    (h : ∀ c ∈ text.head?, c.isDigit = false) :
    numbersIn (Nat.toDigits 10 n ++ text) = n :: numbersIn text := by
  cases text with
  | nil =>
      rw [List.append_nil, numbersIn, List.splitOnP_eq_singleton (digits_isDigit n),
        List.filter_cons_of_pos (by simp [Nat.toDigits_ne_nil]), List.map_cons,
        Nat.ofDigitChars_ten_toDigits]
      rfl
  | cons c text =>
      have hc : c.isDigit = false := h c rfl
      rw [numbersIn, List.splitOnP_append_cons_of_forall_mem (digits_isDigit n) c (by simp [hc]),
        List.filter_cons_of_pos (by simp [Nat.toDigits_ne_nil]), List.map_cons,
        Nat.ofDigitChars_ten_toDigits, numbersIn_cons hc, numbersIn]

/-- The lines of a text that ends with a line break. -/
theorem splitOn_line {line : List Char} (h : '\n' ∉ line) (text : List Char) :
    (line ++ '\n' :: text).splitOn '\n' = line :: text.splitOn '\n' :=
  List.splitOn_append_cons_self_of_not_mem h text

/-- The numbers of each line, for the lines that have any. -/
def numbersByLine (text : List Char) : List (List Nat) :=
  ((text.splitOn '\n').map numbersIn).filter (· ≠ [])

@[simp] theorem numbersByLine_nil : numbersByLine [] = [] := rfl

theorem numbersByLine_append {line : List Char} (h : '\n' ∉ line) (text : List Char) :
    numbersByLine (line ++ '\n' :: text) =
      if numbersIn line = [] then numbersByLine text
      else numbersIn line :: numbersByLine text := by
  rw [numbersByLine, splitOn_line h, List.map_cons, List.filter_cons, numbersByLine]
  by_cases hnone : numbersIn line = []
  · rw [if_pos hnone, if_neg (by simp [hnone])]
  · rw [if_neg hnone, if_pos (by simp [hnone])]

end Lib
