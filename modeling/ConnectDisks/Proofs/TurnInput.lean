import ConnectDisks.Client.ConsoleClient

/-!
# What counts as a turn

The callback of a turn takes a word if all of it is a number `stoi` can read and the number
is that of a column. `turnColumn_iff` says which words these are: decimal digits for one of
the numbers 1 to `maxColumns`, with as many zeros and blanks before them as one likes and
a plus sign if one likes; and the column that is sent for it is one less. In particular it
is a column of the board, never the one that stands for a request (`requestTurn`).
-/

namespace ConnectDisks.Net

/-- The signs, and whether they make a number negative. -/
inductive Sign : List Char → Bool → Prop
  | none : Sign [] false
  | plus : Sign ['+'] false
  | minus : Sign ['-'] true

/-- A text that is a number from its first character to its last. -/
structure Numeral (str spaces sign digits : List Char) (negative : Bool) : Prop where
  eq : str = spaces ++ (sign ++ digits)
  blank : ∀ c ∈ spaces, isSpace c = true
  signed : Sign sign negative
  decimal : ∀ c ∈ digits, c.isDigit = true
  nonempty : digits ≠ []

def numeralValue (digits : List Char) (negative : Bool) : Int :=
  if negative then -(Nat.ofDigitChars 10 digits 0 : Int) else Nat.ofDigitChars 10 digits 0

theorem digit_plain {c : Char} (h : c.isDigit = true) :
    isSpace c = false ∧ c ≠ '+' ∧ c ≠ '-' := by
  refine ⟨?_, ?_, ?_⟩
  · have hrange : 48 ≤ c.toNat := by
      simp only [Char.isDigit, Bool.and_eq_true, decide_eq_true_eq] at h
      exact h.1
    simp only [isSpace, Bool.or_eq_false_iff, beq_eq_false_iff_ne, Bool.and_eq_false_iff,
      decide_eq_false_iff_not]
    refine ⟨?_, .inr (by omega)⟩
    rintro rfl
    exact absurd h (by decide)
  · rintro rfl
    exact absurd h (by decide)
  · rintro rfl
    exact absurd h (by decide)

theorem signOf_of_digit {c : Char} (h : c.isDigit = true) (rest : List Char) :
    signOf (c :: rest) = ([], false) := by
  obtain ⟨_, hplus, hminus⟩ := digit_plain h
  unfold signOf
  split
  · next heq => exact absurd (List.cons.inj heq).1 hminus
  · next heq => exact absurd (List.cons.inj heq).1 hplus
  · rfl

namespace Numeral

variable {str spaces sign digits : List Char} {negative : Bool}

theorem exists_head (h : Numeral str spaces sign digits negative) :
    ∃ d ds, digits = d :: ds ∧ d.isDigit = true := by
  cases hd : digits with
  | nil => exact absurd hd h.nonempty
  | cons d ds => exact ⟨d, ds, rfl, h.decimal d (hd ▸ List.mem_cons_self)⟩

theorem signOf_eq (h : Numeral str spaces sign digits negative) :
    signOf (sign ++ digits) = (sign, negative) := by
  obtain ⟨d, ds, rfl, hd⟩ := h.exists_head
  cases h.signed with
  | none => exact signOf_of_digit hd ds
  | plus => rfl
  | minus => rfl

theorem takeWhile_spaces (h : Numeral str spaces sign digits negative) :
    str.takeWhile isSpace = spaces := by
  obtain ⟨d, ds, hdigits, hd⟩ := h.exists_head
  have hstop : (sign ++ digits).takeWhile isSpace = [] := by
    rw [hdigits]
    cases h.signed with
    | none => exact List.takeWhile_cons_of_neg (by simp [(digit_plain hd).1])
    | plus => rfl
    | minus => rfl
  rw [h.eq, List.takeWhile_append_of_pos h.blank, hstop, List.append_nil]

theorem stoi_eq (h : Numeral str spaces sign digits negative)
    (hmin : -2 ^ 31 ≤ numeralValue digits negative)
    (hmax : numeralValue digits negative < 2 ^ 31) :
    stoi str = some (numeralValue digits negative, str.length) := by
  have hrest : str.drop spaces.length = sign ++ digits := by
    rw [h.eq, List.drop_left]
  have hall : digits.takeWhile Char.isDigit = digits := by
    have happend : (digits ++ []).takeWhile Char.isDigit = digits ++ [].takeWhile Char.isDigit :=
      List.takeWhile_append_of_pos h.decimal
    rwa [List.append_nil, List.takeWhile_nil, List.append_nil] at happend
  have hlength : str.length = spaces.length + sign.length + digits.length := by
    rw [h.eq, List.length_append, List.length_append, Nat.add_assoc]
  unfold stoi
  simp only [h.takeWhile_spaces, hrest, h.signOf_eq, List.drop_left, hall, hlength]
  exact if_pos ⟨h.nonempty, hmin, hmax⟩

end Numeral

theorem signOf_sign (str : List Char) :
    Sign (signOf str).1 (signOf str).2 ∧
      str = (signOf str).1 ++ str.drop (signOf str).1.length := by
  unfold signOf
  split
  · exact ⟨.minus, rfl⟩
  · exact ⟨.plus, rfl⟩
  · exact ⟨.none, rfl⟩

theorem numeral_of_stoi {str : List Char} {value : Int} (h : stoi str = some (value, str.length)) :
    ∃ spaces sign digits negative, Numeral str spaces sign digits negative ∧
      value = numeralValue digits negative := by
  obtain ⟨⟨hne, _, _⟩, heq⟩ := Option.ite_none_right_eq_some.mp h
  obtain ⟨hvalue, hpos⟩ := Prod.mk.inj (Option.some.inj heq)
  generalize hspaces : str.takeWhile isSpace = spaces at hne hvalue hpos
  generalize hrest : str.drop spaces.length = rest at hne hvalue hpos
  generalize hsign : signOf rest = sign at hne hvalue hpos
  generalize hdigits : (rest.drop sign.1.length).takeWhile Char.isDigit = digits
    at hne hvalue hpos
  obtain ⟨hsigned, hsplit⟩ := signOf_sign rest
  rw [hsign] at hsigned hsplit
  have hstr : spaces ++ rest = str := by
    rw [← hrest, ← hspaces]
    exact List.prefix_iff_eq_append.mp (List.takeWhile_prefix _)
  obtain ⟨tail, htail⟩ : digits <+: rest.drop sign.1.length :=
    hdigits ▸ List.takeWhile_prefix _
  have hend : tail = [] := by
    have hlength := congrArg List.length hstr
    rw [hsplit, ← htail] at hlength
    simp only [List.length_append] at hlength
    exact List.eq_nil_of_length_eq_zero (by omega)
  rw [hend, List.append_nil] at htail
  refine ⟨spaces, sign.1, digits, sign.2, ⟨?_, ?_, hsigned, ?_, hne⟩, hvalue.symm⟩
  · rw [← hstr, hsplit, htail]
  · exact hspaces ▸ fun c hc => List.all_eq_true.mp List.all_takeWhile c hc
  · exact hdigits ▸ fun c hc => List.all_eq_true.mp List.all_takeWhile c hc

theorem sent_toNat (n : Nat) : UInt8.ofInt ((n + 1 : Nat) - 1 : Int) = UInt8.ofNat n := by
  have hmod : (((n + 1 : Nat) - 1 : Int) % 2 ^ 8).toNat = n % 256 := by omega
  rw [UInt8.ofInt, hmod, ← UInt8.toNat_inj, UInt8.toNat_ofNat', UInt8.toNat_ofNat']
  exact Nat.mod_mod ..

theorem numeral_of_turnColumn {maxColumns column : UInt8} {input : List Char}
    (h : turnColumn maxColumns input = some column) :
    ∃ spaces sign digits, Numeral input spaces sign digits false ∧
      Nat.ofDigitChars 10 digits 0 = column.toNat + 1 ∧ column.toNat < maxColumns.toNat := by
  have hbyte := maxColumns.toNat_lt
  rw [turnColumn] at h
  split at h
  · next value pos hstoi =>
      obtain ⟨⟨hpos, hone, hmax⟩, heq⟩ := Option.ite_none_right_eq_some.mp h
      subst hpos
      obtain ⟨spaces, sign, digits, negative, hnumeral, rfl⟩ := numeral_of_stoi hstoi
      cases negative with
      | true =>
          rw [numeralValue, if_pos rfl] at hone
          omega
      | false =>
          rw [numeralValue, if_neg (by decide)] at hone hmax heq
          obtain ⟨n, hn⟩ : ∃ n, Nat.ofDigitChars 10 digits 0 = n + 1 :=
            Nat.exists_eq_add_of_le' (by omega)
          rw [hn] at hmax heq
          have hcolumn : column.toNat = n := by
            rw [← Option.some.inj heq, sent_toNat, UInt8.toNat_ofNat']
            exact Nat.mod_eq_of_lt (by omega)
          exact ⟨spaces, sign, digits, hnumeral, by omega, by omega⟩
  · cases h

theorem Numeral.turnColumn_eq {maxColumns column : UInt8}
    {input spaces sign digits : List Char} (h : Numeral input spaces sign digits false)
    (hvalue : Nat.ofDigitChars 10 digits 0 = column.toNat + 1)
    (hlt : column.toNat < maxColumns.toNat) : turnColumn maxColumns input = some column := by
  have hbyte := maxColumns.toNat_lt
  have hint : numeralValue digits false = (column.toNat : Int) + 1 := by
    rw [numeralValue, if_neg (by decide), hvalue]
    rfl
  have hstoi := h.stoi_eq (by omega) (by omega)
  rw [turnColumn, hstoi]
  show (if input.length = input.length ∧ 0 < numeralValue digits false ∧
    numeralValue digits false ≤ (maxColumns.toNat : Int) then
      some (UInt8.ofInt (numeralValue digits false - 1)) else none) = some column
  rw [if_pos ⟨rfl, by omega, by omega⟩, hint]
  exact congrArg some ((sent_toNat column.toNat).trans UInt8.ofNat_toNat)

/-- A word is taken as a turn in a column exactly if it is the number of that column,
counted from 1. -/
theorem turnColumn_iff {maxColumns column : UInt8} {input : List Char} :
    turnColumn maxColumns input = some column ↔
      ∃ spaces sign digits, Numeral input spaces sign digits false ∧
        Nat.ofDigitChars 10 digits 0 = column.toNat + 1 ∧
        column.toNat < maxColumns.toNat := by
  constructor
  · exact numeral_of_turnColumn
  · rintro ⟨spaces, sign, digits, hnumeral, hvalue, hlt⟩
    exact hnumeral.turnColumn_eq hvalue hlt

/-- What is sent is a column, and not a request for one. -/
theorem turnColumn_lt {maxColumns column : UInt8} {input : List Char}
    (h : turnColumn maxColumns input = some column) : column.toNat < maxColumns.toNat := by
  obtain ⟨_, _, _, _, _, hlt⟩ := numeral_of_turnColumn h
  exact hlt

end ConnectDisks.Net
