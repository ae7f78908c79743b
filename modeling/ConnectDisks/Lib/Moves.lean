import Mathlib.Logic.Function.Basic
import Mathlib.Data.Option.Basic

/-!
# Values that are moved

Variables of a type with constructors, operations, and the moves: one variable is
constructed from another, or assigned from another, and the other is left behind as a
husk that can still be used. `Movable` is such a type, as it is implemented, and `exec`
runs a program on any number of its variables.

`Values` is what a reader of such a program thinks of: a variable holds a value or it
has been moved out, a move takes the value along whole, and a husk answers every
operation in one way, whatever it once held. An implementation that `Implements` this
answers every program the same (`exec_answers`).
-/

namespace Lib

/-- A type that is moved: `moveNew x` and `moveInto x y` give the new value of the
target first and what is left of the source second; `moveSelf` is an assignment of a
variable to itself. -/
structure Movable (α κ ω ρ : Type*) where
  make : κ → Except ρ α
  call : α → ω → ρ × α
  moveNew : α → α × α
  moveInto : α → α → α × α
  moveSelf : α → α

/-- Constructing a variable, using it, and the two moves. -/
inductive Instr (ι κ ω : Type*)
  | make (v : ι) (args : κ)
  | call (v : ι) (op : ω)
  | moveNew (v source : ι)
  | moveInto (v source : ι)
deriving DecidableEq

namespace Movable

variable {ι α κ ω ρ : Type*} [DecidableEq ι]

/-- One instruction, unless it uses a variable that is not there, or constructs one that
is. The answer of a move is nothing. -/
def step (M : Movable α κ ω ρ) (vars : ι → Option α) :
    Instr ι κ ω → Option ((ι → Option α) × Option ρ)
  | .make v args =>
      match vars v with
      | some _ => none
      | none =>
          match M.make args with
          | .ok x => some (Function.update vars v (some x), none)
          | .error answer => some (vars, some answer)
  | .call v op =>
      (vars v).map fun x =>
        (Function.update vars v (some (M.call x op).2), some (M.call x op).1)
  | .moveNew v source =>
      match vars v, vars source with
      | none, some x =>
          some (Function.update (Function.update vars source (some (M.moveNew x).2)) v
            (some (M.moveNew x).1), none)
      | _, _ => none
  | .moveInto v source =>
      match vars v, vars source with
      | some x, some y =>
          if v = source then some (Function.update vars v (some (M.moveSelf x)), none)
          else
            some (Function.update (Function.update vars source (some (M.moveInto x y).2)) v
              (some (M.moveInto x y).1), none)
      | _, _ => none

/-- A program, with the answers in order. -/
def exec (M : Movable α κ ω ρ) (vars : ι → Option α) :
    List (Instr ι κ ω) → Option ((ι → Option α) × List ρ)
  | [] => some (vars, [])
  | i :: is =>
      (M.step vars i).bind fun out =>
        (M.exec out.1 is).map fun rest => (rest.1, out.2.toList ++ rest.2)

end Movable

/-- What a program on such variables means: values, and what a husk answers. -/
structure Values (β κ ω ρ : Type*) where
  make : κ → Except ρ β
  call : β → ω → ρ × β
  husk : ω → ρ

/-- A variable that holds a value, or was moved out. -/
def Values.movable {β κ ω ρ : Type*} (V : Values β κ ω ρ) : Movable (Option β) κ ω ρ where
  make args := (V.make args).map some
  call
    | some x, op => ((V.call x op).1, some (V.call x op).2)
    | none, op => (V.husk op, none)
  moveNew x := (x, none)
  moveInto _ y := (y, none)
  moveSelf _ := none

/-- An implementation: `Means x o` says that `x` represents the value `o`, or may be
left of one that was moved. -/
structure Implements {α β κ ω ρ : Type*} (M : Movable α κ ω ρ) (V : Values β κ ω ρ)
    (Means : α → Option β → Prop) : Prop where
  make : ∀ args, (∃ x y, M.make args = .ok x ∧ V.make args = .ok y ∧ Means x (some y)) ∨
    ∃ answer, M.make args = .error answer ∧ V.make args = .error answer
  call : ∀ x o op, Means x o → (M.call x op).1 = (V.movable.call o op).1 ∧
    Means (M.call x op).2 (V.movable.call o op).2
  moveNew : ∀ x o, Means x o → Means (M.moveNew x).1 o ∧ Means (M.moveNew x).2 none
  moveInto : ∀ x' o' x o, Means x' o' → Means x o →
    Means (M.moveInto x' x).1 o ∧ Means (M.moveInto x' x).2 none
  moveSelf : ∀ x o, Means x o → Means (M.moveSelf x) none

theorem rel_cases {α β : Type*} {R : α → β → Prop} {x : Option α} {y : Option β}
    (h : Option.Rel R x y) : (x = none ∧ y = none) ∨ ∃ a b, x = some a ∧ y = some b ∧ R a b := by
  cases h with
  | none => exact .inl ⟨rfl, rfl⟩
  | some h => exact .inr ⟨_, _, rfl, rfl, h⟩

namespace Implements

variable {ι α β κ ω ρ : Type*} [DecidableEq ι] {M : Movable α κ ω ρ} {V : Values β κ ω ρ}
  {Means : α → Option β → Prop}

/-- The variables of a program, and what they mean. -/
def Mean (Means : α → Option β → Prop) (vars : ι → Option α) (vals : ι → Option (Option β)) :
    Prop :=
  ∀ v, Option.Rel Means (vars v) (vals v)

theorem Mean.update {vars : ι → Option α} {vals : ι → Option (Option β)}
    (h : Mean Means vars vals) (v : ι) {x : α} {o : Option β} (hx : Means x o) :
    Mean Means (Function.update vars v (some x)) (Function.update vals v (some o)) := by
  intro v'
  by_cases hv : v' = v
  · rw [hv, Function.update_self, Function.update_self]
    exact .some hx
  · rw [Function.update_of_ne hv, Function.update_of_ne hv]
    exact h v'

/-- Both take the step, with the same answer, or neither does. -/
def Steps (Means : α → Option β → Prop) :
    Option ((ι → Option α) × Option ρ) → Option ((ι → Option (Option β)) × Option ρ) → Prop :=
  Option.Rel fun out out' => Mean Means out.1 out'.1 ∧ out.2 = out'.2

theorem step (h : Implements M V Means) {vars : ι → Option α} {vals : ι → Option (Option β)}
    (hm : Mean Means vars vals) (i : Instr ι κ ω) :
    Steps Means (M.step vars i) (V.movable.step vals i) := by
  cases i with
  | make v args =>
      rcases rel_cases (hm v) with ⟨hx, ho⟩ | ⟨x, o, hx, ho, _⟩
      · rcases h.make args with ⟨x, y, hmake, hmake', hxy⟩ | ⟨answer, hmake, hmake'⟩
        · simp only [Movable.step, Values.movable, hx, ho, hmake, hmake', Except.map]
          exact .some ⟨hm.update v hxy, rfl⟩
        · simp only [Movable.step, Values.movable, hx, ho, hmake, hmake', Except.map]
          exact .some ⟨hm, rfl⟩
      · simp only [Movable.step, hx, ho]
        exact .none
  | call v op =>
      rcases rel_cases (hm v) with ⟨hx, ho⟩ | ⟨x, o, hx, ho, hxo⟩
      · simp only [Movable.step, hx, ho, Option.map_none]
        exact .none
      · obtain ⟨hanswer, hafter⟩ := h.call x o op hxo
        simp only [Movable.step, hx, ho, Option.map_some]
        exact .some ⟨hm.update v hafter, congrArg some hanswer⟩
  | moveNew v source =>
      rcases rel_cases (hm v) with ⟨hx, ho⟩ | ⟨x, o, hx, ho, _⟩
      · rcases rel_cases (hm source) with ⟨hy, ho'⟩ | ⟨y, o', hy, ho', hyo⟩
        · simp only [Movable.step, hx, ho, hy, ho']
          exact .none
        · obtain ⟨hnew, hleft⟩ := h.moveNew y o' hyo
          simp only [Movable.step, hx, ho, hy, ho']
          exact .some ⟨(hm.update source hleft).update v hnew, rfl⟩
      · simp only [Movable.step, hx, ho]
        exact .none
  | moveInto v source =>
      rcases rel_cases (hm v) with ⟨hx, ho⟩ | ⟨x, o, hx, ho, hxo⟩
      · simp only [Movable.step, hx, ho]
        exact .none
      · rcases rel_cases (hm source) with ⟨hy, ho'⟩ | ⟨y, o', hy, ho', hyo⟩
        · simp only [Movable.step, hx, ho, hy, ho']
          exact .none
        · by_cases hv : v = source
          · simp only [Movable.step, hx, ho, hy, ho', if_pos hv]
            exact .some ⟨hm.update v (h.moveSelf x o hxo), rfl⟩
          · obtain ⟨hnew, hleft⟩ := h.moveInto x o y o' hxo hyo
            simp only [Movable.step, hx, ho, hy, ho', if_neg hv]
            exact .some ⟨(hm.update source hleft).update v hnew, rfl⟩

/-- Every program gets the same answers from the implementation as from the values. -/
theorem exec_answers (h : Implements M V Means) {vars : ι → Option α}
    {vals : ι → Option (Option β)} (hm : Mean Means vars vals) (is : List (Instr ι κ ω)) :
    (M.exec vars is).map Prod.snd = (V.movable.exec vals is).map Prod.snd := by
  induction is generalizing vars vals with
  | nil => rfl
  | cons i is ih =>
      rw [Movable.exec, Movable.exec]
      rcases rel_cases (h.step hm i) with ⟨hs, hs'⟩ | ⟨out, out', hs, hs', hm', hanswer⟩
      · rw [hs, hs']
        rfl
      · have hrest := congrArg (Option.map (out.2.toList ++ ·)) (ih hm')
        rw [hs, hs', Option.bind_some, Option.bind_some, ← hanswer]
        simpa only [Option.map_map, Function.comp_def] using hrest

end Implements

end Lib
