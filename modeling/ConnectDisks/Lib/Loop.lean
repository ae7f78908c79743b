import Mathlib.Data.List.Basic

/-!
# A token on a loop

A server asks a client for something and the client answers, over a queue each
way. Between the two the client keeps what it was asked and has not answered yet.
A request on its way down, a prompt, and an answer on its way up are three places
of one token.

Now and then the server starts afresh: a `hello` or a `done` on its way down makes
the client owe one `ready`, and a `done` makes it forget its prompts. Both queues
keep the order. So once the server has read the `ready`, no token from before is
left anywhere on the loop, and if the server sends none while it waits, there is
none at all (`Waits.pop_ready`).

`Holds n` and `Waits` are the two situations of a loop, and each is kept by
everything the client does (`Holds.turns`, `Waits.turns`).
-/

namespace Lib

inductive Down
  | plain
  | token
  | hello
  | done
deriving DecidableEq

inductive Up
  | plain
  | token
  | ready
deriving DecidableEq

structure Loop where
  down : List Down
  prompts : Nat
  due : Nat
  up : List Up

namespace Loop

variable {l l' : Loop} {n : Nat}

def push (l : Loop) (ds : List Down) : Loop := { l with down := l.down ++ ds }

/-- The server has read all but this. -/
def unread (l : Loop) (us : List Up) : Loop := { l with up := us }

/-- What the client makes of something it was sent. -/
def handle (l : Loop) : Down → Loop
  | .plain => l
  | .token => { l with prompts := l.prompts + 1 }
  | .hello => { l with due := l.due + 1 }
  | .done => { l with prompts := 0, due := l.due + 1 }

/-- What the client does: it handles what was sent, perhaps with a plain reply; it
answers; it says that it is ready. -/
inductive Turns (l : Loop) : Loop → Prop
  | deliver {d : Down} {ds : List Down} {us : List Up} (next : l.down = d :: ds)
      (plain : ∀ u ∈ us, u = .plain) :
      Turns l { l.handle d with down := ds, up := l.up ++ us }
  | answer (prompted : 0 < l.prompts) :
      Turns l { l with prompts := l.prompts - 1, up := l.up ++ [.token] }
  | ready (due : 0 < l.due) :
      Turns l { l with due := l.due - 1, up := l.up ++ [.ready] }

def tokens (l : Loop) : Nat := l.down.count .token + l.prompts + l.up.count .token

/-- There are `n` tokens on the loop, and nothing else that matters. -/
structure Holds (l : Loop) (n : Nat) : Prop where
  hello : .hello ∉ l.down
  done : .done ∉ l.down
  due : l.due = 0
  ready : .ready ∉ l.up
  tokens : l.tokens = n

/-- One `ready` is owed, somewhere on the loop, and every token is ahead of it. -/
inductive Waits (l : Loop) : Prop
  | greeting {a b : List Down} (down : l.down = a ++ .hello :: b)
      (ahead : ∀ d ∈ a, d = .plain) (behind : ∀ d ∈ b, d = .plain)
      (prompts : l.prompts = 0) (due : l.due = 0) (ready : .ready ∉ l.up)
  | ending {a b : List Down} (down : l.down = a ++ .done :: b)
      (hello : .hello ∉ a) (done : .done ∉ a)
      (behind : ∀ d ∈ b, d = .plain) (due : l.due = 0) (ready : .ready ∉ l.up)
  | owing (down : ∀ d ∈ l.down, d = .plain) (prompts : l.prompts = 0) (due : l.due = 1)
      (ready : .ready ∉ l.up)
  | saying {a b : List Up} (down : ∀ d ∈ l.down, d = .plain)
      (prompts : l.prompts = 0) (due : l.due = 0) (up : l.up = a ++ .ready :: b)
      (ready : .ready ∉ a) (behind : ∀ u ∈ b, u = .plain)

@[simp] theorem push_nil (l : Loop) : l.push [] = l := by
  simp [push]

theorem notMem_of_plain {α : Type*} {plain a : α} {xs : List α} (h : ∀ x ∈ xs, x = plain)
    (hne : a ≠ plain) : a ∉ xs := fun hin => hne (h a hin)

theorem plain_append {α : Type*} {plain : α} {xs ys : List α} (hx : ∀ x ∈ xs, x = plain)
    (hy : ∀ y ∈ ys, y = plain) : ∀ z ∈ xs ++ ys, z = plain := fun z hz =>
  (List.mem_append.mp hz).elim (hx z) (hy z)

/-! ## A loop that holds tokens -/

namespace Holds

theorem push (h : l.Holds n) {ds : List Down} (hhello : .hello ∉ ds) (hdone : .done ∉ ds) :
    (l.push ds).Holds (n + ds.count .token) := by
  refine ⟨?_, ?_, h.due, h.ready, ?_⟩
  · exact fun hin => (List.mem_append.mp hin).elim h.hello hhello
  · exact fun hin => (List.mem_append.mp hin).elim h.done hdone
  · have htokens := h.tokens
    simp only [Loop.tokens, Loop.push, List.count_append] at htokens ⊢
    omega

theorem push_plain (h : l.Holds n) {ds : List Down} (hplain : ∀ d ∈ ds, d = .plain) :
    (l.push ds).Holds n := by
  have hpush := h.push (notMem_of_plain hplain (show Down.hello ≠ .plain by decide))
    (notMem_of_plain hplain (by decide))
  rwa [List.count_eq_zero.mpr (notMem_of_plain hplain (by decide))] at hpush

theorem push_done (h : l.Holds n) : (l.push [.done]).Waits :=
  .ending (a := l.down) (b := []) rfl h.hello h.done (fun _ hd => by cases hd) h.due h.ready

theorem plain (h : l.Holds 0) :
    (∀ d ∈ l.down, d = .plain) ∧ l.prompts = 0 ∧ ∀ u ∈ l.up, u = .plain := by
  have htokens := h.tokens
  have hdown : l.down.count .token = 0 := by
    simp only [Loop.tokens] at htokens
    omega
  have hup : l.up.count .token = 0 := by
    simp only [Loop.tokens] at htokens
    omega
  refine ⟨fun d hd => ?_, ?_, fun u hu => ?_⟩
  · cases d with
    | plain => rfl
    | token => exact absurd hd (List.count_eq_zero.mp hdown)
    | hello => exact absurd hd h.hello
    | done => exact absurd hd h.done
  · simp only [Loop.tokens] at htokens
    omega
  · cases u with
    | plain => rfl
    | token => exact absurd hu (List.count_eq_zero.mp hup)
    | ready => exact absurd hu h.ready

theorem greet (h : l.Holds 0) : (l.push [.hello]).Waits := by
  obtain ⟨hdown, hprompts, _⟩ := h.plain
  exact .greeting (a := l.down) (b := []) rfl hdown (fun _ hd => by cases hd)
    hprompts h.due h.ready

theorem not_ready (h : l.Holds n) {us : List Up} : l.up ≠ .ready :: us := fun hup =>
  h.ready (hup ▸ List.mem_cons_self)

theorem pop_plain (h : l.Holds n) {us : List Up} (hup : l.up = .plain :: us) :
    (l.unread us).Holds n := by
  refine ⟨h.hello, h.done, h.due, fun hin => h.ready (hup ▸ List.mem_cons_of_mem _ hin), ?_⟩
  rw [← h.tokens]
  simp [Loop.tokens, unread, hup]

theorem pop_token (h : l.Holds n) {us : List Up} (hup : l.up = .token :: us) :
    ∃ k, n = k + 1 ∧ (l.unread us).Holds k := by
  refine ⟨(l.unread us).tokens, ?_, h.hello, h.done, h.due,
    fun hin => h.ready (hup ▸ List.mem_cons_of_mem _ hin), rfl⟩
  rw [← h.tokens]
  simp [Loop.tokens, unread, hup, Nat.add_assoc]

/-- The client moves tokens along, and makes and loses none. -/
theorem turns (h : l.Holds n) (ht : l.Turns l') : l'.Holds n := by
  have htokens := h.tokens
  cases ht with
  | @deliver d ds us hnext hplain =>
      have hup : us.count .token = 0 :=
        List.count_eq_zero.mpr (notMem_of_plain hplain (by decide))
      have hhello : .hello ∉ ds := fun hin => h.hello (hnext ▸ List.mem_cons_of_mem _ hin)
      have hdone : .done ∉ ds := fun hin => h.done (hnext ▸ List.mem_cons_of_mem _ hin)
      have hready : .ready ∉ l.up ++ us := fun hin =>
        (List.mem_append.mp hin).elim h.ready (notMem_of_plain hplain (by decide))
      simp only [Loop.tokens, hnext, List.count_cons] at htokens
      cases d with
      | plain =>
          refine ⟨hhello, hdone, h.due, hready, ?_⟩
          simp only [Loop.tokens, handle, List.count_append, hup]
          simpa using htokens
      | token =>
          refine ⟨hhello, hdone, h.due, hready, ?_⟩
          simp only [Loop.tokens, handle, List.count_append, hup]
          simp only [beq_self_eq_true, if_true] at htokens
          omega
      | hello => exact absurd (hnext ▸ List.mem_cons_self) h.hello
      | done => exact absurd (hnext ▸ List.mem_cons_self) h.done
  | answer hprompted =>
      refine ⟨h.hello, h.done, h.due, ?_, ?_⟩
      · exact fun hin => (List.mem_append.mp hin).elim h.ready (by simp)
      · simp only [Loop.tokens, List.count_append] at htokens ⊢
        simp only [List.count_singleton_self]
        omega
  | ready hdue =>
      rw [h.due] at hdue
      exact absurd hdue (Nat.lt_irrefl 0)

end Holds

/-! ## A loop that waits -/

namespace Waits

theorem push (h : l.Waits) {ds : List Down} (hplain : ∀ d ∈ ds, d = .plain) :
    (l.push ds).Waits := by
  cases h with
  | @greeting before after hdown hahead hbehind hprompts hdue hready =>
      refine .greeting (b := after ++ ds) ?_ hahead (plain_append hbehind hplain) hprompts
        hdue hready
      simp [Loop.push, hdown]
  | @ending before after hdown hhello hdone hbehind hdue hready =>
      refine .ending (b := after ++ ds) ?_ hhello hdone (plain_append hbehind hplain) hdue
        hready
      simp [Loop.push, hdown]
  | owing hdown hprompts hdue hready =>
      exact .owing (plain_append hdown hplain) hprompts hdue hready
  | saying hdown hprompts hdue hup hready hbehind =>
      exact .saying (plain_append hdown hplain) hprompts hdue hup hready hbehind

theorem hello (h : l.Waits) (hin : .hello ∈ l.down) :
    l.prompts = 0 ∧ l.due = 0 ∧ ∀ ds, l.down ≠ .token :: ds := by
  have hplain : (∀ d ∈ l.down, d = .plain) → False := fun hall => by
    cases hall _ hin
  cases h with
  | @greeting before after hdown hahead hbehind hprompts hdue _ =>
      refine ⟨hprompts, hdue, fun ds heq => ?_⟩
      rw [hdown] at heq
      cases before with
      | nil => cases (List.cons.inj heq).1
      | cons b before =>
          have hb := hahead b List.mem_cons_self
          rw [(List.cons.inj heq).1] at hb
          cases hb
  | @ending before after hdown hhello _ hbehind _ _ =>
      rw [hdown] at hin
      rcases List.mem_append.mp hin with hin | hin
      · exact absurd hin hhello
      · rcases List.mem_cons.mp hin with heq | hin
        · cases heq
        · cases hbehind _ hin
  | owing hdown _ _ _ => exact (hplain hdown).elim
  | saying hdown _ _ _ _ _ => exact (hplain hdown).elim

theorem pop (h : l.Waits) {u : Up} {us : List Up} (hup : l.up = u :: us) (hu : u ≠ .ready) :
    (l.unread us).Waits := by
  have hrest : .ready ∉ l.up → .ready ∉ us := fun hready hin =>
    hready (hup ▸ List.mem_cons_of_mem _ hin)
  cases h with
  | greeting hdown hahead hbehind hprompts hdue hready =>
      exact .greeting hdown hahead hbehind hprompts hdue (hrest hready)
  | ending hdown hhello hdone hbehind hdue hready =>
      exact .ending hdown hhello hdone hbehind hdue (hrest hready)
  | owing hdown hprompts hdue hready => exact .owing hdown hprompts hdue (hrest hready)
  | @saying before after hdown hprompts hdue hsaid hready hbehind =>
      rw [hup] at hsaid
      cases before with
      | nil => exact absurd (List.cons.inj hsaid).1 hu
      | cons b before =>
          exact .saying hdown hprompts hdue (List.cons.inj hsaid).2
            (fun hin => hready (List.mem_cons_of_mem b hin)) hbehind

theorem pop_ready (h : l.Waits) {us : List Up} (hup : l.up = .ready :: us) :
    (l.unread us).Holds 0 := by
  have hin : .ready ∈ l.up := hup ▸ List.mem_cons_self
  cases h with
  | greeting _ _ _ _ _ hready => exact absurd hin hready
  | ending _ _ _ _ _ hready => exact absurd hin hready
  | owing _ _ _ hready => exact absurd hin hready
  | @saying before after hdown hprompts hdue hsaid hready hbehind =>
      rw [hup] at hsaid
      cases before with
      | cons b before =>
          exact absurd ((List.cons.inj hsaid).1 ▸ List.mem_cons_self) hready
      | nil =>
          have hus : us = after := (List.cons.inj hsaid).2
          subst hus
          refine ⟨notMem_of_plain hdown (by decide), notMem_of_plain hdown (by decide), hdue,
            notMem_of_plain hbehind (by decide), ?_⟩
          have hdown' := List.count_eq_zero.mpr (notMem_of_plain (a := Down.token) hdown
            (by decide))
          have hup' := List.count_eq_zero.mpr (notMem_of_plain (a := Up.token) hbehind
            (by decide))
          simp only [Loop.tokens, unread, hdown', hup', hprompts]

theorem turns (h : l.Waits) (ht : l.Turns l') : l'.Waits := by
  cases ht with
  | @deliver d ds us hnext hplain =>
      have hready : .ready ∉ l.up → .ready ∉ l.up ++ us := fun hno hin =>
        (List.mem_append.mp hin).elim hno (notMem_of_plain hplain (by decide))
      have hplain_next : (∀ x ∈ l.down, x = .plain) → d = .plain ∧ ∀ x ∈ ds, x = .plain :=
        fun hall => ⟨hall d (hnext ▸ List.mem_cons_self),
          fun x hx => hall x (hnext ▸ List.mem_cons_of_mem d hx)⟩
      cases h with
      | @greeting before after hdown hahead hbehind hprompts hdue hno =>
          rw [hnext] at hdown
          cases before with
          | nil =>
              obtain ⟨rfl, rfl⟩ := List.cons.inj hdown
              exact .owing hbehind hprompts (congrArg (· + 1) hdue) (hready hno)
          | cons b before =>
              obtain ⟨rfl, rfl⟩ := List.cons.inj hdown
              obtain rfl := hahead d List.mem_cons_self
              exact .greeting rfl (fun x hx => hahead x (List.mem_cons_of_mem _ hx)) hbehind
                hprompts hdue (hready hno)
      | @ending before after hdown hhello hdone hbehind hdue hno =>
          rw [hnext] at hdown
          cases before with
          | nil =>
              obtain ⟨rfl, rfl⟩ := List.cons.inj hdown
              exact .owing hbehind rfl (congrArg (· + 1) hdue) (hready hno)
          | cons b before =>
              obtain ⟨rfl, rfl⟩ := List.cons.inj hdown
              have hhello' := fun hin => hhello (List.mem_cons_of_mem d hin)
              have hdone' := fun hin => hdone (List.mem_cons_of_mem d hin)
              cases d with
              | plain => exact .ending rfl hhello' hdone' hbehind hdue (hready hno)
              | token => exact .ending rfl hhello' hdone' hbehind hdue (hready hno)
              | hello => exact absurd List.mem_cons_self hhello
              | done => exact absurd List.mem_cons_self hdone
      | owing hdown hprompts hdue hno =>
          obtain ⟨rfl, hds⟩ := hplain_next hdown
          exact .owing hds hprompts hdue (hready hno)
      | @saying before after hdown hprompts hdue hup hno hbehind =>
          obtain ⟨rfl, hds⟩ := hplain_next hdown
          refine .saying (b := after ++ us) hds hprompts hdue ?_ hno
            (plain_append hbehind hplain)
          simp [hup]
  | answer hprompted =>
      have hready : .ready ∉ l.up → .ready ∉ l.up ++ [Up.token] := fun hno hin =>
        (List.mem_append.mp hin).elim hno (by simp)
      cases h with
      | greeting _ _ _ hprompts _ _ => exact absurd hprompts (Nat.ne_of_gt hprompted)
      | ending hdown hhello hdone hbehind hdue hno =>
          exact .ending hdown hhello hdone hbehind hdue (hready hno)
      | owing _ hprompts _ _ => exact absurd hprompts (Nat.ne_of_gt hprompted)
      | saying _ hprompts _ _ _ _ => exact absurd hprompts (Nat.ne_of_gt hprompted)
  | ready hpos =>
      cases h with
      | greeting _ _ _ _ hdue _ => exact absurd hdue (Nat.ne_of_gt hpos)
      | ending _ _ _ _ hdue _ => exact absurd hdue (Nat.ne_of_gt hpos)
      | owing hdown hprompts hdue hno =>
          refine .saying hdown hprompts ?_ rfl hno (fun _ hu => by cases hu)
          show l.due - 1 = 0
          rw [hdue]
      | saying _ _ hdue _ _ _ => exact absurd hdue (Nat.ne_of_gt hpos)

end Waits

end Loop

end Lib
