import Mathlib.Algebra.Group.Int.Defs
import Mathlib.Algebra.Group.Prod
import ConnectDisks.Lib.Line
import ConnectDisks.Game.FourAcross
import ConnectDisks.Proofs.BoardWf

/-!
# What the scanning loops find

A scan walks its two byte indices in a direction of the integer plane. While
the walk stays on the board the bytes are the coordinates; one step past the
edge they are the dimension, going up, or 255, going down, and either way the
loop condition fails there and nowhere earlier. `Heading.Tracks` is that
correspondence, and it needs nothing of the dimensions but that they are bytes:
a board of 255 columns has last column 254, so 255 is never a column.

With it a scan is the search for a line of `Lib.Line`: it returns exactly when
the points still missing from the count are all there, and otherwise stops at
the first that is not. Two scans out of the last move, the second with the count
of the first, then decide whether a line of four runs through it.
-/

namespace ConnectDisks.Game

open Lib

/-- The points of the plane a player's disks lie on. -/
def Board.owned (b : Board) (p : UInt8) : Set (ℤ × ℤ) :=
  { z | 0 ≤ z.1 ∧ 0 ≤ z.2 ∧ b.diskAt z.1.toNat z.2.toNat = some p }

namespace Heading

def shift : Heading → ℤ
  | .stay => 0
  | .up => 1
  | .down => -1

/-- The byte index `i` of a loop stands for the coordinate `z`, which is on the
board or one step past the edge the heading leads to. -/
def Tracks (h : Heading) (bound : UInt8) (z : ℤ) (i : UInt8) : Prop :=
  match h with
  | .stay => (i.toNat : ℤ) = z ∧ z < bound.toNat
  | .up => (i.toNat : ℤ) = z ∧ z ≤ bound.toNat
  | .down => z < bound.toNat ∧ ((i.toNat : ℤ) = z ∨ z = -1 ∧ i = 255)

theorem toNat_succ {i n : UInt8} (h : i.toNat < n.toNat) :
    (i + 1).toNat = i.toNat + 1 := by
  have := n.toNat_lt
  rw [UInt8.toNat_add]
  simp
  omega

theorem toNat_pred {i : UInt8} (h : i ≠ 0) : (i - 1).toNat = i.toNat - 1 := by
  have hpos : 1 ≤ i := by
    rw [UInt8.le_iff_toNat_le]
    have : i.toNat ≠ 0 := fun h0 => h (UInt8.toNat_inj.mp h0)
    exact Nat.pos_of_ne_zero this
  rw [UInt8.toNat_sub_of_le _ _ hpos]
  rfl

/-- From a coordinate on the board, one step keeps the correspondence. -/
theorem tracks_advance {h : Heading} {bound : UInt8} {z : ℤ} {i : UInt8}
    (hz : (i.toNat : ℤ) = z) (hlt : z < bound.toNat) :
    h.Tracks bound (z + h.shift) (h.advance i) := by
  cases h with
  | stay => exact ⟨by simpa [shift, advance] using hz, by simpa [shift] using hlt⟩
  | up =>
      have := toNat_succ (i := i) (n := bound) (by omega)
      refine ⟨?_, ?_⟩
      · simp only [shift, advance, this]; omega
      · simp only [shift]; omega
  | down =>
      refine ⟨by simp only [shift]; omega, ?_⟩
      by_cases h0 : i = 0
      · subst h0
        exact .inr ⟨by simp only [shift]; simp at hz; omega, rfl⟩
      · refine .inl ?_
        have hne : i.toNat ≠ 0 := fun h => h0 (UInt8.toNat_inj.mp h)
        simp only [shift, advance, toNat_pred h0]
        omega

/-- The loop condition holds exactly on the board: 255 marks the edge because
no row and no column is numbered 255. -/
theorem Tracks.inside_iff {h : Heading} {bound : UInt8} {z : ℤ} {i : UInt8}
    (ht : h.Tracks bound z i) :
    h.inside bound i = true ↔ (i.toNat : ℤ) = z ∧ z < bound.toNat := by
  have hbound := bound.toNat_lt
  cases h with
  | stay => exact ⟨fun _ => ht, fun _ => rfl⟩
  | up =>
      obtain ⟨hz, _⟩ := ht
      simp only [inside, decide_eq_true_eq, UInt8.lt_iff_toNat_lt]
      omega
  | down =>
      obtain ⟨hlt, hz⟩ := ht
      simp only [inside, bne_iff_ne]
      constructor
      · intro hne
        rcases hz with hz | ⟨_, rfl⟩
        · exact ⟨hz, hlt⟩
        · exact absurd rfl hne
      · rintro ⟨hz', _⟩ rfl
        simp at hz'
        omega

theorem Tracks.inside_of_nonneg {h : Heading} {bound : UInt8} {z : ℤ} {i : UInt8}
    (ht : h.Tracks bound z i) (h0 : 0 ≤ z) (hlt : z < bound.toNat) :
    h.inside bound i = true := by
  rw [ht.inside_iff]
  cases h with
  | stay => exact ht
  | up => exact ⟨ht.1, hlt⟩
  | down =>
      rcases ht.2 with hz | ⟨rfl, _⟩
      · exact ⟨hz, hlt⟩
      · omega

end Heading

/-- A way of looking at a cell that answers what is there, wherever a scan with
these headings can be. -/
def Reads (b : Board) (read : UInt8 → UInt8 → Except Fault UInt8)
    (ok : UInt8 → UInt8 → Prop) : Prop :=
  ∀ col row p, ok col row → b.diskAt col.toNat row.toNat = some p → read col row = .ok p

section

variable {b : Board} {read : UInt8 → UInt8 → Except Fault UInt8}
  {ok : UInt8 → UInt8 → Prop} {ch rh : Heading} {z : ℤ × ℤ} {col row : UInt8}

/-- One round of the loop: it goes on exactly when the point it stands for is
the player's. -/
theorem scan_round (hb : b.Shaped) (hread : Reads b read ok) (p : UInt8) (fuel count : Nat)
    (hok : ok col row) (hcol : ch.Tracks b.numColumns z.1 col)
    (hrow : rh.Tracks b.numRows z.2 row) :
    (z ∈ b.owned p ∧ (col.toNat : ℤ) = z.1 ∧ z.1 < b.numColumns.toNat ∧
      (row.toNat : ℤ) = z.2 ∧ z.2 < b.numRows.toNat ∧
      FourAcross.scan b read ch rh p (fuel + 1) col row count =
        if count + 1 == 4 then .ok .four
        else FourAcross.scan b read ch rh p fuel (ch.advance col) (rh.advance row)
          (count + 1)) ∨
    (z ∉ b.owned p ∧
      FourAcross.scan b read ch rh p (fuel + 1) col row count =
        .ok (.stopped count)) := by
  rw [FourAcross.scan]
  by_cases hin : (rh.inside b.numRows row && ch.inside b.numColumns col) = true
  · rw [if_pos hin]
    rw [Bool.and_eq_true] at hin
    obtain ⟨hr, hrlt⟩ := hrow.inside_iff.mp hin.1
    obtain ⟨hc, hclt⟩ := hcol.inside_iff.mp hin.2
    obtain ⟨q, hq⟩ := hb.diskAt_isSome (c := col.toNat) (r := row.toNat)
      (by omega) (by omega)
    rw [hread col row q hok hq]
    by_cases hqp : q = p
    · subst hqp
      refine .inl ⟨⟨by omega, by omega, ?_⟩, hc, hclt, hr, hrlt, ?_⟩
      · rw [← hc, ← hr]; simpa using hq
      · simp [bind, Except.bind]
        rfl
    · refine .inr ⟨?_, ?_⟩
      · rintro ⟨_, _, hz⟩
        rw [← hc, ← hr] at hz
        simp only [Int.toNat_natCast] at hz
        rw [hq] at hz
        exact hqp (Option.some.inj hz)
      · simp [bind, Except.bind, hqp, pure, Except.pure]
  · rw [if_neg hin]
    refine .inr ⟨?_, rfl⟩
    rintro ⟨h1, h2, hz⟩
    obtain ⟨hc, hr⟩ := hb.of_diskAt hz
    rw [Bool.and_eq_true] at hin
    exact hin ⟨hrow.inside_of_nonneg h2 (by omega), hcol.inside_of_nonneg h1 (by omega)⟩

/-- A scan that still needs `need + 1` disks returns when they are all there,
and otherwise stops at the first that is missing. -/
theorem scan_ok (hb : b.Shaped) (hread : Reads b read ok)
    (hnext : ∀ col row, ok col row → ok (ch.advance col) (rh.advance row)) (p : UInt8) :
    ∀ (need fuel : Nat) (col row : UInt8) (z : ℤ × ℤ) (count : Nat),
      need < fuel → count + (need + 1) = 4 → ok col row →
      ch.Tracks b.numColumns z.1 col → rh.Tracks b.numRows z.2 row →
      (FourAcross.scan b read ch rh p fuel col row count = .ok .four ∧
        IsLine (b.owned p) (need + 1) (ch.shift, rh.shift) z) ∨
      (∃ a ≤ need,
        FourAcross.scan b read ch rh p fuel col row count = .ok (.stopped (count + a)) ∧
        IsLine (b.owned p) a (ch.shift, rh.shift) z ∧
        z + a • (ch.shift, rh.shift) ∉ b.owned p) := by
  intro need
  induction need with
  | zero =>
      intro fuel col row z count hfuel hcount hok hcol hrow
      obtain ⟨f, rfl⟩ : ∃ n, fuel = n + 1 := ⟨fuel - 1, by omega⟩
      rcases scan_round hb hread p f count hok hcol hrow with
        ⟨hz, _, _, _, _, hrun⟩ | ⟨hz, hrun⟩
      · rw [if_pos (by simpa using hcount)] at hrun
        exact .inl ⟨hrun, isLine_succ.mpr ⟨hz, isLine_zero _ _ _⟩⟩
      · exact .inr ⟨0, Nat.le_refl _, hrun, isLine_zero _ _ _, by simpa using hz⟩
  | succ n ih =>
      intro fuel col row z count hfuel hcount hok hcol hrow
      obtain ⟨f, rfl⟩ : ∃ n, fuel = n + 1 := ⟨fuel - 1, by omega⟩
      rcases scan_round hb hread p f count hok hcol hrow with
        ⟨hz, hc, hclt, hr, hrlt, hrun⟩ | ⟨hz, hrun⟩
      · rw [if_neg (by simp; omega)] at hrun
        rw [hrun]
        rcases ih f _ _ (z + (ch.shift, rh.shift)) (count + 1) (by omega) (by omega)
            (hnext _ _ hok) (Heading.tracks_advance hc hclt)
            (Heading.tracks_advance hr hrlt) with
          ⟨hfour, hline⟩ | ⟨a, ha, hstop, hline, hnot⟩
        · exact .inl ⟨hfour, isLine_succ.mpr ⟨hz, hline⟩⟩
        · refine .inr ⟨a + 1, by omega, ?_, isLine_succ.mpr ⟨hz, hline⟩, ?_⟩
          · rw [hstop]; congr 2; omega
          · rwa [succ_nsmul', ← add_assoc]
      · exact .inr ⟨0, Nat.zero_le _, hrun, isLine_zero _ _ _, by simpa using hz⟩

end

/-- Two scans out of the last move, in opposite directions and with one count,
decide whether a line of four of that player runs through it. -/
theorem scanBoth_ok {g : FourAcross} (hb : g.board.Shaped)
    {read : UInt8 → UInt8 → Except Fault UInt8} {ok : UInt8 → UInt8 → Prop}
    (hread : Reads g.board read ok) (ch rh ch' rh' : Heading)
    (hnext : ∀ col row, ok col row → ok (ch.advance col) (rh.advance row))
    (hnext' : ∀ col row, ok col row → ok (ch'.advance col) (rh'.advance row))
    (hch : ch'.shift = -ch.shift) (hrh : rh'.shift = -rh.shift)
    (hok : ok g.lastMove.1 g.lastMove.2)
    (hc : g.lastMove.1.toNat < g.board.numColumns.toNat)
    (hr : g.lastMove.2.toNat < g.board.numRows.toNat) (p : UInt8) :
    ∃ found, g.scanBoth read p ch rh ch' rh' = .ok found ∧
      (found = true ↔ Through (g.board.owned p) 4 (ch.shift, rh.shift)
        ((g.lastMove.1.toNat : ℤ), (g.lastMove.2.toNat : ℤ))) := by
  have hopp : ((ch'.shift, rh'.shift) : ℤ × ℤ) = -(ch.shift, rh.shift) := by
    rw [hch, hrh]; rfl
  unfold FourAcross.scanBoth
  rcases scan_ok hb hread hnext p 2 256 _ _
      (((g.lastMove.1.toNat : ℤ), (g.lastMove.2.toNat : ℤ)) + (ch.shift, rh.shift)) 1
      (by omega) (by omega) (hnext _ _ hok)
      (Heading.tracks_advance rfl (Int.ofNat_lt.mpr hc))
      (Heading.tracks_advance rfl (Int.ofNat_lt.mpr hr)) with
    ⟨hfour, hline⟩ | ⟨a, ha, hstop, hline, hnot⟩
  · refine ⟨true, by simp [hfour, bind, Except.bind, pure, Except.pure], ?_⟩
    exact ⟨fun _ => ⟨3, 0, rfl, hline, isLine_zero _ _ _⟩, fun _ => rfl⟩
  · have hiff := through_iff_of_stop (k := 4) (by omega) hline hnot
    rcases scan_ok hb hread hnext' p (2 - a) 256 _ _
        (((g.lastMove.1.toNat : ℤ), (g.lastMove.2.toNat : ℤ)) + (ch'.shift, rh'.shift))
        (1 + a) (by omega) (by omega) (hnext' _ _ hok)
        (Heading.tracks_advance rfl (Int.ofNat_lt.mpr hc))
        (Heading.tracks_advance rfl (Int.ofNat_lt.mpr hr)) with
      ⟨hfour', hline'⟩ | ⟨a', ha', hstop', hline', hnot'⟩
    · refine ⟨true, by simp [hstop, hfour', bind, Except.bind, pure, Except.pure], ?_⟩
      rw [hopp, ← sub_eq_add_neg, show 2 - a + 1 = 4 - 1 - a by omega] at hline'
      exact ⟨fun _ => hiff.mpr hline', fun _ => rfl⟩
    · refine ⟨false, by simp [hstop, hstop', bind, Except.bind, pure, Except.pure], ?_⟩
      rw [hopp, ← sub_eq_add_neg] at hnot'
      refine ⟨fun h => Bool.noConfusion h, fun h => ?_⟩
      exact absurd (hiff.mp h a' (by omega)) hnot'

end ConnectDisks.Game
