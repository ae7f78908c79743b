import Mathlib.Data.List.Basic

/-!
# Records of one size on a stream

A sender writes records of `size` elements one after the other. The receiver takes
whatever arrives `size` elements at a time; what does not fill a piece stays behind until
more arrives. If every record decodes to what it was made from, the receiver gets the
values back in their order, and of a stream that is cut anywhere it gets those that
arrived whole (`records_take`).
-/

namespace Lib

variable {α β : Type*}

/-- The whole pieces of a stream. -/
def pieces (size : ℕ) (stream : List β) : List (List β) :=
  (List.range (stream.length / size)).map fun i => (stream.drop (i * size)).take size

/-- What is decoded from the pieces of a stream. -/
def records (size : ℕ) (decode : List β → Option α) (stream : List β) : List α :=
  (pieces size stream).filterMap decode

theorem pieces_nil (size : ℕ) : pieces size ([] : List β) = [] := by
  rw [pieces, List.length_nil, Nat.zero_div]
  rfl

theorem pieces_append {size : ℕ} (hpos : 0 < size) {piece : List β}
    (hpiece : piece.length = size) (stream : List β) :
    pieces size (piece ++ stream) = piece :: pieces size stream := by
  have hlen : (piece ++ stream).length / size = stream.length / size + 1 := by
    rw [List.length_append, hpiece, Nat.add_div_left _ hpos]
  rw [pieces, hlen, List.range_succ_eq_map, List.map_cons, List.map_map]
  congr 1
  · rw [Nat.zero_mul, List.drop_zero, List.take_left' hpiece]
  · refine List.map_congr_left fun i _ => ?_
    have hdrop : (piece ++ stream).drop ((i + 1) * size) = stream.drop (i * size) := by
      rw [Nat.add_one_mul, Nat.add_comm, ← hpiece, List.drop_append]
      simp
    exact congrArg (List.take size) hdrop

theorem pieces_of_lt {size : ℕ} {stream : List β} (h : stream.length < size) :
    pieces size stream = [] := by
  rw [pieces, Nat.div_eq_of_lt h]
  rfl

section

variable {size : ℕ} {encode : α → List β} {decode : List β → Option α} {as : List α}

/-- Of a stream that is cut after `n` elements the records in front of the cut come back. -/
theorem records_take (hpos : 0 < size) (hlen : ∀ a ∈ as, (encode a).length = size)
    (hdecode : ∀ a ∈ as, decode (encode a) = some a) (n : ℕ) :
    records size decode ((as.flatMap encode).take n) = as.take (n / size) := by
  induction as generalizing n with
  | nil => rw [List.flatMap_nil, List.take_nil, List.take_nil, records, pieces_nil,
      List.filterMap_nil]
  | cons a as ih =>
      have hsize := hlen a List.mem_cons_self
      have hrest := ih (fun b hb => hlen b (List.mem_cons_of_mem a hb)) fun b hb =>
        hdecode b (List.mem_cons_of_mem a hb)
      rw [List.flatMap_cons]
      by_cases hn : n < size
      · have hshort : ((encode a ++ as.flatMap encode).take n).length < size :=
          Nat.lt_of_le_of_lt (List.length_take_le ..) hn
        rw [records, pieces_of_lt hshort, Nat.div_eq_of_lt hn]
        rfl
      · obtain ⟨m, rfl⟩ := Nat.exists_eq_add_of_le (Nat.le_of_not_lt hn)
        have htake : (encode a ++ as.flatMap encode).take (size + m) =
            encode a ++ (as.flatMap encode).take m := by
          rw [← hsize, List.take_length_add_append]
        rw [htake, records, pieces_append hpos hsize, List.filterMap_cons,
          hdecode a List.mem_cons_self, Nat.add_div_left _ hpos, List.take_succ_cons]
        exact congrArg (a :: ·) (hrest m)

/-- What was written comes back. -/
theorem records_flatMap (hpos : 0 < size) (hlen : ∀ a ∈ as, (encode a).length = size)
    (hdecode : ∀ a ∈ as, decode (encode a) = some a) :
    records size decode (as.flatMap encode) = as := by
  have htotal : (as.flatMap encode).length = as.length * size := by
    rw [List.length_flatMap, List.map_congr_left hlen, List.map_const', List.sum_replicate_nat]
  have hcut := records_take hpos hlen hdecode (as.length * size)
  rwa [← htotal, List.take_length, htotal, Nat.mul_div_cancel _ hpos, List.take_length] at hcut

end

end Lib
