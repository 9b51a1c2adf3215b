import FlowDisasm.Bytes.Rows
import Mathlib.Algebra.Order.Floor.Div

/-!
# The lengths of rows

All rows but the last are full, and the last one has at least one element. With the rows one after the
other being the list, this is all there is to say about them. So a row holds what stands behind the full
rows above it.
-/
namespace FlowDisasm.Bytes

variable {α : Type} {width : Nat} {xs : List α} {row : List α}

theorem rows_eq_nil_iff : rows width xs = [] ↔ xs = [] := by
  cases xs with
  | nil => simp
  | cons x xs => simp [rows_cons]

/-- No row is empty or longer than the width. -/
theorem length_of_mem_rows (h : row ∈ rows width xs) : 0 < row.length ∧ row.length ≤ max width 1 := by
  fun_induction rows width xs with
  | case1 => cases h
  | case2 x xs ih =>
    rcases List.mem_cons.mp h with rfl | hrest
    · rw [List.length_cons, List.length_take]
      omega
    · exact ih hrest

/-- Every row in front of another one is full. -/
theorem length_of_mem_dropLast_rows (h : row ∈ (rows width xs).dropLast) :
    row.length = max width 1 := by
  fun_induction rows width xs with
  | case1 => cases h
  | case2 x xs ih =>
    by_cases hlast : rows width (xs.drop (width - 1)) = []
    · rw [hlast, List.dropLast_singleton] at h
      cases h
    · have hlong : width - 1 < xs.length := by
        rw [rows_eq_nil_iff, List.drop_eq_nil_iff] at hlast
        omega
      rw [List.dropLast_cons_of_ne_nil hlast] at h
      rcases List.mem_cons.mp h with rfl | hrest
      · rw [List.length_cons, List.length_take]
        omega
      · exact ih hrest

/-- How many rows there are, and what each of them holds. -/
theorem rows_eq_map_range (width : Nat) (xs : List α) : rows width xs =
    (List.range (xs.length ⌈/⌉ max width 1)).map fun row =>
      (xs.drop (row * max width 1)).take (max width 1) := by
  fun_induction rows width xs with
  | case1 => rw [List.length_nil, zero_ceilDiv, List.range_zero, List.map_nil]
  | case2 x xs ih =>
    obtain ⟨rest, hrest⟩ : ∃ rest, max width 1 = rest + 1 := ⟨max width 1 - 1, by omega⟩
    have hwidth : width - 1 = rest := by omega
    have hbehind : (xs.length - rest + rest) / (rest + 1) = xs.length / (rest + 1) := by
      by_cases hlong : rest ≤ xs.length
      · rw [Nat.sub_add_cancel hlong]
      · rw [Nat.div_eq_of_lt (by omega), Nat.div_eq_of_lt (by omega)]
    have hcount : (x :: xs).length ⌈/⌉ (rest + 1) = (xs.drop rest).length ⌈/⌉ (rest + 1) + 1 := by
      rw [Nat.ceilDiv_eq_add_pred_div, Nat.ceilDiv_eq_add_pred_div, List.length_cons, List.length_drop]
      calc (xs.length + 1 + (rest + 1) - 1) / (rest + 1)
        _ = (xs.length + (rest + 1)) / (rest + 1) := by congr 1; omega
        _ = (xs.length - rest + rest) / (rest + 1) + 1 := by rw [Nat.add_div_right _ (Nat.succ_pos rest), hbehind]
    rw [hrest, hwidth] at ih
    rw [hrest, hwidth, ih, hcount, List.range_succ_eq_map, List.map_cons, List.map_map, Nat.zero_mul, List.drop_zero,
      List.take_succ_cons]
    congr 1
    apply List.map_congr_left
    intro row _
    rw [Function.comp_apply, List.drop_drop, Nat.succ_mul, ← Nat.add_assoc, List.drop_succ_cons,
      Nat.add_comm rest (row * _)]

end FlowDisasm.Bytes
