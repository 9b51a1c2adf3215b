/-!
# Rows

A byte list is cut into rows of one width for dumps and listings. Only the last row can be shorter, no
row is empty, and the rows one after the other are the list.
-/
namespace FlowDisasm.Bytes

variable {α : Type}

/-- The rows of a list; a width of zero counts as one. -/
def rows (width : Nat) : List α → List (List α)
  | [] => []
  | x :: xs => (x :: xs.take (width - 1)) :: rows width (xs.drop (width - 1))
termination_by xs => xs.length
decreasing_by simp only [List.length_drop, List.length_cons]; omega

@[simp] theorem rows_nil (width : Nat) : rows width ([] : List α) = [] := by
  rw [rows]

theorem rows_cons (width : Nat) (x : α) (xs : List α) :
    rows width (x :: xs) = (x :: xs.take (width - 1)) :: rows width (xs.drop (width - 1)) := by
  rw [rows]

theorem flatten_rows (width : Nat) (xs : List α) : (rows width xs).flatten = xs := by
  fun_induction rows width xs with
  | case1 => rfl
  | case2 x xs ih => simp [ih]

end FlowDisasm.Bytes
