/-!
# Aligned text

Text stands at the left or at the right of a column. Text that is longer than its column is kept whole.
-/
namespace FlowDisasm.Text

/-- The side of a column that text stands at. -/
inductive Alignment where
  | left
  | right
  deriving DecidableEq

def blanks (count : Nat) : String :=
  String.ofList (List.replicate count ' ')

/-- Text in a column of a width. -/
def aligned (alignment : Alignment) (width : Nat) (text : String) : String :=
  match alignment with
  | .left => text ++ blanks (width - text.length)
  | .right => blanks (width - text.length) ++ text

theorem length_blanks (count : Nat) : (blanks count).length = count := by
  rw [blanks, String.length_ofList, List.length_replicate]

theorem blanks_append (first second : Nat) : blanks first ++ blanks second = blanks (first + second) := by
  rw [blanks, blanks, blanks, ← String.ofList_append, List.replicate_append_replicate]

theorem length_aligned (alignment : Alignment) (width : Nat) (text : String) :
    (aligned alignment width text).length = max width text.length := by
  cases alignment <;> simp [aligned, blanks] <;> omega

end FlowDisasm.Text
