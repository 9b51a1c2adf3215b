/-!
# Pieces between separators

Text is cut at its first separator or at all of them. Nothing but separators is lost: the pieces with
separators between them are the text again.
-/
namespace FlowDisasm.Text

/-- The characters before and behind the first separator, if there is one. -/
def splitFirst (separator : Char) : List Char → Option (List Char × List Char)
  | [] => none
  | c :: rest =>
    if c = separator then some ([], rest)
    else (splitFirst separator rest).map fun (front, back) => (c :: front, back)

/-- The pieces between separators, at least one. -/
def pieces (separator : Char) : List Char → List (List Char)
  | [] => [[]]
  | c :: rest =>
    if c = separator then [] :: pieces separator rest
    else
      match pieces separator rest with
      | [] => [[c]]
      | first :: others => (c :: first) :: others

theorem splitFirst_append (separator : Char) (front back : List Char) (h : separator ∉ front) :
    splitFirst separator (front ++ separator :: back) = some (front, back) := by
  induction front with
  | nil => simp [splitFirst]
  | cons c rest ih =>
    simp only [List.mem_cons, not_or] at h
    simp [splitFirst, Ne.symm h.1, ih h.2]

theorem splitFirst_eq_none_iff (separator : Char) (text : List Char) :
    splitFirst separator text = none ↔ separator ∉ text := by
  induction text with
  | nil => simp [splitFirst]
  | cons c rest ih =>
    by_cases h : c = separator
    · simp [splitFirst, h]
    · simp [splitFirst, h, Ne.symm h, ih]

end FlowDisasm.Text
