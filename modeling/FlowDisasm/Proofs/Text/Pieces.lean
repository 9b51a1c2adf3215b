import FlowDisasm.Text.Pieces

/-!
# Texts and their pieces

A text is cut at its first separator into parts of which the first one has no separator, and at all separators into
pieces that have none. There is just one way to put a text together from such parts, so cutting undoes it.
-/
namespace FlowDisasm.Text

variable {separator : Char} {text front back first : List Char} {others : List (List Char)}

theorem splitFirst_eq_some_iff :
    splitFirst separator text = some (front, back) ↔ text = front ++ separator :: back ∧ separator ∉ front := by
  constructor
  · intro h
    induction text generalizing front with
    | nil => cases h
    | cons c rest ih =>
      by_cases hc : c = separator
      · simp only [splitFirst, if_pos hc, Option.some.injEq, Prod.mk.injEq] at h
        obtain ⟨rfl, rfl⟩ := h
        simp [hc]
      · simp only [splitFirst, if_neg hc, Option.map_eq_some_iff, Prod.mk.injEq, Prod.exists] at h
        obtain ⟨front, back, hsplit, rfl, rfl⟩ := h
        obtain ⟨rfl, hfront⟩ := ih hsplit
        simp [hfront, Ne.symm hc]
  · rintro ⟨rfl, hfront⟩
    exact splitFirst_append separator front back hfront

theorem pieces_of_not_mem (h : separator ∉ text) : pieces separator text = [text] := by
  induction text with
  | nil => rfl
  | cons c rest ih =>
    rw [List.mem_cons, not_or] at h
    simp [pieces, Ne.symm h.1, ih h.2]

theorem pieces_append (back : List Char) (h : separator ∉ front) :
    pieces separator (front ++ separator :: back) = front :: pieces separator back := by
  induction front with
  | nil => simp [pieces]
  | cons c rest ih =>
    rw [List.mem_cons, not_or] at h
    simp [pieces, Ne.symm h.1, ih h.2]

/-- Pieces with separators between them are cut into these pieces again. -/
theorem pieces_join (hfirst : separator ∉ first) (hothers : ∀ piece ∈ others, separator ∉ piece) :
    pieces separator (first ++ others.flatMap (separator :: ·)) = first :: others := by
  induction others generalizing first with
  | nil => simpa using pieces_of_not_mem hfirst
  | cons piece others ih =>
    rw [List.forall_mem_cons] at hothers
    rw [List.flatMap_cons, List.cons_append, pieces_append _ hfirst, ih hothers.1 hothers.2]

theorem pieces_intercalate (hothers : others ≠ []) (h : ∀ piece ∈ others, separator ∉ piece) :
    pieces separator ([separator].intercalate others) = others := by
  induction others with
  | nil => exact absurd rfl hothers
  | cons piece others ih =>
    rw [List.forall_mem_cons] at h
    by_cases hlast : others = []
    · rw [hlast, List.intercalate_singleton, pieces_of_not_mem h.1]
    · rw [List.intercalate_cons_of_ne_nil hlast, List.append_assoc, List.singleton_append, pieces_append _ h.1,
        ih hlast h.2]

/-- Behind the last one of pieces that separators end, there is an empty piece. -/
theorem pieces_ended (h : ∀ piece ∈ others, separator ∉ piece) :
    pieces separator (others.flatMap (· ++ [separator])) = others ++ [[]] := by
  induction others with
  | nil => rfl
  | cons piece others ih =>
    rw [List.forall_mem_cons] at h
    rw [List.flatMap_cons, List.append_assoc, List.singleton_append, pieces_append _ h.1, ih h.2, List.cons_append]

/-- A text is its pieces with separators between them, and none in them. -/
theorem exists_pieces (separator : Char) (text : List Char) : ∃ (first : List Char) (others : List (List Char)),
    text = first ++ others.flatMap (separator :: ·) ∧ separator ∉ first ∧ ∀ piece ∈ others, separator ∉ piece := by
  induction text with
  | nil => exact ⟨[], [], by simp⟩
  | cons c rest ih =>
    obtain ⟨first, others, rfl, hfirst, hothers⟩ := ih
    by_cases hc : c = separator
    · refine ⟨[], first :: others, ?_, List.not_mem_nil, List.forall_mem_cons.mpr ⟨hfirst, hothers⟩⟩
      simp [hc]
    · refine ⟨c :: first, others, rfl, ?_, hothers⟩
      simp [hfirst, Ne.symm hc]

end FlowDisasm.Text
