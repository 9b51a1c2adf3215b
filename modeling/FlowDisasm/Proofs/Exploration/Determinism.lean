import FlowDisasm.Proofs.Exploration.Strides

/-!
# Steps have one outcome

The relations that tell what steps, walks and analyses do are functions of where these start: there is one
state that they leave and one way that they end. So who can do a step in another way than it was done knows
that it comes to the same.
-/
namespace FlowDisasm

namespace Exploration

variable {subject : Subject} {state after after' : Exploration} {walk : Walk} {met trace trace' : List Root}
  {verdict : Verdict} {result result' : Option Error} {walks walks' : Nat}

/-- A step that can be done is what the function that steps does. -/
theorem Strides.eq_stride (h : Strides subject state walk met after verdict) :
    after = (state.stride subject walk).state ∧ verdict = (state.stride subject walk).verdict := by
  unfold stride
  cases h with
  | beyond hout => simp only [if_neg (Nat.not_lt.mpr hout), and_self]
  | known hin hvisit => simp only [if_pos hin, hvisit, and_self]
  | unreadable hin hnew hread =>
    simp only [Subject.decodeAt, Walk.place] at hread
    simp only [if_pos hin, hnew, hread, and_self]
  | stuck hin hnew hread hcourse =>
    simp only [Subject.decodeAt, Walk.place] at hread
    simp only [if_pos hin, hnew, hread, visit, hcourse, and_self]
  | passed hin hnew hread hcourse =>
    simp only [Subject.decodeAt, Walk.place] at hread
    simp only [if_pos hin, hnew, hread, visit, hcourse, and_self]

theorem Strides.unique {verdict' : Verdict} {met' : List Root}
    (h : Strides subject state walk met after verdict)
    (h' : Strides subject state walk met' after' verdict') : after = after' ∧ verdict = verdict' :=
  ⟨h.eq_stride.1.trans h'.eq_stride.1.symm, h.eq_stride.2.trans h'.eq_stride.2.symm⟩

theorem Walked.unique (h : Walked subject state walk trace after result)
    (h' : Walked subject state walk trace' after' result') : after = after' ∧ result = result' := by
  induction h generalizing trace' after' result' with
  | finished h =>
    cases h' with
    | finished h' => exact ⟨(h.unique h').1, rfl⟩
    | failed h' => cases (h.unique h').2
    | going h' rest' => cases (h.unique h').2
  | failed h =>
    cases h' with
    | finished h' => cases (h.unique h').2
    | failed h' =>
      obtain ⟨rfl, hverdict⟩ := h.unique h'
      exact ⟨rfl, congrArg some (Verdict.failed.inj hverdict)⟩
    | going h' rest' => cases (h.unique h').2
  | going h rest ih =>
    cases h' with
    | finished h' => cases (h.unique h').2
    | failed h' => cases (h.unique h').2
    | going h' rest' =>
      obtain ⟨rfl, hverdict⟩ := h.unique h'
      obtain rfl := Verdict.going.inj hverdict
      exact ih rest'

theorem Drained.unique (h : Drained subject state walks trace after result)
    (h' : Drained subject state walks' trace' after' result') : after = after' ∧ result = result' := by
  induction h generalizing walks' trace' after' result' with
  | idle hnil =>
    cases h' with
    | idle hnil' => exact ⟨rfl, rfl⟩
    | failed hroot' h' => cases hnil.symm.trans hroot'
    | walked hroot' h' others' => cases hnil.symm.trans hroot'
  | failed hroot h =>
    cases h' with
    | idle hnil' => cases hnil'.symm.trans hroot
    | failed hroot' h' =>
      obtain ⟨rfl, rfl⟩ := List.cons.inj (hroot.symm.trans hroot')
      exact h.unique h'
    | walked hroot' h' others' =>
      obtain ⟨rfl, rfl⟩ := List.cons.inj (hroot.symm.trans hroot')
      cases (h.unique h').2
  | walked hroot h others ih =>
    cases h' with
    | idle hnil' => cases hnil'.symm.trans hroot
    | failed hroot' h' =>
      obtain ⟨rfl, rfl⟩ := List.cons.inj (hroot.symm.trans hroot')
      cases (h.unique h').2
    | walked hroot' h' others' =>
      obtain ⟨rfl, rfl⟩ := List.cons.inj (hroot.symm.trans hroot')
      obtain ⟨rfl, -⟩ := h.unique h'
      exact ih others'

end Exploration

end FlowDisasm
