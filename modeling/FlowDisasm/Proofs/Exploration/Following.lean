import FlowDisasm.Proofs.Exploration.Provenance

/-!
# From one place to the next

A walk that visits a place is told by the instruction there how it goes on. So every place that an analysis
visits is followed by what the instruction leads to: the walk looks at the place behind, or it ends there.
-/
namespace FlowDisasm

/-- One place follows another if a walk that passes the one looks at the other next. -/
def Subject.Follows (subject : Subject) (place next : Root) : Prop :=
  ∃ instruction, subject.decodeAt place = .ok instruction ∧
    subject.course instruction place.mode = .ok (subject.plan instruction place.mode) ∧
    instruction.operation.flow.goesOn ∧ next = subject.behind instruction place.mode

namespace Exploration

variable {subject : Subject} {state after : Exploration} {walk next : Walk} {place : Root}
  {met trace rest : List Root} {verdict : Verdict} {result : Option Error} {walks : Nat}
  {instruction : X86.Instruction} {error : Error}

/-- A walk goes on only behind a place that it visits. -/
theorem Strides.follows (h : Strides subject state walk met after (.going next)) :
    met = [walk.place] ∧ subject.Follows walk.place next.place := by
  obtain ⟨hmet, instruction, hread, hcourse, hverdict⟩ := h.passes_of_going
  have hnext := congrArg Verdict.walk? hverdict
  rw [walk?_plan] at hnext
  split at hnext
  · rename_i hgoes
    obtain rfl := Option.some.inj hnext
    exact ⟨hmet, instruction, hread, hcourse, hgoes, rfl⟩
  · cases hnext

/-- A step visits the place where the walk is, or nothing. -/
theorem Strides.met_eq (h : Strides subject state walk met after verdict) :
    met = [] ∨ met = [walk.place] := by
  cases h with
  | beyond hout => exact .inl rfl
  | known hin hvisit => exact .inl rfl
  | unreadable hin hnew hread => exact .inl rfl
  | stuck hin hnew hread hcourse => exact .inr rfl
  | passed hin hnew hread hcourse => exact .inr rfl

/-! ## Visited places -/

/-- A walk that visits something visits the place where it is first, and goes on or ends there. -/
theorem Walked.first (h : Walked subject state walk (place :: rest) after result) :
    place = walk.place ∧ ∃ mid verdict, Strides subject state walk [walk.place] mid verdict ∧
      ((∃ next, verdict = .going next ∧ Walked subject mid next rest after result) ∨
        verdict = .ofEnd result) := by
  generalize hwhole : place :: rest = trace at h
  cases h with
  | finished h =>
    rcases h.met_eq with rfl | rfl
    · cases hwhole
    · obtain ⟨rfl, rfl⟩ := List.cons.inj hwhole
      exact ⟨rfl, _, _, h, .inr rfl⟩
  | failed h =>
    rcases h.met_eq with rfl | rfl
    · cases hwhole
    · obtain ⟨rfl, rfl⟩ := List.cons.inj hwhole
      exact ⟨rfl, _, _, h, .inr rfl⟩
  | going h others =>
    obtain ⟨rfl, -⟩ := h.follows
    obtain ⟨rfl, rfl⟩ := List.cons.inj hwhole
    exact ⟨rfl, _, _, h, .inl ⟨_, rfl, others⟩⟩

theorem Strides.beyond_eq (h : Strides subject state walk met after verdict)
    (hout : subject.image.limit ≤ walk.offset.toNat) : met = [] ∧ verdict = .finished := by
  cases h with
  | beyond => exact ⟨rfl, rfl⟩
  | known hin hvisit => exact absurd hin (Nat.not_lt.mpr hout)
  | unreadable hin hnew hread => exact absurd hin (Nat.not_lt.mpr hout)
  | stuck hin hnew hread hcourse => exact absurd hin (Nat.not_lt.mpr hout)
  | passed hin hnew hread hcourse => exact absurd hin (Nat.not_lt.mpr hout)

/-- A walk that looks behind the image is at its end. -/
theorem Walked.beyond (h : Walked subject state walk trace after result)
    (hout : subject.image.limit ≤ walk.offset.toNat) : trace = [] ∧ result = none := by
  cases h with
  | finished h => exact ⟨(h.beyond_eq hout).1, rfl⟩
  | failed h => cases (h.beyond_eq hout).2
  | going h others => cases (h.beyond_eq hout).2

end Exploration

end FlowDisasm
