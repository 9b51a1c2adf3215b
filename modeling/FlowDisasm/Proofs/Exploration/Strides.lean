import FlowDisasm.Proofs.Exploration.Places

/-!
# Walks without fuel

What one step of a walk does is said once, by a relation with a case for each way that a step can end.
Walks and whole analyses are chains of such steps. Every relation lists the places that are visited on
the way, and everything that an analysis counts is a function of that list.
-/
namespace FlowDisasm

open scoped List

/-- What a walk is told at its end, as the verdict of its last step. -/
def Verdict.ofEnd : Option Error → Verdict
  | none => .finished
  | some error => .failed error

def Verdict.error? : Verdict → Option Error
  | .failed error => some error
  | _ => none

theorem Verdict.error?_ofEnd (result : Option Error) : (Verdict.ofEnd result).error? = result := by
  cases result <;> rfl

theorem Course.error?_verdict (course : Course) : course.verdict.error? = none := by
  unfold Course.verdict
  cases course.next <;> rfl

namespace Exploration

/-- One step of a walk, with the place that it visits, the state that it leaves and its verdict. -/
inductive Strides (subject : Subject) (state : Exploration) (walk : Walk) :
    List Root → Exploration → Verdict → Prop
  | beyond (hout : subject.image.limit ≤ walk.offset.toNat) :
      Strides subject state walk [] state .finished
  | known {visit : Visit} (hin : walk.offset.toNat < subject.image.limit)
      (hvisit : state.visited[walk.offset]? = some visit) :
      Strides subject state walk []
        (if walk.atRoot then state.markTarget walk.offset visit else state) .finished
  | unreadable {error : Error} (hin : walk.offset.toNat < subject.image.limit)
      (hnew : state.visited[walk.offset]? = none) (hread : subject.decodeAt walk.place = .error error) :
      Strides subject state walk [] state (.failed error)
  | stuck {instruction : X86.Instruction} {obstacle : Obstacle}
      (hin : walk.offset.toNat < subject.image.limit) (hnew : state.visited[walk.offset]? = none)
      (hread : subject.decodeAt walk.place = .ok instruction)
      (hcourse : subject.course instruction walk.mode = .error obstacle) :
      Strides subject state walk [walk.place] (state.recordVisit walk)
        (.failed ((state.recordVisit walk).obstacleError instruction walk.mode obstacle))
  | passed {instruction : X86.Instruction} (hin : walk.offset.toNat < subject.image.limit)
      (hnew : state.visited[walk.offset]? = none)
      (hread : subject.decodeAt walk.place = .ok instruction)
      (hcourse : subject.course instruction walk.mode =
        .ok (subject.plan instruction walk.mode)) :
      Strides subject state walk [walk.place]
        ((state.recordVisit walk).follow instruction walk.mode (subject.plan instruction walk.mode))
        (subject.plan instruction walk.mode).verdict

/-- A walk from a place to its end. -/
inductive Walked (subject : Subject) :
    Exploration → Walk → List Root → Exploration → Option Error → Prop
  | finished {state after : Exploration} {walk : Walk} {met : List Root}
      (h : Strides subject state walk met after .finished) :
      Walked subject state walk met after none
  | failed {state after : Exploration} {walk : Walk} {met : List Root} {error : Error}
      (h : Strides subject state walk met after (.failed error)) :
      Walked subject state walk met after (some error)
  | going {state after final : Exploration} {walk next : Walk} {met trace : List Root}
      {result : Option Error} (h : Strides subject state walk met after (.going next))
      (rest : Walked subject after next trace final result) :
      Walked subject state walk (met ++ trace) final result

/-- Walks from one pending root after the other, as many as are counted, until none is left or one
fails. -/
inductive Drained (subject : Subject) :
    Exploration → Nat → List Root → Exploration → Option Error → Prop
  | idle {state : Exploration} (h : state.pending = []) : Drained subject state 0 [] state none
  | failed {state after : Exploration} {root : Root} {rest trace : List Root} {error : Error}
      (hroot : state.pending = root :: rest)
      (h : Walked subject { state with pending := rest } root.walk trace after (some error)) :
      Drained subject state 1 trace after (some error)
  | walked {state after final : Exploration} {root : Root} {rest trace more : List Root}
      {walks : Nat} {result : Option Error} (hroot : state.pending = root :: rest)
      (h : Walked subject { state with pending := rest } root.walk trace after none)
      (others : Drained subject after walks more final result) :
      Drained subject state (walks + 1) (trace ++ more) final result

variable {subject : Subject} {state after final : Exploration} {walk : Walk} {met trace : List Root}
  {verdict : Verdict} {result : Option Error} {walks : Nat} {instruction : X86.Instruction}
  {mode : Mode} {course : Course}

/-- A step of a walk does one of the things that a step can do. -/
theorem stride_strides (state : Exploration) (subject : Subject) (walk : Walk) :
    ∃ met, Strides subject state walk met (state.stride subject walk).state
      (state.stride subject walk).verdict := by
  unfold stride
  by_cases hin : walk.offset.toNat < subject.image.limit
  · simp only [if_pos hin]
    cases hvisit : state.visited[walk.offset]? with
    | some visit => exact ⟨_, .known hin hvisit⟩
    | none =>
      cases hread : X86.decode subject.cpu subject.image walk.offset walk.mode.width with
      | error error => exact ⟨_, .unreadable hin hvisit hread⟩
      | ok instruction =>
        simp only [visit]
        rcases subject.course_eq instruction walk.mode with hcourse | ⟨⟨obstacle, hcourse⟩, -⟩
        · rw [hcourse]
          exact ⟨_, .passed hin hvisit hread hcourse⟩
        · rw [hcourse]
          exact ⟨_, .stuck hin hvisit hread hcourse⟩
  · simp only [if_neg hin]
    exact ⟨_, .beyond (Nat.le_of_not_lt hin)⟩

theorem Strides.of_course (hin : walk.offset.toNat < subject.image.limit)
    (hnew : state.visited[walk.offset]? = none) (hread : subject.decodeAt walk.place = .ok instruction)
    (hcourse : subject.course instruction walk.mode = .ok course) :
    Strides subject state walk [walk.place]
      ((state.recordVisit walk).follow instruction walk.mode course) course.verdict := by
  obtain rfl := subject.eq_plan_of_course hcourse
  exact .passed hin hnew hread hcourse

/-- A walk goes on only past an instruction that it visits. -/
theorem Strides.passes_of_going {next : Walk} (h : Strides subject state walk met after (.going next)) :
    met = [walk.place] ∧ ∃ instruction, subject.decodeAt walk.place = .ok instruction ∧
      subject.course instruction walk.mode = .ok (subject.plan instruction walk.mode) ∧
      (subject.plan instruction walk.mode).verdict = .going next := by
  generalize hverdict : Verdict.going next = verdict at h
  cases h with
  | beyond hout => cases hverdict
  | known hin hvisit => cases hverdict
  | unreadable hin hnew hread => cases hverdict
  | stuck hin hnew hread hcourse => cases hverdict
  | @passed instruction hin hnew hread hcourse => exact ⟨rfl, instruction, hread, hcourse, rfl⟩

/-! ## Acting on a course -/

@[simp] theorem visited_follow : (state.follow instruction mode course).visited = state.visited := by
  unfold follow
  cases course.branch <;> simp only <;> split <;> rfl

@[simp] theorem places_follow : (state.follow instruction mode course).places = state.places := by
  rw [places, visited_follow, places]

@[simp] theorem flagged_follow {offset : UInt32} :
    (state.follow instruction mode course).Flagged offset ↔ state.Flagged offset := by
  rw [Flagged, visited_follow, Flagged]

@[simp] theorem pending_follow : (state.follow instruction mode course).pending =
    state.pending ++ course.branch.toList := by
  unfold follow
  cases course.branch <;> simp only <;> split <;> simp [queue, addDiagnostic]

@[simp] theorem rootsQueued_follow : (state.follow instruction mode course).rootsQueued =
    state.rootsQueued + course.branch.toList.length := by
  unfold follow
  cases course.branch <;> simp only <;> split <;> rfl

@[simp] theorem diagnostics_follow : (state.follow instruction mode course).diagnostics =
    state.diagnostics ++ if course.aside then [state.diagnostic instruction mode] else [] := by
  unfold follow
  cases course.branch <;> cases course.aside <;>
    simp [queue, addDiagnostic, diagnostic, address]

@[simp] theorem diagnosed_follow : (state.follow instruction mode course).diagnosed =
    state.diagnosed + if course.aside then 1 else 0 := by
  unfold follow
  cases course.branch <;> cases course.aside <;> rfl

@[simp] theorem decoded_follow : (state.follow instruction mode course).decoded = state.decoded := by
  unfold follow
  cases course.branch <;> simp only <;> split <;> rfl

@[simp] theorem segmentStarts_follow :
    (state.follow instruction mode course).segmentStarts = state.segmentStarts := by
  unfold follow
  cases course.branch <;> simp only <;> split <;> rfl

theorem diagnostic_eq (hread : subject.decodeAt walk.place = .ok instruction) :
    state.diagnostic instruction walk.mode =
      subject.diagnosticAt state.segmentStarts walk.place := by
  have hoffset : instruction.offset = walk.place.offset := X86.decode_offset hread
  simp only [diagnostic, Subject.diagnosticAt, address, hread, hoffset]
  rfl

/-! ## What visits add up to -/

/-- A later state that differs from an earlier one by visits to listed places: all that is counted or
told follows from the list. -/
structure Grows (subject : Subject) (state : Exploration) (trace : List Root)
    (after : Exploration) : Prop where
  places : after.places.Perm (trace ++ state.places)
  readable : ∀ place ∈ trace, ∃ instruction, subject.decodeAt place = .ok instruction
  decoded : after.decoded = state.decoded + trace.length
  rootsQueued : after.rootsQueued =
    state.rootsQueued + trace.countP fun place => (subject.destinationAt? place).isSome
  diagnostics : after.diagnostics = state.diagnostics ++
    (trace.filter subject.putsAside).map (subject.diagnosticAt state.segmentStarts)
  diagnosed : after.diagnosed = state.diagnosed + (trace.filter subject.putsAside).length
  segmentStarts : after.segmentStarts = state.segmentStarts

theorem Grows.subset (h : Grows subject state trace after) : state.places ⊆ after.places :=
  fun _ hplace => h.places.mem_iff.mpr (List.mem_append_right _ hplace)

theorem Grows.trace_subset (h : Grows subject state trace after) : trace ⊆ after.places :=
  fun _ hplace => h.places.mem_iff.mpr (List.mem_append_left _ hplace)

theorem Grows.trans {mid : Exploration} {more : List Root} (h : Grows subject state trace mid)
    (h' : Grows subject mid more after) : Grows subject state (trace ++ more) after where
  places := by
    calc after.places
      _ ~ more ++ mid.places := h'.places
      _ ~ more ++ (trace ++ state.places) := h.places.append_left more
      _ = (more ++ trace) ++ state.places := (List.append_assoc ..).symm
      _ ~ (trace ++ more) ++ state.places := List.perm_append_comm.append_right _
  readable place hplace := (List.mem_append.mp hplace).elim (h.readable place) (h'.readable place)
  decoded := by rw [h'.decoded, h.decoded, List.length_append, Nat.add_assoc]
  rootsQueued := by rw [h'.rootsQueued, h.rootsQueued, List.countP_append, Nat.add_assoc]
  diagnostics := by
    rw [h'.diagnostics, h.diagnostics, h.segmentStarts, List.filter_append, List.map_append,
      List.append_assoc]
  diagnosed := by
    rw [h'.diagnosed, h.diagnosed, List.filter_append, List.length_append, Nat.add_assoc]
  segmentStarts := h'.segmentStarts.trans h.segmentStarts

theorem Grows.refl (subject : Subject) (state : Exploration) : Grows subject state [] state where
  places := .refl _
  readable := nofun
  decoded := rfl
  rootsQueued := rfl
  diagnostics := (List.append_nil _).symm
  diagnosed := rfl
  segmentStarts := rfl

theorem Grows.recordVisit (hnew : state.visited[walk.offset]? = none)
    (hread : subject.decodeAt walk.place = .ok instruction)
    (hbranch : instruction.destination? walk.mode = none)
    (haside : (instruction.isDirectFar && walk.mode.assumedProtected) = false) :
    Grows subject state [walk.place] (state.recordVisit walk) where
  places := places_recordVisit hnew
  readable place hplace := ⟨instruction, List.mem_singleton.mp hplace ▸ hread⟩
  decoded := rfl
  rootsQueued := by
    have hat : subject.destinationAt? walk.place = none :=
      (Subject.destinationAt?_of_ok hread).trans hbranch
    simp [hat, Exploration.recordVisit]
  diagnostics := by
    have hat : subject.putsAside walk.place = false := (Subject.putsAside_of_ok hread).trans haside
    simp [hat, Exploration.recordVisit]
  diagnosed := by
    have hat : subject.putsAside walk.place = false := (Subject.putsAside_of_ok hread).trans haside
    simp [hat, Exploration.recordVisit]
  segmentStarts := rfl

theorem Grows.follow (hnew : state.visited[walk.offset]? = none)
    (hread : subject.decodeAt walk.place = .ok instruction) :
    Grows subject state [walk.place] ((state.recordVisit walk).follow instruction walk.mode
      (subject.plan instruction walk.mode)) where
  places := by rw [places_follow]; exact places_recordVisit hnew
  readable place hplace := ⟨instruction, List.mem_singleton.mp hplace ▸ hread⟩
  decoded := by rw [decoded_follow]; rfl
  rootsQueued := by
    have hat : subject.destinationAt? walk.place = instruction.destination? walk.mode :=
      Subject.destinationAt?_of_ok hread
    rw [rootsQueued_follow, List.countP_singleton, hat]
    cases hbranch : instruction.destination? walk.mode <;>
      simp [Subject.plan, hbranch, Exploration.recordVisit]
  diagnostics := by
    rw [diagnostics_follow, diagnostic_eq hread, List.filter_singleton,
      Subject.putsAside_of_ok hread]
    cases haside : instruction.isDirectFar && walk.place.mode.assumedProtected <;>
      simp_all [Subject.plan, Exploration.recordVisit, Walk.place]
  diagnosed := by
    rw [diagnosed_follow, List.filter_singleton, Subject.putsAside_of_ok hread]
    cases haside : instruction.isDirectFar && walk.place.mode.assumedProtected <;>
      simp_all [Subject.plan, Exploration.recordVisit, Walk.place]
  segmentStarts := by rw [segmentStarts_follow]; rfl

theorem Grows.markTarget {visit : Visit} (hvisit : state.visited[walk.offset]? = some visit) :
    Grows subject state [] (state.markTarget walk.offset visit) :=
  { Grows.refl subject state with places := places_markTarget hvisit }

theorem Strides.grows (h : Strides subject state walk met after verdict) :
    Grows subject state met after := by
  cases h with
  | beyond hout => exact .refl subject state
  | @known visit hin hvisit =>
    split
    · exact .markTarget hvisit
    · exact .refl subject state
  | unreadable hin hnew hread => exact .refl subject state
  | @stuck instruction obstacle hin hnew hread hcourse =>
    rcases subject.course_eq instruction walk.mode with hok | ⟨-, hbranch, haside⟩
    · rw [hok] at hcourse
      cases hcourse
    · exact .recordVisit hnew hread hbranch haside
  | passed hin hnew hread hcourse => exact .follow hnew hread

theorem Walked.grows (h : Walked subject state walk trace after result) :
    Grows subject state trace after := by
  induction h with
  | finished h => exact h.grows
  | failed h => exact h.grows
  | going h rest ih => exact h.grows.trans ih

theorem Drained.grows (h : Drained subject state walks trace after result) :
    Grows subject state trace after := by
  induction h with
  | idle h => exact .refl subject _
  | failed hroot h => exact { h.grows with }
  | walked hroot h others ih => exact Grows.trans { h.grows with } ih

/-! ## Invariants -/

variable {P : Exploration → Verdict → Prop}

/-- What every step of a walk hands on to its verdict holds at the end of the walk. -/
theorem Walked.invariant
    (hstep : ∀ {state : Exploration} {walk : Walk} {met : List Root} {after : Exploration}
      {verdict : Verdict}, P state (.going walk) → Strides subject state walk met after verdict →
        P after verdict)
    (h : Walked subject state walk trace after result) (hstart : P state (.going walk)) :
    P after (.ofEnd result) := by
  induction h with
  | finished h => exact hstep hstart h
  | failed h => exact hstep hstart h
  | going h rest ih => exact ih (hstep hstart h)

/-- Between two walks an invariant has to survive that the next root is taken. -/
theorem Drained.invariant
    (hstep : ∀ {state : Exploration} {walk : Walk} {met : List Root} {after : Exploration}
      {verdict : Verdict}, P state (.going walk) → Strides subject state walk met after verdict →
        P after verdict)
    (htake : ∀ {state : Exploration} {root : Root} {rest : List Root}, P state .finished →
      state.pending = root :: rest → P { state with pending := rest } (.going root.walk))
    (h : Drained subject state walks trace after result) (hstart : P state .finished) :
    P after (.ofEnd result) := by
  induction h with
  | idle h => exact hstart
  | failed hroot h => exact h.invariant hstep (htake hstart hroot)
  | walked hroot h others ih => exact ih (h.invariant hstep (htake hstart hroot))

theorem Drained.pending_nil (h : Drained subject state walks trace after none) :
    after.pending = [] := by
  generalize hresult : none = result at h
  induction h with
  | idle h => exact h
  | failed hroot h => cases hresult
  | walked hroot h others ih => exact ih hresult

end Exploration

end FlowDisasm
