import FlowDisasm.Proofs.Exploration.Footprint
import FlowDisasm.Proofs.Exploration.History
import FlowDisasm.Proofs.X86.FirstOperands

/-!
# Branches that cannot be followed

Whatever a decoder can find, exploring knows what to do with it: every conditional branch has a destination, and every
far branch has one that is followed, put aside or only known at run time. The one exception is a direct far branch
with a long offset in code that is not known to be protected. It ends the analysis that visits it, and nothing else
ends an analysis with an error about a branch.
-/
namespace FlowDisasm

/-- Whether an error is about the destination of a branch. -/
def Error.isBranch : Error → Bool
  | .farTarget .. | .looseBranch .. => true
  | _ => false

theorem Image.isBranch_of_read_error {image : Image} {address count : Nat} {error : Error}
    (h : image.read address count = .error error) : error.isBranch = false := by
  rw [read_eq_error h]
  rfl

namespace X86

variable {cpu : Cpu} {image : Image} {offset : UInt32} {width : Width} {instruction : Instruction} {error : Error}

theorem isBranch_of_decode_error (h : decode cpu image offset width = .error error) : error.isBranch = false := by
  unfold decode at h
  dsimp only at h
  repeat' split at h
  all_goals cases h
  all_goals rfl

/-- What comes first in an instruction that leads somewhere. -/
theorem first?_of_leads (h : decode cpu image offset width = .ok instruction)
    (hleads : instruction.operation.flow.leads = true) :
    ∃ operand, instruction.first? = some operand ∧ instruction.operation.flow.Expects operand := by
  obtain ⟨operand, hoperands, hexpects⟩ := (decode_directed h).operand hleads
  exact ⟨operand, by rw [Instruction.first?, hoperands]; rfl, hexpects⟩

theorem first?_of_conditional (h : decode cpu image offset width = .ok instruction)
    (hflow : instruction.operation.flow = .jcc ∨ instruction.operation.flow = .loop) :
    ∃ displacement size, instruction.first? = some (.relative displacement size) := by
  have hleads : instruction.operation.flow.leads = true := by rcases hflow with hflow | hflow <;> rw [hflow] <;> rfl
  obtain ⟨operand, hfirst, hexpects⟩ := first?_of_leads h hleads
  obtain ⟨displacement, size, rfl⟩ : operand.IsDistance := by
    rcases hflow with hflow | hflow <;> rwa [hflow] at hexpects
  exact ⟨displacement, size, hfirst⟩

theorem vector?_of_int (h : decode cpu image offset width = .ok instruction)
    (hflow : instruction.operation.flow = .int) : ∃ vector, instruction.vector? = some vector := by
  obtain ⟨operand, hfirst, hexpects⟩ := first?_of_leads h (by rw [hflow]; rfl)
  rw [hflow] at hexpects
  obtain ⟨value, size, rfl⟩ := hexpects
  exact ⟨value.toUInt8, by simp only [Instruction.vector?, hflow, hfirst]⟩

theorem first?_of_isFar (h : decode cpu image offset width = .ok instruction)
    (hflow : instruction.operation.flow.isFar = true) :
    ∃ operand, instruction.first? = some operand ∧ operand.IsFar := by
  have hleads : instruction.operation.flow.leads = true := by
    cases hkind : instruction.operation.flow <;> simp_all [Flow.isFar]
  obtain ⟨operand, hfirst, hexpects⟩ := first?_of_leads h hleads
  refine ⟨operand, hfirst, ?_⟩
  cases hkind : instruction.operation.flow <;> simp_all [Flow.isFar, Flow.Expects]

end X86

namespace Subject

variable {subject : Subject} {place : Root} {instruction : X86.Instruction} {obstacle : Obstacle} {error : Error}
  {mode : Mode} {starts : List UInt32}

/-- A far branch directly to a long offset, in code that is not known to be protected. -/
structure Strands (subject : Subject) (place : Root) (instruction : X86.Instruction) : Prop where
  read : subject.decodeAt place = .ok instruction
  far : instruction.operation.flow.isFar = true
  target : ∃ selector offset, instruction.first? = some (.far32 selector offset)
  assumed : place.mode.assumedProtected = false

def strandedError (starts : List UInt32) (place : Root) (instruction : X86.Instruction) : Error :=
  .farTarget (SegmentedAddress.of starts place.offset place.mode.width).text (instruction.text none)

/-- The error that a place ends an analysis with, if it is that of a branch that cannot be followed. -/
def stranded? (subject : Subject) (starts : List UInt32) (place : Root) : Option Error :=
  match subject.decodeAt place with
  | .error _ => none
  | .ok instruction =>
    match subject.course instruction place.mode with
    | .error .farTarget => some (strandedError starts place instruction)
    | _ => none

/-- The obstacles of instructions, and the parts in control flow that they come with. -/
theorem course_eq_error (h : subject.course instruction mode = .error obstacle) :
    (∃ error, obstacle = .missingData error) ∨
    (obstacle = .looseBranch ∧ instruction.target? = none ∧
      (instruction.operation.flow = .jcc ∨ instruction.operation.flow = .loop)) ∨
    instruction.operation.flow.isFar = true ∧ farCourse instruction mode = .error obstacle := by
  cases hflow : instruction.operation.flow with
  | int =>
    simp only [course, hflow] at h
    split at h
    · cases h
    · split at h
      · cases h
      · exact .inl ⟨_, (Except.error.inj h).symm⟩
  | mov =>
    simp only [course, hflow] at h
    split at h <;> cases h
  | jmp | call | ret | retf | iret | other =>
    simp only [course, hflow] at h
    cases h
  | jcc | loop =>
    simp only [course, hflow] at h
    split at h
    case isTrue => cases h
    case isFalse hloose =>
      refine .inr (.inl ⟨(Except.error.inj h).symm, ?_, by simp⟩)
      cases htarget : instruction.target? with
      | none => rfl
      | some target => exact absurd (by rw [htarget]; rfl) hloose
  | jmpFar =>
    simp only [course, hflow] at h
    exact .inr (.inr ⟨rfl, h⟩)
  | callFar =>
    simp only [course, hflow] at h
    split at h
    case h_1 => cases h
    case h_2 obstacle hfar => exact .inr (.inr ⟨rfl, by rw [hfar, Except.error.inj h]⟩)

/-- A far address leads nowhere if it has a long offset and is no selector of protected mode. -/
theorem farCourse_of_isFar {operand : X86.Operand} (hfirst : instruction.first? = some operand)
    (hfar : operand.IsFar) : farCourse instruction mode = .error .farTarget ↔
      (∃ selector offset, operand = .far32 selector offset) ∧ mode.assumedProtected = false := by
  unfold farCourse
  rw [hfirst]
  rcases hfar with ⟨reference, extent, rfl⟩ | ⟨selector, offset, rfl⟩ | ⟨selector, offset, rfl⟩
  · simp
  · cases mode.assumedProtected <;> simp
  · cases mode.assumedProtected <;> simp

/-- Every conditional branch has a destination. -/
theorem course_ne_looseBranch (hread : subject.decodeAt place = .ok instruction) :
    subject.course instruction place.mode ≠ .error .looseBranch := by
  intro h
  rcases course_eq_error h with ⟨error, herror⟩ | ⟨-, hnone, hflow⟩ | ⟨-, hfar⟩
  · cases herror
  · obtain ⟨displacement, size, hfirst⟩ := X86.first?_of_conditional hread hflow
    rw [X86.Instruction.target?, hfirst] at hnone
    cases hnone
  · cases farCourse_error hfar

/-- A far branch has no course just if it strands. -/
theorem course_eq_farTarget_iff (hread : subject.decodeAt place = .ok instruction) :
    subject.course instruction place.mode = .error .farTarget ↔ subject.Strands place instruction := by
  constructor
  · intro h
    rcases course_eq_error h with ⟨error, herror⟩ | ⟨hloose, -⟩ | ⟨hflow, hfar⟩
    · cases herror
    · cases hloose
    · obtain ⟨operand, hfirst, hoperand⟩ := X86.first?_of_isFar hread hflow
      obtain ⟨⟨selector, offset, rfl⟩, hassumed⟩ := (farCourse_of_isFar hfirst hoperand).mp hfar
      exact ⟨hread, hflow, ⟨selector, offset, hfirst⟩, hassumed⟩
  · rintro ⟨-, hflow, ⟨selector, offset, hfirst⟩, hassumed⟩
    have hfar : farCourse instruction place.mode = .error .farTarget :=
      (farCourse_of_isFar hfirst (.inr (.inr ⟨selector, offset, rfl⟩))).mpr
        ⟨⟨selector, offset, rfl⟩, hassumed⟩
    cases hkind : instruction.operation.flow with
    | jmpFar => simp only [course, hkind, hfar]
    | callFar => simp only [course, hkind, hfar]
    | _ => simp [hkind, X86.Flow.isFar] at hflow

theorem stranded?_eq_some_iff : subject.stranded? starts place = some error ↔
    ∃ instruction, subject.Strands place instruction ∧ error = strandedError starts place instruction := by
  unfold stranded?
  constructor
  · intro h
    split at h
    · cases h
    · rename_i instruction hread
      split at h
      · rename_i hcourse
        exact ⟨instruction, (course_eq_farTarget_iff hread).mp hcourse, (Option.some.inj h).symm⟩
      · cases h
  · rintro ⟨instruction, hstrands, rfl⟩
    rw [hstrands.read]
    simp only [(course_eq_farTarget_iff hstrands.read).mpr hstrands]

end Subject

namespace Exploration

variable {subject : Subject} {state after : Exploration} {walk : Walk} {met trace : List Root}
  {verdict : Verdict} {result : Option Error} {walks : Nat}

/-- A step fails with an error about a branch just if it visits one that strands, and then with its error. -/
theorem Strides.stranded (h : Strides subject state walk met after verdict) :
    met.filterMap (subject.stranded? state.segmentStarts) = verdict.error?.toList.filter Error.isBranch := by
  cases h with
  | beyond hout => rfl
  | known hin hvisit => rfl
  | unreadable hin hnew hread => simp [Verdict.error?, X86.isBranch_of_decode_error hread]
  | @stuck instruction obstacle hin hnew hread hcourse =>
    have hat : subject.course instruction walk.place.mode = .error obstacle := hcourse
    simp only [List.filterMap_cons, List.filterMap_nil, Subject.stranded?, hread, hat, Verdict.error?,
      Option.toList_some]
    cases obstacle with
    | looseBranch => exact absurd hat (Subject.course_ne_looseBranch hread)
    | farTarget =>
      rw [obstacleError, address, X86.decode_offset hread]
      rfl
    | missingData error =>
      obtain ⟨count, -, hdata⟩ := Subject.course_eq_missingData_iff.mp hcourse
      simp [obstacleError, Image.isBranch_of_read_error hdata]
  | @passed instruction hin hnew hread hcourse =>
    have hat : subject.course instruction walk.place.mode = .ok (subject.plan instruction walk.mode) := hcourse
    simp [Subject.stranded?, hread, hat, Course.error?_verdict]

theorem Walked.stranded (h : Walked subject state walk trace after result) :
    trace.filterMap (subject.stranded? state.segmentStarts) = result.toList.filter Error.isBranch := by
  induction h with
  | finished h => exact h.stranded
  | failed h => exact h.stranded
  | going h rest ih =>
    -- A step that goes on has no error, so it visits no place that strands.
    rw [h.grows.segmentStarts] at ih
    rw [List.filterMap_append, h.stranded, ih]
    rfl

/-- An analysis fails with an error about a branch just if it visits one that strands, and then with its error. -/
theorem Drained.stranded (h : Drained subject state walks trace after result) :
    trace.filterMap (subject.stranded? state.segmentStarts) = result.toList.filter Error.isBranch := by
  induction h with
  | idle h => rfl
  | failed hroot h => exact h.stranded
  | @walked state after final root rest trace more walks result hroot h others ih =>
    have hnone : trace.filterMap (subject.stranded? state.segmentStarts) = [] := h.stranded
    rw [h.grows.segmentStarts] at ih
    rw [List.filterMap_append, hnone]
    exact ih

/-- The places that an analysis visits are those that are visited after it and not before. -/
theorem Grows.mem_trace_iff {place : Root} (h : Grows subject state trace after) :
    place ∈ trace ↔ place ∈ after.places ∧ place ∉ state.places := by
  have hnodup : (trace ++ state.places).Nodup := h.places.nodup_iff.mp after.nodup_places
  rw [h.places.mem_iff, List.mem_append]
  constructor
  · intro htrace
    exact ⟨.inl htrace, fun hplace => (List.nodup_append.mp hnodup).2.2 place htrace place hplace rfl⟩
  · rintro ⟨htrace | hplace, hnew⟩
    · exact htrace
    · exact absurd hplace hnew

/-- The errors about branches of an analysis are those of the places that it visits and that strand. -/
theorem Drained.eq_branchError_iff {error : Error} (h : Drained subject state walks trace after result)
    (hbranch : error.isBranch = true) : result = some error ↔
      ∃ place instruction, place ∈ after.places ∧ place ∉ state.places ∧
        subject.Strands place instruction ∧ error = Subject.strandedError state.segmentStarts place instruction := by
  have hmem : result = some error ↔ error ∈ result.toList.filter Error.isBranch := by
    rw [List.mem_filter, Option.mem_toList]
    exact ⟨fun hresult => ⟨hresult, hbranch⟩, And.left⟩
  rw [hmem, ← h.stranded, List.mem_filterMap]
  simp only [Subject.stranded?_eq_some_iff, h.grows.mem_trace_iff]
  constructor
  · rintro ⟨place, ⟨hplace, hnew⟩, instruction, hstrands, herror⟩
    exact ⟨place, instruction, hplace, hnew, hstrands, herror⟩
  · rintro ⟨place, instruction, hplace, hnew, hstrands, herror⟩
    exact ⟨place, ⟨hplace, hnew⟩, instruction, hstrands, herror⟩

theorem Drained.ne_looseBranch (h : Drained subject state walks trace after result) (address text : String) :
    result ≠ some (.looseBranch address text) := by
  intro hresult
  obtain ⟨place, instruction, -, -, -, herror⟩ := (h.eq_branchError_iff rfl).mp hresult
  cases herror

theorem answer_eq_error_iff {error : Error} : answer result = .error error ↔ result = some error := by
  cases result <;> simp [answer]

end Exploration

namespace Session

theorem run_ne_looseBranch (subject : Subject) (history : List Request) :
    ∀ error ∈ (run subject history).errors, ∀ address text, error ≠ .looseBranch address text := by
  refine run_induction (P := fun _ session =>
    ∀ error ∈ session.errors, ∀ address text, error ≠ .looseBranch address text) ?_ ?_ history
  · intro error herror
    cases herror
  · intro history session request h
    cases request with
    | root offset mode name => exact h
    | label offset name => exact h
    | segment start => exact h
    | analyze =>
      obtain ⟨walks, trace, result, hdrained, herrors⟩ := perform_analyze subject session
      rw [herrors]
      intro error herror address text
      rcases List.mem_append.mp herror with hbefore | hlast
      · exact h error hbefore address text
      · rintro rfl
        exact hdrained.ne_looseBranch address text (Option.mem_toList.mp hlast)

/-- Exploring has a rule for whatever can be decoded. An instruction that leads somewhere has a first operand of the
kind that its part in control flow expects, every interrupt has a vector, and distances are operands of near branches
only. So no analysis fails for a conditional branch without a destination, in any state and after any history; and an
analysis fails for a far branch just if it visits one with a long offset where protected mode is not assumed, and then
with the address and the text of that branch. -/
theorem traversal_exhaustive :
    (∀ (cpu : X86.Cpu) (image : Image) (offset : UInt32) (width : X86.Width) (instruction : X86.Instruction),
      X86.decode cpu image offset width = .ok instruction →
        (instruction.operation.flow.leads = true →
          ∃ operand, instruction.first? = some operand ∧ instruction.operation.flow.Expects operand) ∧
        (instruction.operation.flow = .int → ∃ vector, instruction.vector? = some vector) ∧
        ∀ operand ∈ instruction.operation.operands, operand.IsDistance →
          instruction.operation.flow.isNear = true) ∧
    (∀ (subject : Subject) (state : Exploration) (address text : String),
      (state.analyze subject).2.2 ≠ .error (.looseBranch address text) ∧
      ((state.analyze subject).2.2 = .error (.farTarget address text) ↔
        ∃ place instruction, place ∈ (state.analyze subject).1.places ∧ place ∉ state.places ∧
          subject.Strands place instruction ∧ address = (state.address place.offset place.mode).text ∧
          text = instruction.text none)) ∧
    ∀ (subject : Subject) (history : List Request), ∀ error ∈ (run subject history).errors,
      ∀ address text, error ≠ .looseBranch address text := by
  refine ⟨fun cpu image offset width instruction h =>
      ⟨X86.first?_of_leads h, X86.vector?_of_int h, (X86.decode_directed h).distance⟩,
    fun subject state address text => ?_, run_ne_looseBranch⟩
  obtain ⟨walks, trace, result, hdrained, hanswer⟩ := state.analyze_drained subject
  rw [hanswer, Ne, Exploration.answer_eq_error_iff, Exploration.answer_eq_error_iff]
  refine ⟨hdrained.ne_looseBranch address text, ?_⟩
  rw [hdrained.eq_branchError_iff rfl]
  simp only [Subject.strandedError, Error.farTarget.injEq]
  rfl

def farJumper : Subject where
  image := ⟨0, ⟨#[0x66, 0xEA, 0x00, 0x10, 0x00, 0x00, 0x28, 0x00]⟩⟩
  cpu := .i80386
  service := none

example : (run farJumper [.root 0 .real16 none, .analyze]).errors =
    [.farTarget "0000:0000" "DATA32 JMP\tFAR\t0x1000, 0x28"] := by
  decide +kernel

end Session

end FlowDisasm
