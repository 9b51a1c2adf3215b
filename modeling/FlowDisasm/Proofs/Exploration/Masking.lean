import FlowDisasm.Proofs.Exploration.Simulation

/-!
# The assumption of protected mode

Code is read by its width alone; whether protected mode is assumed is looked at where service calls have data and
where far branches name their destination. Without these, explorations that differ in the assumption alone are taken
side by side: each step that one of them does, the other one does as well, and they still differ in the assumption
alone. It does differ on the way, as it is kept with every visit and turned over by the code, so what is compared is
masked: the assumption is taken out of modes and of all that modes are part of.
-/
namespace FlowDisasm

/-! ## What is masked -/

/-- A mode without the assumption. -/
def Mode.masked (mode : Mode) : Mode :=
  { mode with assumedProtected := false }

def Root.masked (root : Root) : Root :=
  { root with mode := root.mode.masked }

def Visit.masked (visit : Visit) : Visit :=
  { visit with mode := visit.mode.masked }

def Walk.masked (walk : Walk) : Walk :=
  { walk with mode := walk.mode.masked }

def Course.masked (course : Course) : Course :=
  { course with branch := course.branch.map Root.masked, next := course.next.map Root.masked }

def Request.masked : Request → Request
  | .root offset mode name => .root offset mode.masked name
  | .label offset name => .label offset name
  | .segment start => .segment start
  | .analyze => .analyze

def Subject.isDirectFarAt (subject : Subject) (place : Root) : Bool :=
  match subject.decodeAt place with
  | .ok instruction => instruction.isDirectFar
  | .error _ => false

/-- Two explorations differ in the assumption alone: they visited the same offsets with the same widths and know the
same destinations among them, the same roots are pending, and all else is the same. -/
structure Exploration.SameMasked (state other : Exploration) : Prop where
  visited : ∀ offset : UInt32,
    state.visited[offset]?.map Visit.masked = other.visited[offset]?.map Visit.masked
  labels : state.labels = other.labels
  segmentStarts : state.segmentStarts = other.segmentStarts
  pending : state.pending.map Root.masked = other.pending.map Root.masked
  diagnostics : state.diagnostics = other.diagnostics
  decoded : state.decoded = other.decoded
  rootsQueued : state.rootsQueued = other.rootsQueued
  diagnosed : state.diagnosed = other.diagnosed

theorem Mode.masked_eq_iff {mode other : Mode} : mode.masked = other.masked ↔ mode.width = other.width := by
  simp [Mode.masked]

theorem Mode.masked_toggled (mode : Mode) : mode.toggled.masked = mode.masked := rfl

theorem Root.masked_eq_iff {root other : Root} :
    root.masked = other.masked ↔ root.offset = other.offset ∧ root.mode.masked = other.mode.masked := by
  simp [Root.masked]

theorem Visit.masked_eq_iff {visit other : Visit} :
    visit.masked = other.masked ↔
      visit.mode.masked = other.mode.masked ∧ visit.isTarget = other.isTarget := by
  simp [Visit.masked]

theorem Walk.masked_eq_iff {walk other : Walk} : walk.masked = other.masked ↔
    walk.offset = other.offset ∧ walk.mode.masked = other.mode.masked ∧
      walk.atRoot = other.atRoot := by
  simp [Walk.masked]

theorem Course.verdict_masked {course other : Course} (h : course.masked = other.masked) :
    course.verdict.Matches (fun walk walk' => walk.masked = walk'.masked) other.verdict := by
  have hnext : course.next.map Root.masked = other.next.map Root.masked := congrArg Course.next h
  unfold Course.verdict
  cases hroot : course.next with
  | none =>
    rw [hroot, Option.map_none] at hnext
    rw [Option.map_eq_none_iff.mp hnext.symm]
    exact .finished
  | some root =>
    rw [hroot, Option.map_some] at hnext
    obtain ⟨root', hroot', hmasked⟩ := Option.map_eq_some_iff.mp hnext.symm
    obtain ⟨hoffset, hmode⟩ := Root.masked_eq_iff.mp hmasked
    rw [hroot']
    exact .going (Walk.masked_eq_iff.mpr ⟨hoffset.symm, hmode.symm, rfl⟩)

theorem Request.exists_root {request : Request} {offset : UInt32} {mode : Mode} {name : Option String}
    (h : request.masked = (Request.root offset mode name).masked) :
    ∃ mode', request = .root offset mode' name ∧ mode'.masked = mode.masked := by
  cases request with
  | root offset' mode' name' =>
    obtain ⟨rfl, hmode, rfl⟩ := Request.root.inj h
    exact ⟨mode', rfl, hmode⟩
  | label offset name => cases h
  | segment start => cases h
  | analyze => cases h

/-- Requests that are no roots are not masked. -/
theorem Request.eq_of_masked {request other : Request} (hroot : request.root? = none)
    (h : other.masked = request.masked) : other = request := by
  cases request with
  | root offset mode name => cases hroot
  | label offset name => cases other <;> simp_all [Request.masked]
  | segment start => cases other <;> simp_all [Request.masked]
  | analyze => cases other <;> simp_all [Request.masked]

/-! ## Instructions without the assumption -/

namespace Subject

variable {subject : Subject} {place other : Root} {instruction : X86.Instruction} {mode mode' : Mode}

/-- The decoder reads the width alone. -/
theorem decodeAt_masked (h : place.masked = other.masked) :
    subject.decodeAt place = subject.decodeAt other := by
  obtain ⟨hoffset, hmode⟩ := Root.masked_eq_iff.mp h
  rw [decodeAt, decodeAt, hoffset, Mode.masked_eq_iff.mp hmode]

theorem trailing?_of_no_service (h : subject.service = none) :
    subject.trailing? instruction mode = none := by
  rw [trailing?, h]

/-- A far branch that does not name its destination leads nowhere in any mode, or is an obstacle in every one. -/
theorem farCourse_congr (hfar : instruction.operation.flow.isFar = true)
    (hnot : instruction.isDirectFar = false) :
    farCourse instruction mode = farCourse instruction mode' := by
  rw [X86.Instruction.isDirectFar, hfar, Bool.true_and] at hnot
  unfold farCourse
  cases hfirst : instruction.first? with
  | none => rfl
  | some operand => cases operand <;> simp_all

/-- Without service calls and direct far branches an instruction leads to the same whatever is assumed. -/
theorem course_masked (hservice : subject.service = none) (hnot : instruction.isDirectFar = false)
    (hmode : mode.masked = mode'.masked) :
    (subject.course instruction mode).map Course.masked =
      (subject.course instruction mode').map Course.masked := by
  have htrailing (mode : Mode) : subject.trailing? instruction mode = none :=
    trailing?_of_no_service hservice
  have hbehind (offset : UInt32) : Root.masked ⟨offset, mode⟩ = Root.masked ⟨offset, mode'⟩ :=
    Root.masked_eq_iff.mpr ⟨rfl, hmode⟩
  unfold Subject.course
  cases hflow : instruction.operation.flow with
  | mov =>
    cases instruction.writesModeRegister <;>
      simp [Except.map, Course.masked, Root.masked, Mode.masked_toggled, hmode]
  | int => simp [htrailing, Except.map, Course.masked, hbehind]
  | jmp => simp [Except.map, Course.masked, Root.masked, hmode, Function.comp_def]
  | call => simp [Except.map, Course.masked, Root.masked, hmode, Function.comp_def]
  | jcc | loop =>
    cases instruction.target? <;>
      simp [Except.map, Course.masked, hbehind]
  | ret | retf | iret => rfl
  | jmpFar =>
    have hfar : instruction.operation.flow.isFar = true := by rw [hflow]; rfl
    have hsame : farCourse instruction mode = farCourse instruction mode' :=
      farCourse_congr hfar hnot
    simp only [hsame]
  | callFar =>
    have hfar : instruction.operation.flow.isFar = true := by rw [hflow]; rfl
    have hsame : farCourse instruction mode = farCourse instruction mode' :=
      farCourse_congr hfar hnot
    simp only [hsame]
    cases farCourse instruction mode' <;> simp [Except.map, Course.masked, hbehind]
  | other => simp [Except.map, Course.masked, hbehind]

/-- What leads somewhere in one mode leads there in all modes of its width. -/
theorem plan_masked (hservice : subject.service = none) (hnot : instruction.isDirectFar = false)
    (hmode : mode.masked = mode'.masked)
    (hcourse : subject.course instruction mode = .ok (subject.plan instruction mode)) :
    subject.course instruction mode' = .ok (subject.plan instruction mode') ∧
      (subject.plan instruction mode).masked = (subject.plan instruction mode').masked := by
  have hsame := course_masked hservice hnot hmode
  rw [hcourse] at hsame
  cases hcourse' : subject.course instruction mode' with
  | error obstacle =>
    rw [hcourse'] at hsame
    cases hsame
  | ok course =>
    obtain rfl := eq_plan_of_course hcourse'
    rw [hcourse'] at hsame
    exact ⟨rfl, Except.ok.inj hsame⟩

theorem isDirectFarAt_of_ok (h : subject.decodeAt place = .ok instruction) :
    subject.isDirectFarAt place = instruction.isDirectFar := by
  simp [isDirectFarAt, h]

end Subject

namespace Exploration

variable {subject : Subject} {state other after : Exploration} {walk walk' : Walk} {root root' : Root}
  {met : List Root} {verdict : Verdict} {instruction : X86.Instruction}
  {mode mode' : Mode} {course course' : Course}

/-! ## What keeps explorations alike -/

namespace SameMasked

theorem refl (state : Exploration) : SameMasked state state :=
  ⟨fun _ => rfl, rfl, rfl, rfl, rfl, rfl, rfl, rfl⟩

/-- An offset was visited by both or by neither. -/
theorem visited_eq_none (h : SameMasked state other) {offset : UInt32}
    (hnew : state.visited[offset]? = none) : other.visited[offset]? = none := by
  have hsame := h.visited offset
  rw [hnew, Option.map_none] at hsame
  exact Option.map_eq_none_iff.mp hsame.symm

theorem exists_visit (h : SameMasked state other) {offset : UInt32} {visit : Visit}
    (hvisit : state.visited[offset]? = some visit) :
    ∃ visit', other.visited[offset]? = some visit' ∧ visit.masked = visit'.masked := by
  have hsame := h.visited offset
  rw [hvisit, Option.map_some] at hsame
  obtain ⟨visit', hvisit', hmasked⟩ := Option.map_eq_some_iff.mp hsame.symm
  exact ⟨visit', hvisit', hmasked.symm⟩

theorem recordVisit (h : SameMasked state other) (hwalk : walk.masked = walk'.masked) :
    SameMasked (state.recordVisit walk) (other.recordVisit walk') := by
  obtain ⟨hoffset, hmode, hroot⟩ := Walk.masked_eq_iff.mp hwalk
  refine { h with visited := fun offset => ?_, decoded := congrArg (· + 1) h.decoded }
  simp only [Exploration.recordVisit, getElem?_insert_visited, ← hoffset]
  split
  · exact congrArg some (Visit.masked_eq_iff.mpr ⟨hmode, hroot⟩)
  · exact h.visited offset

theorem markTarget (h : SameMasked state other) {visit visit' : Visit} (offset : UInt32)
    (hvisit : visit.masked = visit'.masked) :
    SameMasked (state.markTarget offset visit) (other.markTarget offset visit') := by
  refine { h with visited := fun seen => ?_ }
  simp only [Exploration.markTarget, getElem?_insert_visited]
  split
  · exact congrArg some (Visit.masked_eq_iff.mpr ⟨(Visit.masked_eq_iff.mp hvisit).1, rfl⟩)
  · exact h.visited seen

theorem queue (h : SameMasked state other) (hroot : root.masked = root'.masked) :
    SameMasked (state.queue root) (other.queue root') :=
  { h with
    pending := by
      simp only [Exploration.queue, List.map_append, h.pending, List.map_cons, hroot]
    rootsQueued := congrArg (· + 1) h.rootsQueued }

theorem addLabel (h : SameMasked state other) (offset : UInt32) (name : String) :
    SameMasked (state.addLabel offset name) (other.addLabel offset name) :=
  { h with labels := congrArg (·.insert offset name) h.labels }

theorem addRoot (h : SameMasked state other) (offset : UInt32) (name : Option String)
    (hmode : mode.masked = mode'.masked) :
    SameMasked (state.addRoot offset mode name) (other.addRoot offset mode' name) := by
  have hroot : Root.masked ⟨offset, mode⟩ = Root.masked ⟨offset, mode'⟩ :=
    Root.masked_eq_iff.mpr ⟨rfl, hmode⟩
  cases name with
  | none => exact h.queue hroot
  | some name => exact (h.addLabel offset name).queue hroot

theorem addSegmentStart (h : SameMasked state other) (start : UInt32) :
    SameMasked (state.addSegmentStart start) (other.addSegmentStart start) :=
  { h with segmentStarts := congrArg (· ++ [start]) h.segmentStarts }

/-- Addresses are shown by the width of the code. -/
theorem address (h : SameMasked state other) (offset : UInt32) (hmode : mode.masked = mode'.masked) :
    state.address offset mode = other.address offset mode' := by
  rw [Exploration.address, Exploration.address, h.segmentStarts, Mode.masked_eq_iff.mp hmode]

theorem addDiagnostic (h : SameMasked state other) (hmode : mode.masked = mode'.masked) :
    SameMasked (state.addDiagnostic (state.diagnostic instruction mode))
      (other.addDiagnostic (other.diagnostic instruction mode')) := by
  have hsame : state.diagnostic instruction mode = other.diagnostic instruction mode' := by
    simp only [diagnostic, h.address instruction.offset hmode]
  exact { h with
    diagnostics := by simp only [Exploration.addDiagnostic, h.diagnostics, hsame]
    diagnosed := congrArg (· + 1) h.diagnosed }

theorem follow (h : SameMasked state other) (hmode : mode.masked = mode'.masked)
    (hcourse : course.masked = course'.masked) :
    SameMasked (state.follow instruction mode course) (other.follow instruction mode' course') := by
  obtain ⟨branch, aside, next⟩ := course
  obtain ⟨branch', aside', next'⟩ := course'
  have hbranch : branch.map Root.masked = branch'.map Root.masked := congrArg Course.branch hcourse
  obtain rfl : aside = aside' := congrArg Course.aside hcourse
  have hqueued : SameMasked (state.follow instruction mode ⟨branch, false, next⟩)
      (other.follow instruction mode' ⟨branch', false, next'⟩) := by
    cases branch with
    | none =>
      cases branch' with
      | none => exact h
      | some root' => cases hbranch
    | some root =>
      cases branch' with
      | none => cases hbranch
      | some root' => exact h.queue (Option.some.inj hbranch)
  cases aside with
  | false => exact hqueued
  | true => exact hqueued.addDiagnostic hmode

/-- The same roots are taken. -/
theorem take (h : SameMasked state other) {rest : List Root} (hpending : state.pending = root :: rest) :
    ∃ root' rest', other.pending = root' :: rest' ∧ root.walk.masked = root'.walk.masked ∧
      SameMasked { state with pending := rest } { other with pending := rest' } := by
  have hsame := h.pending
  rw [hpending, List.map_cons] at hsame
  obtain ⟨root', rest', hpending', hroot, hrest⟩ := List.map_eq_cons_iff.mp hsame.symm
  obtain ⟨hoffset, hmode⟩ := Root.masked_eq_iff.mp hroot
  exact ⟨root', rest', hpending', Walk.masked_eq_iff.mpr ⟨hoffset.symm, hmode.symm, rfl⟩,
    { h with pending := hrest.symm }⟩

end SameMasked

/-! ## Explorations side by side -/

/-- A step without a failure that meets no direct far branch can be done from an exploration that differs in the
assumption alone. -/
theorem Strides.masked (hservice : subject.service = none) (h : SameMasked state other)
    (hwalk : walk.masked = walk'.masked) (hstride : Strides subject state walk met after verdict)
    (hok : verdict.error? = none) (hnot : ∀ place ∈ met, subject.isDirectFarAt place = false) :
    ∃ met' after' verdict', Strides subject other walk' met' after' verdict' ∧
      SameMasked after after' ∧
      verdict.Matches (fun walk walk' => walk.masked = walk'.masked) verdict' := by
  obtain ⟨hoffset, hmode, hroot⟩ := Walk.masked_eq_iff.mp hwalk
  cases hstride with
  | beyond hout => exact ⟨_, _, _, .beyond (hoffset ▸ hout), h, .finished⟩
  | @known visit hin hvisit =>
    obtain ⟨visit', hvisit', hmasked⟩ := h.exists_visit hvisit
    rw [hoffset] at hin hvisit'
    refine ⟨_, _, _, .known hin hvisit', ?_, .finished⟩
    rw [hroot, hoffset]
    split
    · exact h.markTarget walk'.offset hmasked
    · exact h
  | unreadable hin hnew hread => cases hok
  | stuck hin hnew hread hcourse => cases hok
  | @passed instruction hin hnew hread hcourse =>
    have hplace : walk.place.masked = walk'.place.masked :=
      Root.masked_eq_iff.mpr ⟨hoffset, hmode⟩
    have hread' := hread
    rw [Subject.decodeAt_masked hplace] at hread'
    have hdirect : instruction.isDirectFar = false := by
      rw [← Subject.isDirectFarAt_of_ok hread]
      exact hnot _ List.mem_cons_self
    obtain ⟨hcourse', hplan⟩ := Subject.plan_masked hservice hdirect hmode hcourse
    have hnew' := h.visited_eq_none hnew
    rw [hoffset] at hin hnew'
    exact ⟨_, _, _, .passed hin hnew' hread' hcourse', (h.recordVisit hwalk).follow hmode hplan,
      Course.verdict_masked hplan⟩

/-- Without service calls, what meets no direct far branch is followed by all that differs in the assumption alone. -/
theorem masked_simulation (hservice : subject.service = none) :
    Simulation subject subject (fun place => subject.isDirectFarAt place = false) SameMasked
      (fun walk walk' => walk.masked = walk'.masked) where
  stride h hwalk hstride hok hnot := hstride.masked hservice h hwalk hok hnot
  idle h hnil := by
    have hpending := h.pending
    rw [hnil, List.map_nil] at hpending
    exact List.map_eq_nil_iff.mp hpending.symm
  take h hpending := h.take hpending

end Exploration

namespace Session

variable {subject : Subject} {history other : List Request}

/-- A run without a failure that visits no direct far branch differs in the assumption alone from every run of the
same requests that differ in the assumption alone. -/
theorem run_masked (hservice : subject.service = none)
    (hrequests : history.map Request.masked = other.map Request.masked)
    (herrors : (run subject history).errors = [])
    (hnot : ∀ place ∈ (run subject history).state.places, subject.isDirectFarAt place = false) :
    (run subject other).errors = [] ∧
      (run subject history).state.SameMasked (run subject other).state := by
  induction history using List.reverseRecOn generalizing other with
  | nil =>
    obtain rfl := List.map_eq_nil_iff.mp hrequests.symm
    exact ⟨rfl, .refl _⟩
  | append_singleton history request ih =>
    rw [List.map_append] at hrequests
    obtain ⟨front, back, rfl, hfront, hback⟩ := List.map_eq_append_iff.mp hrequests.symm
    obtain ⟨request', rfl, hrequest⟩ := List.map_eq_singleton_iff.mp hback
    have hbefore : ∀ place ∈ (run subject history).state.places,
        subject.isDirectFarAt place = false := by
      rw [run_concat] at hnot
      exact fun place hplace => hnot place (places_perform request hplace)
    obtain ⟨herrors', hstate⟩ := ih hfront.symm (errors_of_concat herrors) hbefore
    cases request with
    | root offset mode name =>
      obtain ⟨mode', rfl, hmode⟩ := Request.exists_root hrequest
      rw [run_concat, run_concat]
      exact ⟨herrors', hstate.addRoot offset name hmode.symm⟩
    | label offset name =>
      obtain rfl := Request.eq_of_masked rfl hrequest
      rw [run_concat, run_concat]
      exact ⟨herrors', hstate.addLabel offset name⟩
    | segment start =>
      obtain rfl := Request.eq_of_masked rfl hrequest
      rw [run_concat, run_concat]
      exact ⟨herrors', hstate.addSegmentStart start⟩
    | analyze =>
      obtain rfl := Request.eq_of_masked rfl hrequest
      rw [run_concat] at herrors hnot ⊢
      rw [run_concat]
      obtain ⟨hended, hafter⟩ := (Exploration.masked_simulation hservice).analyze hstate herrors hnot
      exact ⟨hended.trans herrors', hafter⟩

end Session

end FlowDisasm
