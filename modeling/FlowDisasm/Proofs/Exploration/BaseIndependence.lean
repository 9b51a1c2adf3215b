import FlowDisasm.Proofs.Exploration.Accounting
import FlowDisasm.Proofs.Exploration.Determinism
import Mathlib.Data.List.Forall2

/-!
# Moving an image

Code that is moved to another address is explored in the same way there, as long as no far branch names its
destination by an absolute address and the image ends before the top of the address space. Offsets are
counted modulo the size of the address space, so destinations move with the code by themselves; only the
places in the image have to be told apart from those outside. Two explorations that do not fail are taken
step by step side by side: one of them alone cannot be followed at another base, because a destination
behind the image may come to lie before it there.
-/
namespace FlowDisasm

/-! ## What is moved -/

def Image.moved (delta : UInt32) (image : Image) : Image :=
  { image with base := image.base + delta }

def Subject.moved (delta : UInt32) (subject : Subject) : Subject :=
  { subject with image := subject.image.moved delta }

def Subject.based (subject : Subject) (base : UInt32) : Subject :=
  { subject with image := ⟨base, subject.image.bytes⟩ }

def X86.Instruction.moved (delta : UInt32) (instruction : X86.Instruction) : X86.Instruction :=
  { instruction with offset := instruction.offset + delta }

def Root.moved (delta : UInt32) (root : Root) : Root :=
  { root with offset := root.offset + delta }

def Walk.moved (delta : UInt32) (walk : Walk) : Walk :=
  { walk with offset := walk.offset + delta }

def Course.moved (delta : UInt32) (course : Course) : Course :=
  { course with
    branch := course.branch.map (Root.moved delta)
    next := course.next.map (Root.moved delta) }

def Verdict.moved (delta : UInt32) : Verdict → Verdict
  | .going walk => .going (walk.moved delta)
  | .finished => .finished
  | .failed error => .failed error

def Request.moved (delta : UInt32) : Request → Request
  | .root offset mode name => .root (offset + delta) mode name
  | .label offset name => .label (offset + delta) name
  | .segment start => .segment (start + delta)
  | .analyze => .analyze

/-- Whether an instruction is a far branch with a selector and a short offset in its own bytes. -/
def X86.Instruction.isShortFar (instruction : X86.Instruction) : Bool :=
  instruction.operation.flow.isFar &&
    match instruction.first? with
    | some (.far16 _ _) => true
    | _ => false

/-- Whether there is a far branch at a place that is followed to an absolute address. -/
def Subject.followsFar (subject : Subject) (place : Root) : Bool :=
  match subject.decodeAt place with
  | .ok instruction => instruction.isShortFar && !place.mode.assumedProtected
  | .error _ => false

/-- A diagnostic tells of the same branch at a moved offset, and shows the offset among moved segments. -/
structure Diagnostic.Moved (delta : UInt32) (diagnostic moved : Diagnostic) : Prop where
  offset : moved.offset = diagnostic.offset + delta
  text : moved.text = diagnostic.text
  address : ∃ starts width, diagnostic.address = .of starts diagnostic.offset width ∧
    moved.address = .of (starts.map (· + delta)) moved.offset width

/-- An exploration found the same as another one at moved offsets. -/
structure Exploration.Moved (delta : UInt32) (state moved : Exploration) : Prop where
  visited : ∀ offset, moved.visited[offset + delta]? = state.visited[offset]?
  labels : ∀ offset, moved.labels[offset + delta]? = state.labels[offset]?
  segmentStarts : moved.segmentStarts = state.segmentStarts.map (· + delta)
  pending : moved.pending = state.pending.map (Root.moved delta)
  diagnostics : List.Forall₂ (Diagnostic.Moved delta) state.diagnostics moved.diagnostics
  decoded : moved.decoded = state.decoded
  rootsQueued : moved.rootsQueued = state.rootsQueued
  diagnosed : moved.diagnosed = state.diagnosed

theorem Course.verdict_moved {delta : UInt32} (course : Course) :
    (course.moved delta).verdict = course.verdict.moved delta := by
  unfold Course.verdict Course.moved
  cases course.next <;> rfl

/-! ## Moved bytes -/

namespace Image

variable {image : Image} {delta offset : UInt32}

/-- An address is in an image exactly if the moved address is in the moved image, as neither goes over the
top of the address space. -/
theorem contains_moved (hlimit : image.limit < UInt32.size)
    (hmoved : (image.moved delta).limit < UInt32.size) :
    (image.moved delta).contains (offset + delta).toNat = image.contains offset.toNat := by
  have hoffset := offset.toNat_lt
  have hbase := image.base.toNat_lt
  have hdelta := delta.toNat_lt
  rw [Bool.eq_iff_iff, contains_iff, contains_iff]
  simp only [limit, moved, UInt32.toNat_add, UInt32.size] at *
  omega

theorem window_moved (hlimit : image.limit < UInt32.size)
    (hmoved : (image.moved delta).limit < UInt32.size) (hin : image.contains offset.toNat = true)
    (count : Nat) :
    (image.moved delta).window (offset + delta).toNat count = image.window offset.toNat count := by
  have hin' := hin
  rw [← contains_moved hlimit hmoved] at hin'
  have hindex : (offset + delta).toNat - (image.base + delta).toNat =
      offset.toNat - image.base.toNat := by
    obtain ⟨hbase, hbelow⟩ := contains_iff.mp hin
    obtain ⟨hbase', -⟩ := contains_iff.mp hin'
    have hdelta := delta.toNat_lt
    simp only [limit, moved, UInt32.toNat_add, UInt32.size] at *
    omega
  rw [window_eq (contains_iff.mp hin).1, window_eq (contains_iff.mp hin').1]
  exact congrArg (fun index => (image.toList.drop index).take count) hindex

end Image

/-! ## Moved instructions -/

namespace X86.Instruction

variable {instruction : Instruction} {delta : UInt32} {mode : Mode}

theorem next_moved : (instruction.moved delta).next = instruction.next + delta := by
  -- Sums of offsets wrap around, so they may be taken in any order.
  simp only [next, moved]
  grind

theorem first?_moved : (instruction.moved delta).first? = instruction.first? := rfl

theorem target?_moved : (instruction.moved delta).target? = instruction.target?.map (· + delta) := by
  simp only [target?, first?_moved, next_moved]
  cases instruction.first? with
  | none => rfl
  | some operand =>
    cases operand with
    | relative displacement size =>
      simp only [Option.map_some, Option.some.injEq]
      grind
    | _ => rfl

theorem destination?_moved (hnear : (instruction.isShortFar && !mode.assumedProtected) = false) :
    (instruction.moved delta).destination? mode = (instruction.destination? mode).map (· + delta) := by
  have hflow : (instruction.moved delta).operation = instruction.operation := rfl
  unfold isShortFar at hnear
  simp only [destination?, first?_moved, target?_moved, hflow]
  split
  · rfl
  · split
    · cases hfirst : instruction.first? with
      | none => rfl
      | some operand => cases operand <;> simp_all
    · rfl

/-- The text of a direct far branch names the destination, wherever the branch is. -/
theorem text_moved (hfar : instruction.isDirectFar = true) :
    (instruction.moved delta).text none = instruction.text none := by
  have hsame : (instruction.moved delta).destinationText none = instruction.destinationText none := by
    unfold isDirectFar at hfar
    simp only [destinationText, first?_moved]
    cases hfirst : instruction.first? with
    | none => rfl
    | some operand => cases operand <;> simp_all
  simp only [text, hsame]
  rfl

end X86.Instruction

namespace Subject

variable {subject : Subject} {delta : UInt32} {place : Root} {instruction : X86.Instruction} {mode : Mode}

/-- The image of a subject can be moved if neither it nor the moved image reaches up to the top of the
address space. -/
structure Movable (delta : UInt32) (subject : Subject) : Prop where
  limit : subject.image.limit < UInt32.size
  limit_moved : (subject.image.moved delta).limit < UInt32.size

theorem Movable.contains (h : subject.Movable delta) (offset : UInt32) :
    (subject.moved delta).image.contains (offset + delta).toNat = subject.image.contains offset.toNat :=
  Image.contains_moved h.limit h.limit_moved

theorem Movable.decodeAt (h : subject.Movable delta) (hread : subject.decodeAt place = .ok instruction) :
    (subject.moved delta).decodeAt (place.moved delta) = .ok (instruction.moved delta) := by
  have hin : subject.image.contains place.offset.toNat = true := X86.decode_contains hread
  obtain ⟨-, -, hbytes⟩ := X86.decode_bytes hread
  have hwindow := Image.window_moved h.limit h.limit_moved hin instruction.bytes.length
  have hoffset : instruction.offset = place.offset := X86.decode_offset hread
  rw [X86.Instruction.moved, hoffset]
  exact X86.decode_of_window hread (hwindow.trans hbytes.symm)

/-- What is planned moves with the instruction, apart from a destination at an absolute address. -/
theorem plan_moved (hread : subject.decodeAt place = .ok instruction)
    (hnear : subject.followsFar place = false) :
    (subject.moved delta).plan (instruction.moved delta) place.mode =
      (subject.plan instruction place.mode).moved delta := by
  simp only [followsFar, hread] at hnear
  have hbehind : (subject.moved delta).behind (instruction.moved delta) place.mode =
      (subject.behind instruction place.mode).moved delta := by
    have htrailing : (subject.moved delta).trailing? (instruction.moved delta) place.mode =
        subject.trailing? instruction place.mode := rfl
    simp only [behind, htrailing, X86.Instruction.next_moved, Root.moved]
    refine congrArg₂ Root.mk ?_ rfl
    grind
  have haside : (instruction.moved delta).isDirectFar = instruction.isDirectFar := rfl
  have hflow : (instruction.moved delta).operation.flow = instruction.operation.flow := rfl
  simp only [plan, Course.moved, X86.Instruction.destination?_moved hnear, hbehind, haside, hflow,
    Option.map_map]
  congr 1
  split <;> rfl

end Subject

namespace Exploration

variable {subject : Subject} {delta : UInt32} {state other after after' : Exploration} {walk : Walk}
  {met met' trace trace' : List Root} {verdict verdict' : Verdict} {walks walks' : Nat}
  {instruction : X86.Instruction} {mode : Mode} {course : Course}

/-! ## Moved states -/

namespace Moved

theorem recordVisit (h : Moved delta state other) (walk : Walk) :
    Moved delta (state.recordVisit walk) (other.recordVisit (walk.moved delta)) :=
  { h with
    visited := fun offset => by
      simp only [Exploration.recordVisit, getElem?_insert_visited, Walk.moved, UInt32.add_left_inj,
        h.visited]
    decoded := congrArg (· + 1) h.decoded }

theorem markTarget (h : Moved delta state other) (offset : UInt32) (visit : Visit) :
    Moved delta (state.markTarget offset visit) (other.markTarget (offset + delta) visit) :=
  { h with
    visited := fun seen => by
      simp only [Exploration.markTarget, getElem?_insert_visited, UInt32.add_left_inj, h.visited] }

theorem queue (h : Moved delta state other) (root : Root) :
    Moved delta (state.queue root) (other.queue (root.moved delta)) :=
  { h with
    pending := by
      simp only [Exploration.queue, h.pending, List.map_append]
      rfl
    rootsQueued := congrArg (· + 1) h.rootsQueued }

theorem addLabel (h : Moved delta state other) (offset : UInt32) (name : String) :
    Moved delta (state.addLabel offset name) (other.addLabel (offset + delta) name) :=
  { h with
    labels := fun named => by
      simp only [Exploration.addLabel, Std.ExtTreeMap.getElem?_insert, Std.compare_eq_iff_eq,
        UInt32.add_left_inj, h.labels] }

theorem addRoot (h : Moved delta state other) (offset : UInt32) (mode : Mode) (name : Option String) :
    Moved delta (state.addRoot offset mode name) (other.addRoot (offset + delta) mode name) := by
  cases name with
  | none => exact h.queue ⟨offset, mode⟩
  | some name => exact (h.addLabel offset name).queue ⟨offset, mode⟩

theorem addSegmentStart (h : Moved delta state other) (start : UInt32) :
    Moved delta (state.addSegmentStart start) (other.addSegmentStart (start + delta)) :=
  { h with
    segmentStarts := by
      simp only [Exploration.addSegmentStart, h.segmentStarts, List.map_append]
      rfl }

theorem addDiagnostic (h : Moved delta state other) (hfar : instruction.isDirectFar = true) :
    Moved delta (state.addDiagnostic (state.diagnostic instruction mode))
      (other.addDiagnostic (other.diagnostic (instruction.moved delta) mode)) := by
  have hone : (state.diagnostic instruction mode).Moved delta
      (other.diagnostic (instruction.moved delta) mode) := {
    offset := rfl
    text := X86.Instruction.text_moved hfar
    address := ⟨state.segmentStarts, mode.width, rfl, by rw [← h.segmentStarts]; rfl⟩ }
  exact { h with
    diagnostics := List.rel_append h.diagnostics (.cons hone .nil)
    diagnosed := congrArg (· + 1) h.diagnosed }

theorem follow (h : Moved delta state other)
    (haside : course.aside = true → instruction.isDirectFar = true) :
    Moved delta (state.follow instruction mode course)
      (other.follow (instruction.moved delta) mode (course.moved delta)) := by
  obtain ⟨branch, aside, next⟩ := course
  cases branch with
  | none =>
    cases aside with
    | false => exact h
    | true => exact h.addDiagnostic (haside rfl)
  | some root =>
    cases aside with
    | false => exact h.queue root
    | true => exact (h.queue root).addDiagnostic (haside rfl)

/-- Acting on what an instruction leads to is acting on what the moved instruction leads to. -/
theorem pass (h : Moved delta state other) (hread : subject.decodeAt walk.place = .ok instruction)
    (hnear : subject.followsFar walk.place = false) :
    Moved delta
      ((state.recordVisit walk).follow instruction walk.mode (subject.plan instruction walk.mode))
      ((other.recordVisit (walk.moved delta)).follow (instruction.moved delta) walk.mode
        ((subject.moved delta).plan (instruction.moved delta) walk.mode)) := by
  have hplan : (subject.moved delta).plan (instruction.moved delta) walk.mode =
      (subject.plan instruction walk.mode).moved delta := Subject.plan_moved hread hnear
  have haside : (subject.plan instruction walk.mode).aside = true →
      instruction.isDirectFar = true := fun hset => (Bool.and_eq_true_iff.mp hset).1
  rw [hplan]
  exact (h.recordVisit walk).follow haside

/-- Taking the first pending root leaves the others. -/
theorem take (h : Moved delta state other) (rest : List Root) :
    Moved delta { state with pending := rest } { other with pending := rest.map (Root.moved delta) } :=
  { h with pending := rfl }

end Moved

/-! ## Explorations side by side -/

theorem Grows.contains (h : Grows subject state trace after)
    (hinside : ∀ place ∈ state.places, subject.image.contains place.offset.toNat = true) :
    ∀ place ∈ after.places, subject.image.contains place.offset.toNat = true := by
  intro place hplace
  rcases List.mem_append.mp (h.places.mem_iff.mp hplace) with hnew | hold
  · obtain ⟨instruction, hread⟩ := h.readable place hnew
    exact X86.decode_contains hread
  · exact hinside place hold

/-- A step and the step at the moved place do the same if neither fails: both are in the image or both are
behind it, as a step before the image would fail. -/
theorem Strides.moved (hmovable : subject.Movable delta)
    (hinside : ∀ place ∈ state.places, subject.image.contains place.offset.toNat = true)
    (h : Moved delta state other) (hstride : Strides subject state walk met after verdict)
    (hstride' : Strides (subject.moved delta) other (walk.moved delta) met' after' verdict')
    (hok : verdict.error? = none) (hok' : verdict'.error? = none)
    (hnear : ∀ place ∈ met, subject.followsFar place = false) :
    Moved delta after after' ∧ verdict' = verdict.moved delta := by
  have hcontains := hmovable.contains walk.offset
  cases hstride with
  | beyond hout =>
    have hoff : ¬subject.image.contains walk.offset.toNat = true := by
      rw [Image.contains_iff]
      omega
    cases hstride' with
    | beyond hout' => exact ⟨h, rfl⟩
    | known hin' hvisit' =>
      -- What was visited is in the image, so it cannot be known behind it.
      have hvisit := (h.visited walk.offset).symm.trans hvisit'
      exact absurd (hinside _ (mem_places_of_getElem? hvisit)) hoff
    | unreadable hin' hnew' hread' => cases hok'
    | stuck hin' hnew' hread' hcourse' => cases hok'
    | passed hin' hnew' hread' hcourse' =>
      exact absurd (hcontains.symm.trans (X86.decode_contains hread')) hoff
  | @known visit hin hvisit =>
    rw [hinside _ (mem_places_of_getElem? hvisit)] at hcontains
    have hvisit' : other.visited[(walk.moved delta).offset]? = some visit :=
      (h.visited walk.offset).trans hvisit
    obtain ⟨rfl, rfl⟩ := hstride'.unique (.known (Image.contains_iff.mp hcontains).2 hvisit')
    refine ⟨?_, rfl⟩
    have hroot' : (walk.moved delta).atRoot = walk.atRoot := rfl
    rw [hroot']
    split
    · exact h.markTarget walk.offset visit
    · exact h
  | unreadable hin hnew hread => cases hok
  | stuck hin hnew hread hcourse => cases hok
  | @passed instruction _ hnew hread hcourse =>
    have hin : subject.image.contains walk.offset.toNat = true := X86.decode_contains hread
    rw [hin] at hcontains
    have hnew' : other.visited[(walk.moved delta).offset]? = none := (h.visited walk.offset).trans hnew
    cases hstride' with
    | beyond hout' => exact absurd (Image.contains_iff.mp hcontains).2 (Nat.not_lt.mpr hout')
    | known hin' hvisit' => cases hnew'.symm.trans hvisit'
    | unreadable hin' hnew' hread' => cases hok'
    | stuck hin' hnew' hread' hcourse' => cases hok'
    | @passed instruction' hin' hnew' hread' hcourse' =>
      have hfound := hmovable.decodeAt hread
      obtain rfl : instruction' = instruction.moved delta := Except.ok.inj (hread'.symm.trans hfound)
      have hfar : subject.followsFar walk.place = false := hnear _ List.mem_cons_self
      have hplan : (subject.moved delta).plan (instruction.moved delta) walk.mode =
          (subject.plan instruction walk.mode).moved delta := Subject.plan_moved hread hfar
      exact ⟨h.pass hread hfar, (congrArg Course.verdict hplan).trans (Course.verdict_moved _)⟩

theorem Walked.moved (hmovable : subject.Movable delta)
    (hinside : ∀ place ∈ state.places, subject.image.contains place.offset.toNat = true)
    (h : Moved delta state other) (hwalked : Walked subject state walk trace after none)
    (hwalked' : Walked (subject.moved delta) other (walk.moved delta) trace' after' none)
    (hnear : ∀ place ∈ trace, subject.followsFar place = false) : Moved delta after after' := by
  generalize hresult : none = result at hwalked
  induction hwalked generalizing other trace' after' with
  | finished hstride =>
    cases hwalked' with
    | finished hstride' => exact (hstride.moved hmovable hinside h hstride' rfl rfl hnear).1
    | going hstride' rest' => cases (hstride.moved hmovable hinside h hstride' rfl rfl hnear).2
  | failed hstride => cases hresult
  | going hstride rest ih =>
    have hfront := fun place hplace => hnear place (List.mem_append_left _ hplace)
    have hbehind := fun place hplace => hnear place (List.mem_append_right _ hplace)
    cases hwalked' with
    | finished hstride' => cases (hstride.moved hmovable hinside h hstride' rfl rfl hfront).2
    | going hstride' rest' =>
      obtain ⟨hafter, hverdict⟩ := hstride.moved hmovable hinside h hstride' rfl rfl hfront
      obtain rfl := Verdict.going.inj hverdict
      exact ih (hstride.grows.contains hinside) hafter rest' hbehind hresult

theorem Drained.moved (hmovable : subject.Movable delta)
    (hinside : ∀ place ∈ state.places, subject.image.contains place.offset.toNat = true)
    (h : Moved delta state other) (hdrained : Drained subject state walks trace after none)
    (hdrained' : Drained (subject.moved delta) other walks' trace' after' none)
    (hnear : ∀ place ∈ trace, subject.followsFar place = false) : Moved delta after after' := by
  generalize hresult : none = result at hdrained
  induction hdrained generalizing other walks' trace' after' with
  | idle hnil =>
    have hnil' := h.pending
    rw [hnil, List.map_nil] at hnil'
    cases hdrained' with
    | idle _ => exact h
    | walked hroot' hwalked' others' => cases hnil'.symm.trans hroot'
  | failed hroot hwalked => cases hresult
  | @walked state mid final root rest trace more walks result hroot hwalked others ih =>
    have hpending := h.pending
    rw [hroot, List.map_cons] at hpending
    cases hdrained' with
    | idle hnil' => cases hnil'.symm.trans hpending
    | walked hroot' hwalked' others' =>
      obtain ⟨rfl, rfl⟩ := List.cons.inj (hpending.symm.trans hroot')
      have hinside' : ∀ place ∈ ({ state with pending := rest } : Exploration).places,
          subject.image.contains place.offset.toNat = true := hinside
      have hmid := hwalked.moved hmovable hinside' (h.take rest) hwalked'
        fun place hplace => hnear place (List.mem_append_left _ hplace)
      exact ih (hwalked.grows.contains hinside) hmid others'
        (fun place hplace => hnear place (List.mem_append_right _ hplace)) hresult

end Exploration

namespace Session

variable {subject : Subject} {delta : UInt32} {history : List Request}

/-- The same requests keep sessions moved, request by request, as long as no analysis fails. -/
theorem run_moved (hmovable : subject.Movable delta) (herrors : (run subject history).errors = [])
    (herrors' : (run (subject.moved delta) (history.map (Request.moved delta))).errors = [])
    (hnear : ∀ place ∈ (run subject history).state.places, subject.followsFar place = false) :
    (run subject history).state.Moved delta
      (run (subject.moved delta) (history.map (Request.moved delta))).state := by
  induction history using List.reverseRecOn with
  | nil => exact ⟨fun _ => rfl, fun _ => rfl, rfl, rfl, .nil, rfl, rfl, rfl⟩
  | append_singleton history request ih =>
    have hbefore : ∀ place ∈ (run subject history).state.places, subject.followsFar place = false := by
      rw [run_concat] at hnear
      exact fun place hplace => hnear place (places_perform request hplace)
    rw [List.map_append, List.map_cons, List.map_nil] at herrors' ⊢
    have h := ih (errors_of_concat herrors) (errors_of_concat herrors') hbefore
    cases request with
    | root offset mode name =>
      rw [run_concat, run_concat]
      exact h.addRoot offset mode name
    | label offset name =>
      rw [run_concat, run_concat]
      exact h.addLabel offset name
    | segment start =>
      rw [run_concat, run_concat]
      exact h.addSegmentStart start
    | analyze =>
      obtain ⟨walks, trace, hdrained⟩ := drained_of_errors_nil herrors
      obtain ⟨walks', trace', hdrained'⟩ := drained_of_errors_nil herrors'
      have hinside : ∀ place ∈ (run subject history).state.places,
          subject.image.contains place.offset.toNat = true := fun place hplace => by
        obtain ⟨instruction, hread⟩ := (run_accounted subject history).readable place hplace
        exact X86.decode_contains hread
      exact hdrained.moved hmovable hinside h hdrained'
        fun place hplace => hnear place (hdrained.grows.trace_subset hplace)

/-- What requests leave of a subject at a base, if their offsets are counted from the base. -/
def runAt (subject : Subject) (base : UInt32) (history : List Request) : Session :=
  run (subject.based base) (history.map (Request.moved base))

theorem map_moved_map_moved (history : List Request) (first second : UInt32) :
    (history.map (Request.moved first)).map (Request.moved (second - first)) =
      history.map (Request.moved second) := by
  rw [List.map_map]
  refine List.map_congr_left fun request _ => ?_
  have hsum (offset : UInt32) : offset + first + (second - first) = offset + second := by grind
  cases request <;> simp only [Function.comp_apply, Request.moved, hsum]

theorem moved_based (subject : Subject) (first second : UInt32) :
    (subject.based first).moved (second - first) = subject.based second := by
  have hsum : first + (second - first) = second := by grind
  simp only [Subject.moved, Subject.based, Image.moved, hsum]

/-- Where an image is does not matter: at two bases that leave room behind it, the same requests find the
same, at offsets that differ by the distance of the bases, if nothing fails at either of them and no far
branch is followed to an absolute address. -/
theorem base_irrelevant (subject : Subject) (history : List Request) (first second : UInt32)
    (hfirst : (subject.based first).image.limit < UInt32.size)
    (hsecond : (subject.based second).image.limit < UInt32.size)
    (herrors : (runAt subject first history).errors = [])
    (herrors' : (runAt subject second history).errors = [])
    (hnear : ∀ place ∈ (runAt subject first history).state.places,
      (subject.based first).followsFar place = false) :
    (runAt subject first history).state.Moved (second - first)
      (runAt subject second history).state := by
  have hmoved := moved_based subject first second
  have hmovable : (subject.based first).Movable (second - first) := ⟨hfirst, by
    change ((subject.based first).moved (second - first)).image.limit < UInt32.size
    rwa [hmoved]⟩
  unfold runAt at herrors' ⊢
  rw [← hmoved, ← map_moved_map_moved history first second] at herrors' ⊢
  exact run_moved hmovable herrors herrors' hnear

/-- A far call that protected mode puts aside, a branch over a byte, and a return. -/
def brancher : Subject where
  image := ⟨0, ⟨#[0x9A, 0x00, 0x10, 0x00, 0x00, 0x28, 0x00, 0x75, 0x01, 0x90, 0xC3]⟩⟩
  cpu := .i80386
  service := none

theorem base_irrelevant_brancher :
    let history : List Request := [.root 0 .protected32 none, .analyze]
    (runAt brancher 0x1000 history).errors = [] ∧ (runAt brancher 0xFFFF0000 history).errors = [] ∧
    (runAt brancher 0x1000 history).state.places.length = 4 ∧
    (runAt brancher 0x1000 history).state.Moved (0xFFFF0000 - 0x1000)
      (runAt brancher 0xFFFF0000 history).state := by
  intro history
  have herrors : (runAt brancher 0x1000 history).errors = [] := by decide +kernel
  have herrors' : (runAt brancher 0xFFFF0000 history).errors = [] := by decide +kernel
  exact ⟨herrors, herrors', by decide +kernel,
    base_irrelevant brancher history 0x1000 0xFFFF0000 (by decide) (by decide) herrors herrors'
      (by decide +kernel)⟩

end Session

end FlowDisasm
