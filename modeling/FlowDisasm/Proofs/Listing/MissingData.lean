import FlowDisasm.Proofs.Exploration.Accounting
import FlowDisasm.Proofs.Listing.Rendering

/-!
# Listings after failed analyses

An analysis that fails leaves a state that can be listed: all that is visited was decoded and is decoded again,
and the gaps lie in the image. There is one exception. A service call is recorded before its data are looked for,
so one whose data are not in the image stays among the visited places, and no listing gets past it. Each such call
is the last place of the walk that found it, and its error is that of the analysis.
-/
namespace FlowDisasm

def failure? {α : Type} : Except Error α → Option Error
  | .ok _ => none
  | .error error => some error

@[simp] theorem failure?_ok {α : Type} (value : α) : failure? (.ok value : Except Error α) = none := rfl

@[simp] theorem failure?_error {α : Type} (error : Error) :
    failure? (.error error : Except Error α) = some error := rfl

theorem failure?_eq_none_iff {α : Type} {result : Except Error α} :
    failure? result = none ↔ ∃ value, result = .ok value := by
  cases result <;> simp

/-- What keeps a place from being listed: it is not decoded, or it is a service call whose data are not in the
image. -/
def Subject.missing? (subject : Subject) (place : Root) : Option Error :=
  match subject.decodeAt place with
  | .error error => some error
  | .ok instruction =>
    match subject.trailing? instruction place.mode with
    | none => none
    | some count => failure? (subject.image.read instruction.next.toNat count.toNat)

namespace Subject

variable {subject : Subject} {place : Root} {instruction : X86.Instruction} {error : Error}

/-- What is missing at a place that is decoded is what keeps a walk from going on there. -/
theorem missing?_eq_some_iff (hread : subject.decodeAt place = .ok instruction) :
    subject.missing? place = some error ↔
      subject.course instruction place.mode = .error (.missingData error) := by
  rw [course_eq_missingData_iff]
  simp only [missing?, hread]
  cases hcount : subject.trailing? instruction place.mode with
  | none => simp
  | some count => cases hdata : subject.image.read instruction.next.toNat count.toNat <;> simp [hdata]

theorem missing?_eq_none_iff (hread : subject.decodeAt place = .ok instruction) :
    subject.missing? place = none ↔
      ∀ count, subject.trailing? instruction place.mode = some count →
        ∃ data, subject.image.read instruction.next.toNat count.toNat = .ok data := by
  simp only [missing?, hread]
  cases hcount : subject.trailing? instruction place.mode with
  | none => simp
  | some count => simp [failure?_eq_none_iff]

/-- Data that are missing are missing at an address: 32-bit numbers do not add up to more than a 64-bit one. -/
theorem missing?_eq_addressOutOfRange (hread : subject.decodeAt place = .ok instruction)
    (h : subject.missing? place = some error) : ∃ address, error = .addressOutOfRange address := by
  rw [missing?_eq_some_iff hread, course_eq_missingData_iff] at h
  obtain ⟨count, -, hdata⟩ := h
  have hnext := instruction.next.toNat_lt
  have hcount := count.toNat_lt
  exact ⟨_, Image.read_eq_error hdata⟩

end Subject

namespace Exploration

variable {subject : Subject} {state after : Exploration} {walk : Walk} {met trace : List Root}
  {verdict : Verdict} {result : Option Error} {walks : Nat}

/-- A step that visits a place with something missing fails for that. -/
theorem Strides.missing (h : Strides subject state walk met after verdict) :
    (met.filterMap subject.missing?).Sublist verdict.error?.toList := by
  cases h with
  | beyond hout => exact .slnil
  | known hin hvisit => exact .slnil
  | unreadable hin hnew hread => exact List.nil_sublist _
  | @stuck instruction obstacle hin hnew hread hcourse =>
    cases hmissing : subject.missing? walk.place with
    | none => simp [hmissing]
    | some error =>
      have hobstacle := (Subject.missing?_eq_some_iff hread).mp hmissing
      obtain rfl : Obstacle.missingData error = obstacle :=
        Except.error.inj (hobstacle.symm.trans hcourse)
      simp [hmissing, Verdict.error?, obstacleError]
  | @passed instruction hin hnew hread hcourse =>
    have hmissing : subject.missing? walk.place = none := by
      by_contra hsome
      obtain ⟨error, herror⟩ := Option.ne_none_iff_exists'.mp hsome
      cases hcourse.symm.trans ((Subject.missing?_eq_some_iff hread).mp herror)
    simp [hmissing]

theorem Walked.missing (h : Walked subject state walk trace after result) :
    (trace.filterMap subject.missing?).Sublist result.toList := by
  induction h with
  | finished h => exact h.missing
  | failed h => exact h.missing
  | going h rest ih =>
    -- A step that goes on has no error, so nothing was missing at its place.
    have hnone := List.sublist_nil.mp h.missing
    rw [List.filterMap_append, hnone]
    exact ih

/-- At most the last place of an analysis has something missing, and then the analysis fails for it. -/
theorem Drained.missing (h : Drained subject state walks trace after result) :
    (trace.filterMap subject.missing?).Sublist result.toList := by
  induction h with
  | idle h => exact .slnil
  | failed hroot h => exact h.missing
  | walked hroot h others ih =>
    have hnone := List.sublist_nil.mp h.missing
    rw [List.filterMap_append, hnone]
    exact ih

end Exploration

namespace Listing

variable {layout : Layout} {subject : Subject} {state : Exploration} {visits : List (UInt32 × Visit)}
  {shown : Nat}

theorem failure?_codeOf (subject : Subject) (state : Exploration) (offset : UInt32) (visit : Visit) :
    failure? (codeOf subject state offset visit) = subject.missing? ⟨offset, visit.mode⟩ := by
  simp only [codeOf, Subject.missing?, Subject.decodeAt, bind, Except.bind]
  cases X86.decode subject.cpu subject.image offset visit.mode.width with
  | error error => rfl
  | ok instruction =>
    cases hcount : subject.trailing? instruction visit.mode with
    | none => simp only [hcount]; rfl
    | some count =>
      simp only [hcount]
      cases subject.image.read instruction.next.toNat count.toNat <;> rfl

/-- A listing of places that are decoded fails at the first one that has something missing, and nowhere else. -/
theorem failure?_itemsFrom (hshown : subject.image.base.toNat ≤ shown)
    (hread : ∀ visited ∈ visits, ∃ instruction,
      subject.decodeAt ⟨visited.1, visited.2.mode⟩ = .ok instruction) :
    failure? (itemsFrom layout subject state shown visits) =
      visits.findSome? fun visited => subject.missing? ⟨visited.1, visited.2.mode⟩ := by
  induction visits generalizing shown with
  | nil => rfl
  | cons visited rest ih =>
    obtain ⟨offset, visit⟩ := visited
    obtain ⟨⟨instruction, hfirst⟩, hrest⟩ := List.forall_mem_cons.mp hread
    have hbounds : subject.image.base.toNat ≤ offset.toNat ∧ offset.toNat < subject.image.limit :=
      Subject.bounds_of_decodeAt hfirst
    have hcode := failure?_codeOf subject state offset visit
    rw [itemsFrom_cons layout state visit rest hshown hbounds.2, List.findSome?_cons, ← hcode]
    cases codeOf subject state offset visit with
    | error error => rfl
    | ok code =>
      have hbehind := ih (Nat.le_add_right_of_le hbounds.1 : _ ≤ _ + code.bytes.length) hrest
      simp only [failure?_ok, ← hbehind, bind, Except.bind]
      cases itemsFrom layout subject state (offset.toNat + code.bytes.length) rest <;> rfl

theorem failure?_render (layout : Layout)
    (hread : ∀ place ∈ state.places, ∃ instruction, subject.decodeAt place = .ok instruction) :
    failure? (render layout subject state) = state.places.findSome? subject.missing? := by
  rw [Exploration.places, List.forall_mem_map] at hread
  have hitems : failure? (items layout subject state) = state.places.findSome? subject.missing? := by
    rw [Exploration.places, List.findSome?_map]
    exact failure?_itemsFrom (Nat.le_refl _) hread
  rw [← hitems, render]
  cases items layout subject state <;> rfl

end Listing

namespace Session

open Exploration Listing

/-- The visited places with something missing are told by failed analyses, each of them by another one. -/
theorem run_missing (subject : Subject) (history : List Request) :
    ((run subject history).state.places.filterMap subject.missing?).Subperm
      (run subject history).errors := by
  refine run_induction (P := fun _ session =>
    (session.state.places.filterMap subject.missing?).Subperm session.errors) ?_ ?_ history
  · exact List.nil_subperm
  · intro history session request h
    -- Only an analysis visits places, and only an analysis fails.
    cases request with
    | root offset mode name =>
      obtain ⟨labels, hroot⟩ := addRoot_eq session.state offset mode name
      simp only [perform, hroot]
      exact h
    | label offset name => exact h
    | segment start => exact h
    | analyze =>
      obtain ⟨walks, trace, result, hdrained, herrors⟩ := perform_analyze subject session
      have hplaces := hdrained.grows.places.filterMap subject.missing?
      rw [List.filterMap_append] at hplaces
      rw [herrors]
      exact hplaces.subperm.trans
        ((hdrained.missing.subperm.append h).trans List.perm_append_comm.subperm)

/-- After any history, failed analyses included, all that is visited is decoded again, and the state can be listed
in every layout if and only if each visited service call has its data in the image. The error of a listing is that
of the first call that has not. Such calls were told: each of them ended an analysis that failed for an address out
of range, so there are no more of them than such failures. -/
theorem rendering_needs_data (layout : Layout) (subject : Subject) (history : List Request) :
    let session := run subject history
    (∀ offset visit, session.state.visited[offset]? = some visit →
      ∃ instruction, X86.decode subject.cpu subject.image offset visit.mode.width =
        .ok instruction) ∧
    ((∃ text, render layout subject session.state = .ok text) ↔
      ∀ offset visit instruction count, session.state.visited[offset]? = some visit →
        X86.decode subject.cpu subject.image offset visit.mode.width = .ok instruction →
        subject.trailing? instruction visit.mode = some count →
        ∃ data, subject.image.read instruction.next.toNat count.toNat = .ok data) ∧
    failure? (render layout subject session.state) =
      session.state.places.findSome? subject.missing? ∧
    (∀ error ∈ session.state.places.filterMap subject.missing?,
      ∃ address, error = .addressOutOfRange address) ∧
    (session.state.places.filterMap subject.missing?).Subperm session.errors := by
  intro session
  have hread := (run_accounted subject history).readable
  have hfailure := failure?_render layout hread
  refine ⟨fun offset visit hvisit => hread _ (mem_places_of_getElem? hvisit), ?_, hfailure, ?_,
    run_missing subject history⟩
  · rw [← failure?_eq_none_iff, hfailure, List.findSome?_eq_none_iff]
    constructor
    · intro hnone offset visit instruction count hvisit hdecode hcount
      have hat : subject.decodeAt ⟨offset, visit.mode⟩ = .ok instruction := hdecode
      have hmissing := hnone _ (mem_places_of_getElem? hvisit)
      exact (Subject.missing?_eq_none_iff hat).mp hmissing count hcount
    · rintro hdata ⟨offset, mode⟩ hplace
      obtain ⟨visit, hvisit, rfl⟩ := mem_places.mp hplace
      obtain ⟨instruction, hdecode⟩ := hread _ hplace
      apply (Subject.missing?_eq_none_iff hdecode).mpr
      exact fun count => hdata offset visit instruction count hvisit hdecode
  · intro error herror
    obtain ⟨place, hplace, hmissing⟩ := List.mem_filterMap.mp herror
    obtain ⟨instruction, hdecode⟩ := hread place hplace
    exact Subject.missing?_eq_addressOutOfRange hdecode hmissing

def truncatedCaller : Subject where
  image := ⟨0x1000, ⟨#[0xCD, 0x20, 0x01, 0x00]⟩⟩
  cpu := .i80386
  service := some (.driverCall 0x20)

/-- Not every state can be listed: the call is still visited after the analysis has failed for its data. -/
theorem truncated_call_not_rendered : ¬ ∀ (layout : Layout) (subject : Subject)
    (history : List Request), ∃ text, render layout subject (run subject history).state = .ok text := by
  intro halways
  obtain ⟨text, htext⟩ := halways {} truncatedCaller [.root 0x1000 .protected32 none, .analyze]
  have herror : failure? (render {} truncatedCaller
      (run truncatedCaller [.root 0x1000 .protected32 none, .analyze]).state) =
        some (.addressOutOfRange 0x1004) := by
    decide +kernel
  rw [htext] at herror
  cases herror

end Session

end FlowDisasm
