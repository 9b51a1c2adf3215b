import FlowDisasm.Proofs.Exploration.Provenance

/-!
# Exploring is a least fixed point

As long as no walk fails, whatever is sought is flagged, pending or under way, and whatever comes behind a
visited instruction is visited or under way. When no root is left, the visited places are closed under
control flow; by their provenance nothing else is among them.
-/
namespace FlowDisasm

namespace Exploration

/-- An offset is awaited if it is flagged or a walk from it is certain. -/
def Awaited (state : Exploration) (verdict : Verdict) (offset : UInt32) : Prop :=
  state.Flagged offset ∨ (∃ root ∈ state.pending, root.offset = offset) ∨
    ∃ walk ∈ verdict.walk?, walk.atRoot ∧ walk.offset = offset

/-- An offset is reached if it is visited or a walk is there. -/
def Reached (state : Exploration) (verdict : Verdict) (offset : UInt32) : Prop :=
  (∃ place ∈ state.places, place.offset = offset) ∨ ∃ walk ∈ verdict.walk?, walk.offset = offset

/-- Everything that visited places lead to inside the image is done or being done. -/
structure Settled (subject : Subject) (added : List Root) (state : Exploration)
    (verdict : Verdict) : Prop where
  planned : ∀ place ∈ state.places, ∃ instruction, subject.decodeAt place = .ok instruction ∧
    subject.course instruction place.mode = .ok (subject.plan instruction place.mode)
  sought : ∀ offset, state.Sought subject added offset → offset.toNat < subject.image.limit →
    state.Awaited verdict offset
  behind : ∀ place ∈ state.places, ∀ instruction, subject.decodeAt place = .ok instruction →
    instruction.operation.flow.goesOn →
    (subject.behind instruction place.mode).offset.toNat < subject.image.limit →
    state.Reached verdict (subject.behind instruction place.mode).offset

variable {subject : Subject} {added : List Root} {state after : Exploration} {walk : Walk}
  {met : List Root} {verdict : Verdict} {place : Root} {offset : UInt32}
  {instruction : X86.Instruction}

/-- What a step that does not fail leaves to be done at the place that it visits. -/
theorem Strides.planned (hstep : Strides subject state walk met after verdict)
    (hok : verdict.error? = none) (hplace : place ∈ met) :
    ∃ instruction, subject.decodeAt place = .ok instruction ∧
      subject.course instruction place.mode = .ok (subject.plan instruction place.mode) ∧
      (∀ target, instruction.destination? place.mode = some target →
        ∃ root ∈ after.pending, root.offset = target) ∧
      (instruction.operation.flow.goesOn → ∃ next ∈ verdict.walk?,
        next.offset = (subject.behind instruction place.mode).offset) := by
  cases hstep with
  | beyond hout => cases hplace
  | known hin hvisit => cases hplace
  | unreadable hin hnew hread => cases hplace
  | stuck hin hnew hread hcourse => cases hok
  | @passed instruction hin hnew hread hcourse =>
    obtain rfl := List.mem_singleton.mp hplace
    refine ⟨instruction, hread, hcourse, ?_, ?_⟩
    · intro target htarget
      refine ⟨⟨target, walk.mode⟩, ?_, rfl⟩
      have hbranch : instruction.destination? walk.mode = some target := htarget
      rw [pending_follow, List.mem_append]
      exact .inr (by simp [Subject.plan, hbranch])
    · intro hgoes
      exact ⟨_, by rw [walk?_plan, if_pos hgoes]; rfl, rfl⟩

theorem Awaited.stride (h : state.Awaited (.going walk) offset)
    (hin : offset.toNat < subject.image.limit)
    (hstep : Strides subject state walk met after verdict) (hok : verdict.error? = none) :
    after.Awaited verdict offset := by
  cases hstep with
  | beyond hout =>
    rcases h with hflagged | hpending | ⟨there, hthere, hroot, rfl⟩
    · exact .inl hflagged
    · exact .inr (.inl hpending)
    · obtain rfl := Option.some.inj hthere
      omega
  | @known visit hknown hvisit =>
    rcases h with hflagged | hpending | ⟨there, hthere, hroot, rfl⟩
    · left
      split
      · exact flagged_markTarget.mpr (.inl hflagged)
      · exact hflagged
    · right; left
      split <;> exact hpending
    · obtain rfl := Option.some.inj hthere
      rw [if_pos hroot]
      exact .inl (flagged_markTarget.mpr (.inr rfl))
  | unreadable hknown hnew hread => cases hok
  | stuck hknown hnew hread hcourse => cases hok
  | passed hknown hnew hread hcourse =>
    rcases h with hflagged | ⟨root, hroot, hoffset⟩ | ⟨there, hthere, hroot, rfl⟩
    · exact .inl (flagged_follow.mpr ((flagged_recordVisit hnew).mpr (.inl hflagged)))
    · refine .inr (.inl ⟨root, ?_, hoffset⟩)
      rw [pending_follow, List.mem_append]
      exact .inl hroot
    · obtain rfl := Option.some.inj hthere
      exact .inl (flagged_follow.mpr ((flagged_recordVisit hnew).mpr (.inr ⟨hroot, rfl⟩)))

theorem Reached.stride (h : state.Reached (.going walk) offset)
    (hin : offset.toNat < subject.image.limit)
    (hstep : Strides subject state walk met after verdict) (hok : verdict.error? = none) :
    after.Reached verdict offset := by
  have hold : state.places ⊆ after.places := hstep.grows.subset
  rcases h with ⟨place, hplace, hoffset⟩ | ⟨there, hthere, rfl⟩
  · exact .inl ⟨place, hold hplace, hoffset⟩
  · obtain rfl := Option.some.inj hthere
    cases hstep with
    | beyond hout => omega
    | known hknown hvisit => exact .inl ⟨_, hold (mem_places_of_getElem? hvisit), rfl⟩
    | unreadable hknown hnew hread => cases hok
    | stuck hknown hnew hread hcourse => cases hok
    | passed hknown hnew hread hcourse =>
      refine .inl ⟨walk.place, ?_, rfl⟩
      rw [places_follow]
      exact (mem_recordVisit hnew).mpr (.inl rfl)

theorem Settled.stride (h : Settled subject added state (.going walk))
    (hstep : Strides subject state walk met after verdict) (hok : verdict.error? = none) :
    Settled subject added after verdict := by
  have hmem {place : Root} : place ∈ after.places ↔ place ∈ met ∨ place ∈ state.places :=
    hstep.grows.places.mem_iff.trans List.mem_append
  constructor
  · intro place hplace
    rcases hmem.mp hplace with hnew | hold
    · obtain ⟨instruction, hread, hcourse, -⟩ := hstep.planned hok hnew
      exact ⟨instruction, hread, hcourse⟩
    · exact h.planned place hold
  · intro offset hsought hin
    have holder (hwas : state.Sought subject added offset) : after.Awaited verdict offset :=
      (h.sought offset hwas hin).stride hin hstep hok
    rcases hsought with hroot | ⟨place, hplace, htarget⟩
    · exact holder (.inl hroot)
    · rcases hmem.mp hplace with hnew | hold
      · obtain ⟨instruction, hread, -, hbranch, -⟩ := hstep.planned hok hnew
        exact .inr (.inl (hbranch offset ((Subject.destinationAt?_of_ok hread).symm.trans htarget)))
      · exact holder (.inr ⟨place, hold, htarget⟩)
  · intro place hplace instruction hread hgoes hin
    rcases hmem.mp hplace with hnew | hold
    · obtain ⟨found, hfound, -, -, hbehind⟩ := hstep.planned hok hnew
      obtain rfl : found = instruction := Except.ok.inj (hfound.symm.trans hread)
      exact .inr (hbehind hgoes)
    · exact (h.behind place hold instruction hread hgoes hin).stride hin hstep hok

/-- Taking a root from the queue turns it into a walk that starts there. -/
theorem Settled.take {root : Root} {rest : List Root} (h : Settled subject added state .finished)
    (hroot : state.pending = root :: rest) :
    Settled subject added { state with pending := rest } (.going root.walk) where
  planned := h.planned
  sought offset hsought hin := by
    rcases h.sought offset hsought hin with hflagged | ⟨next, hnext, rfl⟩ | ⟨there, hthere, -⟩
    · exact .inl hflagged
    · rw [hroot] at hnext
      rcases List.mem_cons.mp hnext with rfl | hrest
      · exact .inr (.inr ⟨next.walk, rfl, rfl, rfl⟩)
      · exact .inr (.inl ⟨next, hrest, rfl⟩)
    · cases hthere
  behind place hplace instruction hread hgoes hin := by
    rcases h.behind place hplace instruction hread hgoes hin with hvisited | ⟨there, hthere, -⟩
    · exact .inl hvisited
    · cases hthere

/-- A root that is added waits to be walked from. -/
theorem Settled.addRoot (root : Root)
    (labels : Std.ExtTreeMap UInt32 String compare) (queued : ℕ)
    (h : Settled subject added state .finished) :
    Settled subject (added ++ [root])
      { state with labels, pending := state.pending ++ [root], rootsQueued := queued } .finished where
  planned := h.planned
  sought offset hsought hin := by
    have holder (hwas : state.Sought subject added offset) : Awaited
        { state with labels, pending := state.pending ++ [root], rootsQueued := queued } .finished
        offset := by
      rcases h.sought offset hwas hin with hflagged | ⟨next, hnext, hoffset⟩ | ⟨there, hthere, -⟩
      · exact .inl hflagged
      · exact .inr (.inl ⟨next, List.mem_append_left _ hnext, hoffset⟩)
      · cases hthere
    rcases hsought with ⟨next, hnext, hoffset⟩ | hbranch
    · rcases List.mem_append.mp hnext with hold | hnew
      · exact holder (.inl ⟨next, hold, hoffset⟩)
      · exact .inr (.inl ⟨next, List.mem_append_right _ hnew, hoffset⟩)
    · exact holder (.inr hbranch)
  behind := h.behind

/-- With nothing left to do, what is sought in the image is flagged. -/
theorem Settled.flagged (h : Settled subject added state .finished) (hpending : state.pending = [])
    (hsought : state.Sought subject added offset) (hin : offset.toNat < subject.image.limit) :
    state.Flagged offset := by
  rcases h.sought offset hsought hin with hflagged | ⟨root, hroot, -⟩ | ⟨there, hthere, -⟩
  · exact hflagged
  · rw [hpending] at hroot
    cases hroot
  · cases hthere

theorem Settled.closed {next : Root} (h : Settled subject added state .finished)
    (hpending : state.pending = []) (hplace : place ∈ state.places) (hleads : subject.Leads place next)
    (hin : next.offset.toNat < subject.image.limit) :
    ∃ found ∈ state.places, found.offset = next.offset := by
  obtain ⟨instruction, hread, hnext⟩ := hleads
  cases hnext with
  | branch htarget =>
    have hat := (Subject.destinationAt?_of_ok hread).trans htarget
    exact (h.flagged hpending (.inr ⟨place, hplace, hat⟩) hin).offset_mem
  | behind hgoes =>
    rcases h.behind place hplace instruction hread hgoes hin with hvisited | ⟨there, hthere, -⟩
    · exact hvisited
    · cases hthere

/-- The visited places are the least set that has the roots inside the image and is closed under control
flow, each place in the mode in which it was met first. -/
structure LeastFixedPoint (subject : Subject) (added : List Root) (state : Exploration) : Prop where
  roots : ∀ root ∈ added, root.offset.toNat < subject.image.limit → root.offset ∈ state.visited
  closed : ∀ offset visit, state.visited[offset]? = some visit →
    ∃ instruction, X86.decode subject.cpu subject.image offset visit.mode.width = .ok instruction ∧
      ∀ next, subject.Successor instruction visit.mode next →
        next.offset.toNat < subject.image.limit → next.offset ∈ state.visited
  traced : ∀ offset visit, state.visited[offset]? = some visit →
    ∃ root ∈ added, Relation.ReflTransGen (state.Steps subject) root ⟨offset, visit.mode⟩

end Exploration

namespace Session

open Exploration

variable {subject : Subject} {history : List Request}

theorem run_settled (herrors : (run subject history).errors = []) :
    Settled subject (roots history) (run subject history).state .finished := by
  induction history using List.reverseRecOn with
  | nil =>
    refine { planned := nofun, sought := ?_, behind := nofun }
    rintro offset (⟨root, hroot, -⟩ | ⟨place, hplace, -⟩)
    · cases hroot
    · cases hplace
  | append_singleton history request ih =>
    have h := ih (errors_of_concat herrors)
    cases request with
    | root offset mode name =>
      obtain ⟨labels, hroot⟩ := addRoot_eq (run subject history).state offset mode name
      rw [roots_concat, run_concat]
      simp only [perform, hroot]
      exact Settled.addRoot _ labels _ h
    | label offset name => simpa [roots_concat, run_concat, Request.root?] using { h with }
    | segment start => simpa [roots_concat, run_concat, Request.root?] using { h with }
    | analyze =>
      obtain ⟨walks, trace, hdrained⟩ := drained_of_errors_nil herrors
      rw [roots_analyze]
      have hinvariant := hdrained.invariant
        (P := fun state verdict =>
          verdict.error? = none → Settled subject (roots history) state verdict)
        (fun hwas hstep hok => (hwas rfl).stride hstep hok) (fun hwas hroot _ => (hwas rfl).take hroot)
        fun _ => h
      exact hinvariant rfl

theorem finish_settled (herrors : (finish subject history).errors = []) :
    Settled subject (roots history) (finish subject history).state .finished := by
  have h := run_settled herrors
  rwa [roots_analyze] at h

theorem finish_pending_nil (herrors : (finish subject history).errors = []) :
    (finish subject history).state.pending = [] := by
  obtain ⟨walks, trace, hdrained⟩ := drained_of_errors_nil herrors
  exact hdrained.pending_nil

/-- At any time between requests, as long as no analysis failed, what visited branches lead to in the image
is flagged: whatever was queued since then was not walked from. -/
theorem run_destination_flagged (herrors : (run subject history).errors = []) {place : Root}
    {target : UInt32} (hplace : place ∈ (run subject history).state.places)
    (htarget : subject.destinationAt? place = some target)
    (hin : target.toNat < subject.image.limit) : (run subject history).state.Flagged target := by
  induction history using List.reverseRecOn with
  | nil => cases hplace
  | append_singleton history request ih =>
    cases request with
    | root offset mode name =>
      obtain ⟨labels, hroot⟩ := addRoot_eq (run subject history).state offset mode name
      have hlater : (run subject (history ++ [.root offset mode name])).state =
          { (run subject history).state with
            labels
            pending := (run subject history).state.pending ++ [⟨offset, mode⟩]
            rootsQueued := (run subject history).state.rootsQueued + 1 } := by
        rw [run_concat, ← hroot]
        rfl
      rw [hlater] at hplace ⊢
      exact ih (errors_of_concat herrors) hplace
    | label offset name =>
      rw [run_concat] at hplace ⊢
      exact ih (errors_of_concat herrors) hplace
    | segment start =>
      rw [run_concat] at hplace ⊢
      exact ih (errors_of_concat herrors) hplace
    | analyze =>
      exact (finish_settled herrors).flagged (finish_pending_nil herrors)
        (.inr ⟨place, hplace, htarget⟩) hin

/-- Whatever is asked in whatever order, once all is analysed and nothing has failed, the roots in the
image and what control flow leads to from them were visited, and nothing else. -/
theorem least_fixed_point (subject : Subject) (history : List Request)
    (herrors : (finish subject history).errors = []) :
    LeastFixedPoint subject (roots history) (finish subject history).state := by
  have hsettled := finish_settled herrors
  have hgrounded := finish_grounded subject history
  have hpending := finish_pending_nil herrors
  constructor
  · intro root hroot hin
    have hflagged := hsettled.flagged hpending (.inl ⟨root, hroot, rfl⟩) hin
    exact mem_visited_iff.mpr hflagged.offset_mem
  · intro offset visit hvisit
    have hplace := mem_places_of_getElem? hvisit
    obtain ⟨instruction, hread, -⟩ := hsettled.planned _ hplace
    refine ⟨instruction, hread, fun next hnext hin => ?_⟩
    exact mem_visited_iff.mpr (hsettled.closed hpending hplace ⟨instruction, hread, hnext⟩ hin)
  · intro offset visit hvisit
    exact hgrounded.visited _ (mem_places_of_getElem? hvisit)

def switching : Subject where
  image := ⟨0, ⟨#[0x0F, 0x22, 0xC0, 0xEB, 0x01, 0x90, 0xC3]⟩⟩
  cpu := .i80386
  service := none

theorem least_fixed_point_switching :
    (finish switching [.analyze, .root 0 .real16 none]).errors = [] ∧
    LeastFixedPoint switching [⟨0, .real16⟩]
      (finish switching [.analyze, .root 0 .real16 none]).state :=
  have herrors : (finish switching [.analyze, .root 0 .real16 none]).errors = [] := by
    decide +kernel
  ⟨herrors, least_fixed_point switching [.analyze, .root 0 .real16 none] herrors⟩

end Session

end FlowDisasm
