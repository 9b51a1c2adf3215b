import FlowDisasm.Proofs.Exploration.Simulation

/-!
# Replaying an exploration

An exploration asks its subject where the image ends, what is decoded at a place, and what an instruction leads
to. Where another subject gives the same answers, what was done can be done there step by step; as a step has only
one outcome, the replay is what is done there. Only steps that do not fail are replayed, so nothing is asked of the
other subject at places that the first one cannot decode.
-/
namespace FlowDisasm

/-- Another subject gives the answers that an exploration of some places got. -/
structure Subject.Agrees (subject : Subject) (places : List Root) (other : Subject) : Prop where
  limit : other.image.limit = subject.image.limit
  decodeAt : ∀ place ∈ places, ∀ instruction, subject.decodeAt place = .ok instruction →
    other.decodeAt place = .ok instruction
  course : ∀ instruction mode, other.course instruction mode = subject.course instruction mode

namespace Subject.Agrees

variable {subject other : Subject} {places fewer : List Root} {instruction : X86.Instruction}
  {mode : Mode}

theorem mono (h : subject.Agrees places other) (hfewer : fewer ⊆ places) :
    subject.Agrees fewer other :=
  { h with decodeAt := fun place hplace => h.decodeAt place (hfewer hplace) }

/-- Instructions that lead somewhere lead to the same in both subjects. -/
theorem plan_eq (h : subject.Agrees places other)
    (hcourse : subject.course instruction mode = .ok (subject.plan instruction mode)) :
    subject.plan instruction mode = other.plan instruction mode :=
  other.eq_plan_of_course ((h.course instruction mode).trans hcourse)

end Subject.Agrees

namespace Exploration

variable {subject other : Subject} {state after : Exploration} {walk : Walk} {met : List Root}
  {verdict : Verdict}

/-- A step that does not fail can be done with the other subject too. -/
theorem Strides.replay (h : subject.Agrees met other)
    (hstride : Strides subject state walk met after verdict) (hok : verdict.error? = none) :
    Strides other state walk met after verdict := by
  cases hstride with
  | beyond hout => exact .beyond (h.limit ▸ hout)
  | known hin hvisit => exact .known (h.limit ▸ hin) hvisit
  | unreadable hin hnew hread => cases hok
  | stuck hin hnew hread hcourse => cases hok
  | passed hin hnew hread hcourse =>
    have hread' := h.decodeAt walk.place List.mem_cons_self _ hread
    have hcourse' := (h.course _ walk.mode).trans hcourse
    -- The state behind the step follows the plan, so the plan has to be told in terms of the other subject.
    rw [h.plan_eq hcourse] at hcourse' ⊢
    exact .passed (h.limit ▸ hin) hnew hread' hcourse'

end Exploration

/-- A subject that agrees at some places does the same as long as no other places are met. -/
theorem Subject.Agrees.simulation {subject other : Subject} {places : List Root}
    (h : subject.Agrees places other) : Simulation subject other (· ∈ places) Eq Eq where
  stride := by
    rintro state _ after walk _ met verdict rfl rfl hstride hok hmet
    exact ⟨met, after, verdict, hstride.replay (h.mono hmet) hok, rfl, .of_ok hok⟩
  idle := by
    rintro state _ rfl hnil
    exact hnil
  take := by
    rintro state _ root rest rfl hroot
    exact ⟨root, rest, hroot, rfl, rfl⟩

namespace Session

variable {subject other : Subject} {session : Session} {history : List Request}

/-- An analysis that does not fail does the same with a subject that agrees. -/
theorem perform_analyze_replay (herrors : (session.perform subject .analyze).errors = [])
    (h : subject.Agrees (session.perform subject .analyze).state.places other) :
    session.perform other .analyze = session.perform subject .analyze := by
  obtain ⟨hended, hstate⟩ :=
    h.simulation.analyze (Eq.refl session.state) herrors fun _ hplace => hplace
  rw [errors_of_perform herrors, ← herrors] at hended
  exact congrArg₂ Session.mk hstate.symm hended

/-- A run that does not fail is the same with every subject that agrees at the places that it visits. -/
theorem run_replay (herrors : (run subject history).errors = [])
    (h : subject.Agrees (run subject history).state.places other) :
    run other history = run subject history := by
  induction history using List.reverseRecOn with
  | nil => rfl
  | append_singleton history request ih =>
    rw [run_concat] at h
    have hbefore := ih (errors_of_concat herrors) (h.mono (places_perform request))
    rw [run_concat] at herrors ⊢
    rw [run_concat, hbefore]
    cases request with
    | root offset mode name => rfl
    | label offset name => rfl
    | segment start => rfl
    | analyze => exact perform_analyze_replay herrors h

end Session

end FlowDisasm
