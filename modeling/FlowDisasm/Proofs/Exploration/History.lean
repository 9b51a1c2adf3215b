import FlowDisasm.Proofs.Exploration.Termination

/-!
# Histories

An exploration is driven from outside by requests in any order. A session is what a history of requests
leaves, and it goes on after an analysis has failed. A property of sessions is proved over the last
request; what an analysis does there is a chain of walks.
-/
namespace FlowDisasm

/-- What can be asked of an exploration. -/
inductive Request where
  | root (offset : UInt32) (mode : Mode) (name : Option String)
  | label (offset : UInt32) (name : String)
  | segment (start : UInt32)
  | analyze

namespace Request

/-- The root that a request adds. -/
def root? : Request → Option Root
  | .root offset mode _ => some ⟨offset, mode⟩
  | _ => none

def start? : Request → Option UInt32
  | .segment start => some start
  | _ => none

end Request

/-- An exploration, and the errors of its analyses so far. -/
structure Session where
  state : Exploration := {}
  errors : List Error := []

namespace Session

def perform (subject : Subject) (session : Session) : Request → Session
  | .root offset mode name => { session with state := session.state.addRoot offset mode name }
  | .label offset name => { session with state := session.state.addLabel offset name }
  | .segment start => { session with state := session.state.addSegmentStart start }
  | .analyze =>
    match session.state.analyze subject with
    | (state, _, .ok ()) => { session with state }
    | (state, _, .error error) => { state, errors := session.errors ++ [error] }

/-- What a history of requests leaves. -/
def run (subject : Subject) (history : List Request) : Session :=
  history.foldl (perform subject) {}

/-- What a history leaves that ends with an analysis. -/
def finish (subject : Subject) (history : List Request) : Session :=
  run subject (history ++ [.analyze])

def roots (history : List Request) : List Root := history.filterMap Request.root?

def starts (history : List Request) : List UInt32 := history.filterMap Request.start?

variable {subject : Subject} {session : Session} {history : List Request}

theorem run_concat (history : List Request) (request : Request) :
    run subject (history ++ [request]) = (run subject history).perform subject request := by
  rw [run, List.foldl_append]
  rfl

theorem roots_concat (history : List Request) (request : Request) :
    roots (history ++ [request]) = roots history ++ request.root?.toList := by
  rw [roots, List.filterMap_append]
  cases request <;> rfl

theorem starts_concat (history : List Request) (request : Request) :
    starts (history ++ [request]) = starts history ++ request.start?.toList := by
  rw [starts, List.filterMap_append]
  cases request <;> rfl

theorem roots_analyze (history : List Request) : roots (history ++ [.analyze]) = roots history := by
  rw [roots_concat]
  exact List.append_nil _

/-- A property of the empty session that every request keeps holds of all sessions. -/
theorem run_induction {P : List Request → Session → Prop} (hstart : P [] {})
    (hstep : ∀ history session request, P history session →
      P (history ++ [request]) (session.perform subject request)) (history : List Request) :
    P history (run subject history) := by
  induction history using List.reverseRecOn with
  | nil => exact hstart
  | append_singleton history request ih =>
    rw [run_concat]
    exact hstep history _ request ih

theorem addRoot_eq (state : Exploration) (offset : UInt32) (mode : Mode) (name : Option String) :
    ∃ labels, state.addRoot offset mode name =
      { state with
        labels
        pending := state.pending ++ [⟨offset, mode⟩]
        rootsQueued := state.rootsQueued + 1 } := by
  cases name with
  | none => exact ⟨_, rfl⟩
  | some name => exact ⟨_, rfl⟩

theorem perform_analyze (subject : Subject) (session : Session) : ∃ walks trace result,
    Exploration.Drained subject session.state walks trace (session.perform subject .analyze).state
      result ∧
    (session.perform subject .analyze).errors = session.errors ++ result.toList := by
  obtain ⟨walks, trace, result, hdrained, hanswer⟩ := session.state.analyze_drained subject
  simp only [perform]
  generalize session.state.analyze subject = analyzed at hdrained hanswer ⊢
  obtain ⟨state, log, ended⟩ := analyzed
  obtain rfl : ended = Exploration.answer result := hanswer
  cases result with
  | none => exact ⟨walks, trace, none, hdrained, (List.append_nil _).symm⟩
  | some error => exact ⟨walks, trace, some error, hdrained, rfl⟩

/-- What was visited stays visited. -/
theorem places_perform (request : Request) :
    session.state.places ⊆ (session.perform subject request).state.places := by
  cases request with
  | root offset mode name =>
    obtain ⟨labels, hroot⟩ := addRoot_eq session.state offset mode name
    rw [perform, hroot]
    exact List.Subset.refl _
  | label offset name => exact List.Subset.refl _
  | segment start => exact List.Subset.refl _
  | analyze =>
    obtain ⟨walks, trace, result, hdrained, -⟩ := perform_analyze subject session
    exact hdrained.grows.subset

/-- What has failed is not forgotten. -/
theorem errors_of_perform {request : Request} (h : (session.perform subject request).errors = []) :
    session.errors = [] := by
  cases request with
  | root offset mode name => exact h
  | label offset name => exact h
  | segment start => exact h
  | analyze =>
    obtain ⟨walks, trace, result, -, herrors⟩ := perform_analyze subject session
    rw [herrors] at h
    exact (List.append_eq_nil_iff.mp h).1

theorem errors_of_concat {request : Request} (h : (run subject (history ++ [request])).errors = []) :
    (run subject history).errors = [] := by
  rw [run_concat] at h
  exact errors_of_perform h

/-- A last analysis without a failure walked from all roots there were. -/
theorem drained_of_errors_nil (h : (run subject (history ++ [.analyze])).errors = []) :
    ∃ walks trace, Exploration.Drained subject (run subject history).state walks trace
      (run subject (history ++ [.analyze])).state none := by
  obtain ⟨walks, trace, result, hdrained, herrors⟩ := perform_analyze subject (run subject history)
  rw [run_concat] at h ⊢
  rw [herrors] at h
  obtain rfl : result = none := Option.toList_eq_nil_iff.mp (List.append_eq_nil_iff.mp h).2
  exact ⟨walks, trace, hdrained⟩

theorem run_segmentStarts (subject : Subject) (history : List Request) :
    (run subject history).state.segmentStarts = starts history := by
  refine run_induction (P := fun history session =>
    session.state.segmentStarts = starts history) rfl ?_ history
  intro history session request h
  rw [starts_concat, ← h]
  cases request with
  | root offset mode name =>
    obtain ⟨labels, hroot⟩ := addRoot_eq session.state offset mode name
    simp [perform, hroot, Request.start?]
  | label offset name => simp [perform, Exploration.addLabel, Request.start?]
  | segment start => rfl
  | analyze =>
    obtain ⟨walks, trace, result, hdrained, -⟩ := perform_analyze subject session
    rw [hdrained.grows.segmentStarts]
    exact (List.append_nil _).symm

end Session

end FlowDisasm
