import FlowDisasm.Proofs.Exploration.Determinism
import FlowDisasm.Proofs.Exploration.History

/-!
# Following an exploration

One exploration is followed by another one, of another subject or from another state, if the other one can do each step
that does not fail, and a relation between the two is kept. The whole analysis is followed then; as a step has only one
outcome, what is built there is what is done there. Steps that fail are not followed, so nothing is asked of the other
exploration at places that the first one cannot decode.
-/
namespace FlowDisasm

/-- Two verdicts end a walk without a failure, or go on with related walks. -/
inductive Verdict.Matches (Walks : Walk → Walk → Prop) : Verdict → Verdict → Prop
  | going {walk walk' : Walk} (h : Walks walk walk') : Matches Walks (.going walk) (.going walk')
  | finished : Matches Walks .finished .finished

theorem Verdict.Matches.of_ok {verdict : Verdict} (h : verdict.error? = none) :
    verdict.Matches Eq verdict := by
  cases verdict with
  | going walk => exact .going rfl
  | finished => exact .finished
  | failed error => cases h

open Exploration

/-- Explorations of a subject that meet only some places are followed with another subject. -/
structure Simulation (subject other : Subject) (Meets : Root → Prop)
    (States : Exploration → Exploration → Prop) (Walks : Walk → Walk → Prop) : Prop where
  stride : ∀ {state state' after : Exploration} {walk walk' : Walk} {met : List Root}
    {verdict : Verdict}, States state state' → Walks walk walk' →
    Strides subject state walk met after verdict → verdict.error? = none →
    (∀ place ∈ met, Meets place) →
    ∃ met' after' verdict', Strides other state' walk' met' after' verdict' ∧
      States after after' ∧ verdict.Matches Walks verdict'
  idle : ∀ {state state' : Exploration}, States state state' → state.pending = [] →
    state'.pending = []
  take : ∀ {state state' : Exploration} {root : Root} {rest : List Root}, States state state' →
    state.pending = root :: rest →
    ∃ root' rest', state'.pending = root' :: rest' ∧ Walks root.walk root'.walk ∧
      States { state with pending := rest } { state' with pending := rest' }

namespace Simulation

variable {subject other : Subject} {Meets : Root → Prop} {States : Exploration → Exploration → Prop}
  {Walks : Walk → Walk → Prop} {state state' after : Exploration} {walk walk' : Walk}
  {trace : List Root} {walks : Nat} {session session' : Session}

theorem walked (hsim : Simulation subject other Meets States Walks) (h : States state state')
    (hwalk : Walks walk walk') (hwalked : Walked subject state walk trace after none)
    (hmet : ∀ place ∈ trace, Meets place) :
    ∃ trace' after', Walked other state' walk' trace' after' none ∧ States after after' := by
  generalize hresult : none = result at hwalked
  induction hwalked generalizing state' walk' with
  | finished hstride =>
    obtain ⟨met', after', _, hstride', hafter, hverdict⟩ := hsim.stride h hwalk hstride rfl hmet
    cases hverdict
    exact ⟨met', after', .finished hstride', hafter⟩
  | failed hstride => cases hresult
  | going hstride rest ih =>
    obtain ⟨hfront, hbehind⟩ := List.forall_mem_append.mp hmet
    obtain ⟨met', between, _, hstride', hbetween, hverdict⟩ := hsim.stride h hwalk hstride rfl hfront
    cases hverdict with
    | going hnext =>
      obtain ⟨trace', after', hwalked', hafter⟩ := ih hbetween hnext hbehind hresult
      exact ⟨met' ++ trace', after', .going hstride' hwalked', hafter⟩

theorem drained (hsim : Simulation subject other Meets States Walks) (h : States state state')
    (hdrained : Drained subject state walks trace after none)
    (hmet : ∀ place ∈ trace, Meets place) :
    ∃ trace' after', Drained other state' walks trace' after' none ∧ States after after' := by
  generalize hresult : none = result at hdrained
  induction hdrained generalizing state' with
  | @idle state hnil => exact ⟨[], state', .idle (hsim.idle h hnil), h⟩
  | failed hroot hwalked => cases hresult
  | walked hroot hwalked others ih =>
    obtain ⟨hfront, hbehind⟩ := List.forall_mem_append.mp hmet
    obtain ⟨root', rest', hroot', hwalk, htaken⟩ := hsim.take h hroot
    obtain ⟨trace', between, hwalked', hbetween⟩ := hsim.walked htaken hwalk hwalked hfront
    obtain ⟨more', after', hothers, hafter⟩ := ih hbetween hbehind hresult
    exact ⟨trace' ++ more', after', .walked hroot' hwalked' hothers, hafter⟩

/-- An analysis that does not fail is followed by one that does not fail either. -/
theorem analyze (hsim : Simulation subject other Meets States Walks)
    (h : States session.state session'.state)
    (herrors : (session.perform subject .analyze).errors = [])
    (hmet : ∀ place ∈ (session.perform subject .analyze).state.places, Meets place) :
    (session'.perform other .analyze).errors = session'.errors ∧
      States (session.perform subject .analyze).state (session'.perform other .analyze).state := by
  obtain ⟨walks, trace, result, hdrained, hanswer⟩ := Session.perform_analyze subject session
  obtain ⟨walks', trace', result', hdrained', hanswer'⟩ := Session.perform_analyze other session'
  obtain rfl : result = none := by
    rw [herrors] at hanswer
    exact Option.toList_eq_nil_iff.mp (List.append_eq_nil_iff.mp hanswer.symm).2
  obtain ⟨built, after', hbuilt, hafter⟩ :=
    hsim.drained h hdrained fun place hplace => hmet place (hdrained.grows.trace_subset hplace)
  obtain ⟨rfl, rfl⟩ := hbuilt.unique hdrained'
  exact ⟨hanswer'.trans (List.append_nil _), hafter⟩

end Simulation

end FlowDisasm
