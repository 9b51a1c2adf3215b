import FlowDisasm.Proofs.Exploration.History

/-!
# How an exploration goes on

Requests only add to what was found: visits and flags stay, diagnostics are told behind the earlier ones,
counters do not go back. Roots are walked from in the order in which they were queued, those that come from
outside before those that are discovered later. An analysis takes one root for each walk that it starts; if
the last walk fails, its root is gone and all roots behind it still wait.
-/
namespace FlowDisasm

/-- The root that is queued when a place is visited. -/
def Subject.branchRoot? (subject : Subject) (place : Root) : Option Root :=
  (subject.destinationAt? place).map fun target => ⟨target, place.mode⟩

theorem Subject.branchRoot?_of_ok {subject : Subject} {place : Root} {instruction : X86.Instruction}
    (h : subject.decodeAt place = .ok instruction) :
    subject.branchRoot? place = (subject.plan instruction place.mode).branch := by
  rw [branchRoot?, destinationAt?_of_ok h]
  rfl

namespace Exploration

/-- The roots that visits of listed places discover, in the order of the visits. -/
def discovered (subject : Subject) (trace : List Root) : List Root :=
  trace.filterMap subject.branchRoot?

/-- A later state has all that was found before, in the same modes. -/
structure Extends (before after : Exploration) : Prop where
  visited : ∀ (offset : UInt32) (visit : Visit), before.visited[offset]? = some visit →
    ∃ later : Visit, after.visited[offset]? = some later ∧ later.mode = visit.mode ∧
      (visit.isTarget = true → later.isTarget = true)
  diagnostics : before.diagnostics <+: after.diagnostics
  decoded : before.decoded ≤ after.decoded
  rootsQueued : before.rootsQueued ≤ after.rootsQueued
  diagnosed : before.diagnosed ≤ after.diagnosed

variable {subject : Subject} {state after : Exploration} {walk : Walk} {met trace : List Root}
  {verdict : Verdict} {result : Option Error} {walks : Nat} {instruction : X86.Instruction}
  {mode : Mode} {course : Course} {offset : UInt32} {error : Error}

theorem Extends.refl (state : Exploration) : Extends state state where
  visited _ visit hvisit := ⟨visit, hvisit, rfl, id⟩
  diagnostics := List.prefix_refl _
  decoded := Nat.le_refl _
  rootsQueued := Nat.le_refl _
  diagnosed := Nat.le_refl _

theorem Extends.trans {mid : Exploration} (h : Extends state mid) (h' : Extends mid after) :
    Extends state after where
  visited offset visit hvisit := by
    obtain ⟨between, hbetween, hmode, htarget⟩ := h.visited offset visit hvisit
    obtain ⟨later, hlater, hmode', htarget'⟩ := h'.visited offset between hbetween
    exact ⟨later, hlater, hmode'.trans hmode, htarget' ∘ htarget⟩
  diagnostics := h.diagnostics.trans h'.diagnostics
  decoded := Nat.le_trans h.decoded h'.decoded
  rootsQueued := Nat.le_trans h.rootsQueued h'.rootsQueued
  diagnosed := Nat.le_trans h.diagnosed h'.diagnosed

/-- Where visits were added and no flag was taken away, nothing is lost. -/
theorem Grows.extends (h : Grows subject state trace after)
    (hflagged : ∀ offset, state.Flagged offset → after.Flagged offset) : Extends state after where
  visited offset visit hvisit := by
    obtain ⟨later, hlater, hmode⟩ := mem_places.mp (h.subset (mem_places_of_getElem? hvisit))
    refine ⟨later, hlater, hmode, fun htarget => ?_⟩
    obtain ⟨found, hfound, hmarked⟩ := hflagged offset ⟨visit, hvisit, htarget⟩
    obtain rfl := Option.some.inj (hlater.symm.trans hfound)
    exact hmarked
  diagnostics := by
    rw [h.diagnostics]
    exact List.prefix_append _ _
  decoded := by rw [h.decoded]; exact Nat.le_add_right _ _
  rootsQueued := by rw [h.rootsQueued]; exact Nat.le_add_right _ _
  diagnosed := by rw [h.diagnosed]; exact Nat.le_add_right _ _

/-! ## Steps -/

@[simp] theorem labels_follow : (state.follow instruction mode course).labels = state.labels := by
  unfold follow
  cases course.branch <;> simp only <;> split <;> rfl

theorem Strides.labels (h : Strides subject state walk met after verdict) :
    after.labels = state.labels := by
  cases h with
  | beyond hout => rfl
  | known hin hvisit => split <;> rfl
  | unreadable hin hnew hread => rfl
  | stuck hin hnew hread hcourse => rfl
  | passed hin hnew hread hcourse =>
    rw [labels_follow]
    rfl

theorem Strides.flagged (h : Strides subject state walk met after verdict)
    (hflagged : state.Flagged offset) : after.Flagged offset := by
  cases h with
  | beyond hout => exact hflagged
  | known hin hvisit =>
    split
    · exact flagged_markTarget.mpr (.inl hflagged)
    · exact hflagged
  | unreadable hin hnew hread => exact hflagged
  | stuck hin hnew hread hcourse => exact (flagged_recordVisit hnew).mpr (.inl hflagged)
  | passed hin hnew hread hcourse =>
    exact flagged_follow.mpr ((flagged_recordVisit hnew).mpr (.inl hflagged))

/-- A step queues what the place that it visits leads to, behind all that waits. An instruction with an
obstacle has no destination. -/
theorem Strides.pending (h : Strides subject state walk met after verdict) :
    after.pending = state.pending ++ discovered subject met := by
  cases h with
  | beyond hout => exact (List.append_nil _).symm
  | known hin hvisit => split <;> exact (List.append_nil _).symm
  | unreadable hin hnew hread => exact (List.append_nil _).symm
  | @stuck instruction obstacle hin hnew hread hcourse =>
    have hnone : subject.branchRoot? walk.place = none := by
      rcases subject.course_eq instruction walk.mode with hok | ⟨-, hbranch, -⟩
      · cases hok.symm.trans hcourse
      · rw [Subject.branchRoot?, Subject.destinationAt?_of_ok hread]
        exact congrArg (Option.map _) hbranch
    rw [discovered, List.filterMap_cons, hnone]
    exact (List.append_nil _).symm
  | @passed instruction hin hnew hread hcourse =>
    have hbranch : subject.branchRoot? walk.place = (subject.plan instruction walk.mode).branch :=
      Subject.branchRoot?_of_ok hread
    rw [pending_follow, discovered, List.filterMap_cons, hbranch]
    cases (subject.plan instruction walk.mode).branch <;> rfl

/-! ## Walks and analyses -/

theorem Walked.pending (h : Walked subject state walk trace after result) :
    after.pending = state.pending ++ discovered subject trace := by
  induction h with
  | finished h => exact h.pending
  | failed h => exact h.pending
  | going h rest ih =>
    rw [ih, h.pending, List.append_assoc, discovered, discovered, discovered, List.filterMap_append]

theorem Drained.labels (h : Drained subject state walks trace after result) :
    after.labels = state.labels :=
  h.invariant (P := fun later _ => later.labels = state.labels)
    (fun hold hstep => hstep.labels.trans hold) (fun hold _ => hold) rfl

theorem Drained.extends (h : Drained subject state walks trace after result) : Extends state after :=
  h.grows.extends fun offset => h.invariant (P := fun later _ => later.Flagged offset)
    (fun hold hstep => hstep.flagged hold) (fun hold _ => hold)

/-- The roots that were walked from are taken from the front of the queue, and what is discovered on the way
comes behind it. A failure is that of the walk from the last one. -/
theorem Drained.taken (h : Drained subject state walks trace after result) :
    ∃ taken, taken.length = walks ∧
      state.pending ++ discovered subject trace = taken ++ after.pending ∧
      ∀ error, result = some error → ∃ earlier failing mid last, taken = earlier ++ [failing] ∧
        Walked subject mid failing.walk last after (some error) := by
  induction h with
  | idle h => exact ⟨[], rfl, List.append_nil _, nofun⟩
  | @failed _ after root rest trace error hroot h =>
    have hqueue : after.pending = rest ++ discovered subject trace := h.pending
    refine ⟨[root], rfl, by rw [hroot, hqueue]; rfl, ?_⟩
    rintro _ ⟨⟩
    exact ⟨[], root, _, trace, rfl, h⟩
  | @walked _ after final root rest trace more _ _ hroot h others ih =>
    have hqueue : after.pending = rest ++ discovered subject trace := h.pending
    obtain ⟨taken, hlength, htaken, hfailing⟩ := ih
    refine ⟨root :: taken, congrArg (· + 1) hlength, ?_, fun error herror => ?_⟩
    · calc _ ++ discovered subject (trace ++ more)
        _ = root :: (rest ++ discovered subject trace ++ discovered subject more) := by
          rw [hroot, discovered, discovered, discovered, List.filterMap_append, List.cons_append,
            List.append_assoc]
        _ = root :: taken ++ final.pending := by rw [← hqueue, htaken, List.cons_append]
    · obtain ⟨earlier, failing, mid, last, rfl, hwalked⟩ := hfailing error herror
      exact ⟨root :: earlier, failing, mid, last, rfl, hwalked⟩

/-- With an empty queue there is nothing to analyse. -/
theorem analyze_idle (h : state.pending = []) : state.analyze subject = (state, [], .ok ()) := by
  simp [analyze, drain, h]

/-- What an analysis does with the roots that wait, whether it fails or not: it takes one from the front for
each walk. -/
structure TakesInOrder (subject : Subject) (before after : Exploration) (result : Option Error)
    (walks : Nat) (trace : List Root) : Prop where
  drained : Drained subject before walks trace after result
  queue : after.pending = (before.pending ++ discovered subject trace).drop walks
  count : walks + after.pending.length = before.pending.length + (discovered subject trace).length
  finished : result = none → after.pending = [] ∧ after.analyze subject = (after, [], .ok ())
  failed : ∀ error, result = some error → ∃ earlier failing mid last,
    before.pending ++ discovered subject trace = earlier ++ failing :: after.pending ∧
      earlier.length + 1 = walks ∧ Walked subject mid failing.walk last after (some error)

theorem Drained.takesInOrder (h : Drained subject state walks trace after result) :
    TakesInOrder subject state after result walks trace := by
  obtain ⟨taken, rfl, htaken, hfailing⟩ := h.taken
  refine ⟨h, ?_, ?_, ?_, ?_⟩
  · rw [htaken, List.drop_left]
  · have hlength := congrArg List.length htaken
    rw [List.length_append, List.length_append] at hlength
    exact hlength.symm
  · rintro rfl
    exact ⟨h.pending_nil, analyze_idle h.pending_nil⟩
  · intro error herror
    obtain ⟨earlier, failing, mid, last, rfl, hwalked⟩ := hfailing error herror
    refine ⟨earlier, failing, mid, last, ?_, ?_, hwalked⟩
    · rw [htaken, List.append_assoc]
      rfl
    · rw [List.length_append]
      rfl

end Exploration

namespace Session

open Exploration

variable {subject : Subject} {session : Session} {request : Request}

/-- Only an analysis touches what was visited and told. -/
theorem perform_found (hrequest : request ≠ .analyze) :
    (session.perform subject request).state.visited = session.state.visited ∧
      (session.perform subject request).state.diagnostics = session.state.diagnostics := by
  cases request with
  | root offset mode name =>
    obtain ⟨labels, hroot⟩ := addRoot_eq session.state offset mode name
    rw [perform, hroot]
    exact ⟨rfl, rfl⟩
  | label offset name => exact ⟨rfl, rfl⟩
  | segment start => exact ⟨rfl, rfl⟩
  | analyze => exact absurd rfl hrequest

theorem perform_extends (subject : Subject) (session : Session) (request : Request) :
    Extends session.state (session.perform subject request).state := by
  cases request with
  | root offset mode name =>
    obtain ⟨labels, hroot⟩ := addRoot_eq session.state offset mode name
    rw [perform, hroot]
    exact { Extends.refl session.state with rootsQueued := Nat.le_succ _ }
  | label offset name => exact { Extends.refl session.state with }
  | segment start => exact { Extends.refl session.state with }
  | analyze =>
    obtain ⟨walks, trace, result, hdrained, -⟩ := perform_analyze subject session
    exact hdrained.extends

theorem run_extends (subject : Subject) (history more : List Request) :
    Extends (run subject history).state (run subject (history ++ more)).state := by
  induction more using List.reverseRecOn with
  | nil =>
    rw [List.append_nil]
    exact .refl _
  | append_singleton more request ih =>
    rw [← List.append_assoc, run_concat]
    exact ih.trans (perform_extends subject _ request)

theorem analyze_takesInOrder (subject : Subject) (state : Exploration) : ∃ walks trace result,
    (state.analyze subject).2.2 = answer result ∧
      TakesInOrder subject state (state.analyze subject).1 result walks trace := by
  obtain ⟨walks, trace, result, hdrained, hanswer⟩ := state.analyze_drained subject
  exact ⟨walks, trace, result, hanswer, hdrained.takesInOrder⟩

/-- Whatever was asked so far and whatever is asked next, nothing that was found is lost. Adding roots, names
and segments finds nothing; analysing leaves names and segments alone and takes the roots in the order in
which they were queued. -/
theorem requests_extend (subject : Subject) (history : List Request) :
    let before := (run subject history).state
    (∀ more, Extends before (run subject (history ++ more)).state) ∧
    (∀ request, request ≠ .analyze →
      (run subject (history ++ [request])).state.visited = before.visited ∧
      (run subject (history ++ [request])).state.diagnostics = before.diagnostics) ∧
    ∃ walks trace result, (before.analyze subject).2.2 = answer result ∧
      (before.analyze subject).1.labels = before.labels ∧
      (before.analyze subject).1.segmentStarts = before.segmentStarts ∧
      TakesInOrder subject before (before.analyze subject).1 result walks trace := by
  intro before
  refine ⟨run_extends subject history, fun request hrequest => ?_, ?_⟩
  · rw [run_concat]
    exact perform_found hrequest
  · obtain ⟨walks, trace, result, hanswer, horder⟩ := analyze_takesInOrder subject before
    exact ⟨walks, trace, result, hanswer, horder.drained.labels, horder.drained.grows.segmentStarts,
      horder⟩

end Session

end FlowDisasm
