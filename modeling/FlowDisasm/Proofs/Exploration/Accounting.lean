import FlowDisasm.Proofs.Exploration.History

/-!
# Counters and diagnostics

Everything that a session counts can be read off the visited places: the decoded instructions, the roots
that were queued for followed destinations, and the diagnostics of far branches that were put aside. The
equalities survive failed analyses, because a walk that fails leaves no visit half recorded.
-/
namespace FlowDisasm

open scoped List

/-- What a diagnostic says apart from an address. -/
def Diagnostic.remark (diagnostic : Diagnostic) : UInt32 × String :=
  (diagnostic.offset, diagnostic.text)

/-- What is told of a place whatever segments are known. -/
def Subject.remarkAt (subject : Subject) (place : Root) : UInt32 × String :=
  (subject.diagnosticAt [] place).remark

variable {subject : Subject} {state after : Exploration} {trace : List Root} {added : ℕ}

namespace Exploration

/-- The counters agree with the visited places and the number of roots added from outside. -/
structure Accounted (subject : Subject) (added : ℕ) (state : Exploration) : Prop where
  decoded : state.decoded = state.places.length
  readable : ∀ place ∈ state.places, ∃ instruction, subject.decodeAt place = .ok instruction
  rootsQueued : state.rootsQueued =
    added + state.places.countP fun place => (subject.destinationAt? place).isSome
  diagnosed : state.diagnosed = state.diagnostics.length

/-- The diagnostics, as far as a view shows them, are those expected of the places put aside. -/
def Told {α : Type} (subject : Subject) (view : Diagnostic → α) (expected : Root → α)
    (state : Exploration) : Prop :=
  (state.diagnostics.map view).Perm ((state.places.filter subject.putsAside).map expected)

theorem Accounted.grows (h : Accounted subject added state) (hgrows : Grows subject state trace after) :
    Accounted subject added after where
  decoded := by
    rw [hgrows.decoded, h.decoded, hgrows.places.length_eq, List.length_append, Nat.add_comm]
  readable place hplace := by
    rcases List.mem_append.mp (hgrows.places.mem_iff.mp hplace) with hnew | hold
    · exact hgrows.readable place hnew
    · exact h.readable place hold
  rootsQueued := by
    rw [hgrows.rootsQueued, h.rootsQueued, hgrows.places.countP_eq, List.countP_append]
    omega
  diagnosed := by
    rw [hgrows.diagnosed, h.diagnosed, hgrows.diagnostics, List.length_append, List.length_map]

theorem Told.grows {α : Type} {view : Diagnostic → α} {expected : Root → α}
    (h : Told subject view expected state) (hgrows : Grows subject state trace after)
    (hview : ∀ place, view (subject.diagnosticAt state.segmentStarts place) = expected place) :
    Told subject view expected after := by
  have hnew : (trace.filter subject.putsAside).map (view ∘ subject.diagnosticAt state.segmentStarts) =
      (trace.filter subject.putsAside).map expected :=
    List.map_congr_left fun place _ => hview place
  calc after.diagnostics.map view
    _ = state.diagnostics.map view ++ (trace.filter subject.putsAside).map expected := by
      rw [hgrows.diagnostics, List.map_append, List.map_map, hnew]
    _ ~ (state.places.filter subject.putsAside).map expected ++
        (trace.filter subject.putsAside).map expected := h.append_right _
    _ ~ (trace.filter subject.putsAside).map expected ++
        (state.places.filter subject.putsAside).map expected := List.perm_append_comm
    _ = ((trace ++ state.places).filter subject.putsAside).map expected := by
      rw [List.filter_append, List.map_append]
    _ ~ (after.places.filter subject.putsAside).map expected :=
      ((hgrows.places.filter _).map _).symm

/-- Explorations of the same places that tell what is expected tell the same. -/
theorem Told.perm {α : Type} {view : Diagnostic → α} {expected : Root → α}
    (h : Told subject view expected state) (h' : Told subject view expected after)
    (hplaces : state.places.Perm after.places) :
    (state.diagnostics.map view).Perm (after.diagnostics.map view) :=
  (h.trans ((hplaces.filter _).map _)).trans h'.symm

end Exploration

namespace Session

open Exploration

theorem run_accounted (subject : Subject) (history : List Request) :
    Accounted subject (roots history).length (run subject history).state := by
  refine run_induction (P := fun history session =>
    Accounted subject (roots history).length session.state) ?_ ?_ history
  · exact { decoded := rfl, readable := nofun, rootsQueued := rfl, diagnosed := rfl }
  · intro history session request h
    rw [roots_concat, List.length_append]
    cases request with
    | root offset mode name =>
      obtain ⟨labels, hroot⟩ := addRoot_eq session.state offset mode name
      simp only [perform, hroot]
      exact { h with rootsQueued := by rw [h.rootsQueued]; simp [Request.root?, places]; omega }
    | label offset name => exact { h with }
    | segment start => exact { h with }
    | analyze =>
      obtain ⟨walks, trace, result, hdrained, -⟩ := perform_analyze subject session
      exact h.grows hdrained.grows

theorem finish_accounted (subject : Subject) (history : List Request) :
    Accounted subject (roots history).length (finish subject history).state := by
  have h := run_accounted subject (history ++ [.analyze])
  rwa [roots_analyze] at h

/-- A session tells what is expected, if that is right with the segments that every analysis knows. -/
theorem run_told {α : Type} {view : Diagnostic → α} {expected : Root → α} {history : List Request}
    (hview : ∀ earlier, earlier ++ [.analyze] <+: history → ∀ place,
      view (subject.diagnosticAt (starts earlier) place) = expected place) :
    Told subject view expected (run subject history).state := by
  induction history using List.reverseRecOn with
  | nil => exact .refl _
  | append_singleton history request ih =>
    have hold := ih fun earlier hpast => hview earlier (hpast.trans (List.prefix_append _ _))
    rw [run_concat]
    cases request with
    | root offset mode name =>
      obtain ⟨labels, hroot⟩ := addRoot_eq (run subject history).state offset mode name
      simp only [perform, hroot]
      exact hold
    | label offset name => exact hold
    | segment start => exact hold
    | analyze =>
      obtain ⟨walks, trace, result, hdrained, -⟩ := perform_analyze subject (run subject history)
      refine hold.grows hdrained.grows fun place => ?_
      rw [run_segmentStarts]
      exact hview history List.prefix_rfl place

theorem run_remarks (subject : Subject) (history : List Request) :
    Told subject Diagnostic.remark subject.remarkAt (run subject history).state :=
  run_told fun _ _ _ => rfl

/-- What an analysis tells that was not told before. -/
def Raised (subject : Subject) (earlier : List Request) (diagnostic : Diagnostic) : Prop :=
  diagnostic ∈ (run subject (earlier ++ [.analyze])).state.diagnostics ∧
    diagnostic ∉ (run subject earlier).state.diagnostics

/-- Every diagnostic was raised by some analysis, with the segments that were known to it. -/
theorem run_raised {diagnostic : Diagnostic} (h : diagnostic ∈ (run subject history).state.diagnostics) :
    ∃ earlier, earlier ++ [.analyze] <+: history ∧ Raised subject earlier diagnostic ∧
      ∃ place ∈ (run subject history).state.places,
        diagnostic = subject.diagnosticAt (starts earlier) place := by
  induction history using List.reverseRecOn with
  | nil => cases h
  | append_singleton history request ih =>
    by_cases hold : diagnostic ∈ (run subject history).state.diagnostics
    · obtain ⟨earlier, hpast, hraised, place, hplace, hsame⟩ := ih hold
      refine ⟨earlier, hpast.trans (List.prefix_append _ _), hraised, place, ?_, hsame⟩
      rw [run_concat]
      exact places_perform request hplace
    · cases request with
      | root offset mode name =>
        obtain ⟨labels, hroot⟩ := addRoot_eq (run subject history).state offset mode name
        simp only [run_concat, perform, hroot] at h
        exact absurd h hold
      | label offset name =>
        rw [run_concat] at h
        exact absurd h hold
      | segment start =>
        rw [run_concat] at h
        exact absurd h hold
      | analyze =>
        refine ⟨history, List.prefix_rfl, ⟨h, hold⟩, ?_⟩
        obtain ⟨walks, trace, result, hdrained, -⟩ := perform_analyze subject (run subject history)
        have hgrows := hdrained.grows
        rw [run_concat, hgrows.diagnostics, run_segmentStarts] at h
        obtain ⟨place, hplace, rfl⟩ := List.mem_map.mp ((List.mem_append.mp h).resolve_left hold)
        rw [run_concat]
        exact ⟨place, hgrows.trace_subset (List.mem_filter.mp hplace).1, rfl⟩

/-- After any history the counters and diagnostics are exact: an instruction was decoded for each
visited offset, roots were queued from outside or for followed destinations, and each far branch that
protected mode keeps from being followed was told once. -/
theorem counters_exact (subject : Subject) (history : List Request) :
    let state := (run subject history).state
    state.decoded = state.visited.size ∧
    (∀ offset visit, state.visited[offset]? = some visit →
      subject.image.base.toNat ≤ offset.toNat ∧ offset.toNat < subject.image.limit ∧
      offset.toNat < 2 ^ 32 ∧
      ∃ instruction, X86.decode subject.cpu subject.image offset visit.mode.width =
        .ok instruction) ∧
    state.rootsQueued = (roots history).length +
      state.places.countP (fun place => (subject.destinationAt? place).isSome) ∧
    (state.diagnostics.map Diagnostic.remark).Perm
      ((state.places.filter subject.putsAside).map subject.remarkAt) ∧
    (state.diagnostics.map Diagnostic.offset).Nodup ∧
    state.diagnosed = state.diagnostics.length := by
  intro state
  have h : Accounted subject (roots history).length state := run_accounted subject history
  have htold := run_remarks subject history
  refine ⟨h.decoded.trans (length_places state), ?_, h.rootsQueued, htold, ?_, h.diagnosed⟩
  · intro offset visit hvisit
    obtain ⟨instruction, hread⟩ := h.readable _ (mem_places_of_getElem? hvisit)
    obtain ⟨hbase, hlimit⟩ := Subject.bounds_of_decodeAt hread
    exact ⟨hbase, hlimit, offset.toNat_lt, instruction, hread⟩
  · have hoffsets := htold.map Prod.fst
    rw [List.map_map, List.map_map] at hoffsets
    refine hoffsets.nodup_iff.mpr ?_
    exact ((nodup_offsets state).sublist (List.filter_sublist.map _))

end Session

end FlowDisasm
