import FlowDisasm.Proofs.Exploration.Accounting
import FlowDisasm.Proofs.Exploration.FixedPoint

/-!
# The order of requests

Where all roots have one mode and no visited instruction changes it, what was visited can be told without
any run: it is what control flow leads to from the roots, as far as that lies in the image. So the order of
roots and analyses does not matter, neither for what is found nor for whether anything fails. Only the
addresses in diagnostics depend on when segments became known.
-/
namespace FlowDisasm

open scoped List

namespace Subject

def switchesAt (subject : Subject) (place : Root) : Bool :=
  match subject.decodeAt place with
  | .ok instruction => instruction.writesModeRegister
  | .error _ => false

/-- What control flow leads to from roots, apart from any exploration. -/
inductive Reachable (subject : Subject) (added : List Root) : Root → Prop
  | root {place : Root} (h : place ∈ added) : Reachable subject added place
  | step {place next : Root} (h : Reachable subject added place) (hleads : subject.Leads place next) :
      Reachable subject added next

variable {subject : Subject} {added more : List Root} {place next : Root}

theorem Leads.mode_eq (h : subject.Leads place next) (hsteady : subject.switchesAt place = false) :
    next.mode = place.mode := by
  obtain ⟨instruction, hread, hnext⟩ := h
  cases hnext with
  | branch htarget => rfl
  | behind hgoes =>
    have hkeeps : instruction.writesModeRegister = false := by simpa [switchesAt, hread] using hsteady
    simp [behind, hkeeps]

theorem Leads.in_image (h : subject.Leads place next) : place.offset.toNat < subject.image.limit := by
  obtain ⟨instruction, hread, -⟩ := h
  exact (bounds_of_decodeAt hread).2

theorem Reachable.mono (h : subject.Reachable added place) (hadded : added ⊆ more) :
    subject.Reachable more place := by
  induction h with
  | root h => exact .root (hadded h)
  | step h hleads ih => exact .step ih hleads

end Subject

namespace Exploration

variable {subject : Subject} {added more : List Root} {state other after : Exploration} {walk : Walk}
  {met : List Root} {verdict : Verdict} {place : Root} {offset : UInt32} {mode : Mode}

theorem Traced.reachable (h : state.Traced subject added place) : subject.Reachable added place := by
  obtain ⟨root, hroot, hchain⟩ := h
  induction hchain with
  | refl => exact .root hroot
  | tail chain hstep ih => exact .step ih hstep.2

theorem Traced.mode_eq (h : state.Traced subject added place) (hroots : ∀ root ∈ added, root.mode = mode)
    (hsteady : ∀ place ∈ state.places, subject.switchesAt place = false) : place.mode = mode := by
  obtain ⟨root, hroot, hchain⟩ := h
  induction hchain with
  | refl => exact hroots root hroot
  | tail chain hstep ih => exact (hstep.2.mode_eq (hsteady _ hstep.1)).trans ih

/-- An exploration of code in one mode that has come to its end without a failure. -/
structure Complete (subject : Subject) (added : List Root) (mode : Mode) (state : Exploration) :
    Prop where
  settled : Settled subject added state .finished
  grounded : Grounded subject added state .finished
  pending : state.pending = []
  roots : ∀ root ∈ added, root.mode = mode
  steady : ∀ place ∈ state.places, subject.switchesAt place = false

theorem Complete.mode_eq (h : Complete subject added mode state) (hplace : place ∈ state.places) :
    place.mode = mode :=
  (h.grounded.visited place hplace).mode_eq h.roots h.steady

theorem Complete.in_image (h : Complete subject added mode state) (hplace : place ∈ state.places) :
    place.offset.toNat < subject.image.limit := by
  obtain ⟨instruction, hread, -⟩ := h.settled.planned place hplace
  exact (Subject.bounds_of_decodeAt hread).2

/-- A place at a visited offset was visited itself if it has the mode that all have. -/
theorem Complete.mem_of_offset (h : Complete subject added mode state) (hmode : place.mode = mode)
    (hfound : ∃ found ∈ state.places, found.offset = place.offset) : place ∈ state.places := by
  obtain ⟨found, hfound, hoffset⟩ := hfound
  have heq : found = place := by
    rcases found with ⟨_, _⟩
    rcases place with ⟨_, _⟩
    exact congrArg₂ Root.mk hoffset ((h.mode_eq hfound).trans hmode.symm)
  exact heq ▸ hfound

theorem Complete.of_reachable (h : Complete subject added mode state)
    (hreach : subject.Reachable added place) :
    place.mode = mode ∧ (place.offset.toNat < subject.image.limit → place ∈ state.places) := by
  induction hreach with
  | @root place hroot =>
    refine ⟨h.roots place hroot, fun hin => h.mem_of_offset (h.roots place hroot) ?_⟩
    exact (h.settled.flagged h.pending (.inl ⟨place, hroot, rfl⟩) hin).offset_mem
  | step hreach hleads ih =>
    have hplace := ih.2 hleads.in_image
    have hmode := (hleads.mode_eq (h.steady _ hplace)).trans ih.1
    exact ⟨hmode, fun hin =>
      h.mem_of_offset hmode (h.settled.closed h.pending hplace hleads hin)⟩

/-- What was visited, said without a run. -/
theorem Complete.mem_places_iff (h : Complete subject added mode state) :
    place ∈ state.places ↔
      subject.Reachable added place ∧ place.offset.toNat < subject.image.limit :=
  ⟨fun hplace => ⟨(h.grounded.visited place hplace).reachable, h.in_image hplace⟩,
    fun ⟨hreach, hin⟩ => (h.of_reachable hreach).2 hin⟩

theorem Complete.flagged_iff (h : Complete subject added mode state) :
    state.Flagged offset ↔
      state.Sought subject added offset ∧ offset.toNat < subject.image.limit := by
  constructor
  · intro hflagged
    obtain ⟨place, hplace, rfl⟩ := hflagged.offset_mem
    exact ⟨h.grounded.flagged _ hflagged, h.in_image hplace⟩
  · rintro ⟨hsought, hin⟩
    exact h.settled.flagged h.pending hsought hin

/-! ## Two explorations with the same roots -/

/-- Where one exploration came to its end, another one with no other roots does not fail. -/
theorem Complete.never_fails (h : Complete subject added mode state)
    (hgrounded : Grounded subject added other (.going walk))
    (hstep : Strides subject other walk met after verdict) : verdict.error? = none := by
  have hplanned (hin : walk.offset.toNat < subject.image.limit) :
      ∃ instruction, subject.decodeAt walk.place = .ok instruction ∧
        subject.course instruction walk.mode = .ok (subject.plan instruction walk.mode) :=
    h.settled.planned _ ((h.of_reachable (hgrounded.walking walk rfl).1.reachable).2 hin)
  cases hstep with
  | beyond hout => rfl
  | known hin hvisit => rfl
  | unreadable hin hnew hread =>
    obtain ⟨instruction, hok, -⟩ := hplanned hin
    cases hread.symm.trans hok
  | stuck hin hnew hread hcourse =>
    obtain ⟨instruction, hok, hplan⟩ := hplanned hin
    obtain rfl := Except.ok.inj (hread.symm.trans hok)
    cases hcourse.symm.trans hplan
  | passed hin hnew hread hcourse => exact Course.error?_verdict _

theorem Complete.places_perm (h : Complete subject added mode state)
    (h' : Complete subject more mode other) (hadded : added.Perm more) :
    state.places.Perm other.places := by
  rw [List.perm_ext_iff_of_nodup (nodup_places _) (nodup_places _)]
  intro place
  rw [h.mem_places_iff, h'.mem_places_iff]
  have hreach : subject.Reachable added place ↔ subject.Reachable more place :=
    ⟨fun hreach => hreach.mono hadded.subset, fun hreach => hreach.mono hadded.symm.subset⟩
  rw [hreach]

theorem Complete.visited_eq (h : Complete subject added mode state)
    (h' : Complete subject more mode other) (hadded : added.Perm more) :
    state.visited = other.visited := by
  have hplaces := h.places_perm h' hadded
  refine visited_eq_of_places hplaces fun offset => ?_
  rw [h.flagged_iff, h'.flagged_iff]
  have hsought : state.Sought subject added offset ↔ other.Sought subject more offset :=
    ⟨fun hsought => hsought.mono hplaces.subset hadded.subset,
      fun hsought => hsought.mono hplaces.symm.subset hadded.symm.subset⟩
  rw [hsought]

/-- Two explorations are alike if they found the same, whatever names and segments they know. -/
structure Alike (first second : Exploration) : Prop where
  visited : first.visited = second.visited
  decoded : first.decoded = second.decoded
  rootsQueued : first.rootsQueued = second.rootsQueued
  diagnosed : first.diagnosed = second.diagnosed
  told : (first.diagnostics.map Diagnostic.remark).Perm (second.diagnostics.map Diagnostic.remark)

end Exploration

namespace Session

open Exploration

variable {subject : Subject} {added : List Root} {state : Exploration} {mode : Mode}
  {history first second : List Request}

/-- The segments that all analyses of a history know. -/
def AnalyzedUnder (known : List UInt32) (history : List Request) : Prop :=
  ∀ earlier, earlier ++ [.analyze] <+: history → starts earlier = known

theorem AnalyzedUnder.of_no_segments (h : starts history = []) : AnalyzedUnder [] history := by
  intro earlier hpast
  have hstarts : starts (earlier ++ [.analyze]) <+: starts history := hpast.filterMap _
  rw [h, List.prefix_nil, starts_concat] at hstarts
  exact (List.append_eq_nil_iff.mp hstarts).1

/-- With the same segments known throughout, diagnostics are what is told of the places put aside. -/
theorem AnalyzedUnder.told {known : List UInt32} (h : AnalyzedUnder known history) :
    Told subject id (subject.diagnosticAt known) (run subject history).state := by
  refine run_told fun earlier hpast place => ?_
  rw [h earlier hpast]
  rfl

/-- Every diagnostic has the address of its offset under the segments known to the analysis that raised it. -/
def AddressedWhenRaised (subject : Subject) (mode : Mode) (history : List Request) : Prop :=
  ∀ diagnostic ∈ (run subject history).state.diagnostics, ∃ earlier,
    earlier ++ [.analyze] <+: history ∧ Raised subject earlier diagnostic ∧
      diagnostic.address = .of (starts earlier) diagnostic.offset mode.width

theorem addressed_of_complete (h : Complete subject added mode (run subject history).state) :
    AddressedWhenRaised subject mode history := by
  intro diagnostic htold
  obtain ⟨earlier, hpast, hraised, place, hplace, rfl⟩ := run_raised htold
  refine ⟨earlier, hpast, hraised, ?_⟩
  rw [← h.mode_eq hplace]
  rfl

theorem finish_complete (hroots : ∀ root ∈ roots history, root.mode = mode)
    (herrors : (finish subject history).errors = [])
    (hsteady : ∀ place ∈ (finish subject history).state.places, subject.switchesAt place = false) :
    Complete subject (roots history) mode (finish subject history).state where
  settled := finish_settled herrors
  grounded := finish_grounded subject history
  pending := finish_pending_nil herrors
  roots := hroots
  steady := hsteady

/-- A history that adds no root beyond those of a complete exploration has no failure. -/
theorem errors_nil_of_complete (h : Complete subject added mode state) (hroots : roots history ⊆ added) :
    (run subject history).errors = [] := by
  induction history using List.reverseRecOn with
  | nil => rfl
  | append_singleton history request ih =>
    have hold : roots history ⊆ added := by
      rw [roots_concat] at hroots
      exact fun root hroot => hroots (List.mem_append_left _ hroot)
    have herrors := ih hold
    rw [run_concat]
    cases request with
    | root offset mode name => exact herrors
    | label offset name => exact herrors
    | segment start => exact herrors
    | analyze =>
      obtain ⟨walks, trace, result, hdrained, hended⟩ :=
        perform_analyze subject (run subject history)
      have hgrounded : Grounded subject added (run subject history).state .finished :=
        (run_grounded subject history).extend hold (List.Subset.refl _) (fun _ => .inl)
          (fun _ => .inl) (fun _ => .inl) nofun
      have hend := hdrained.invariant
        (P := fun state verdict => Grounded subject added state verdict ∧ verdict.error? = none)
        (fun hwas hstep => ⟨hwas.1.stride hstep, h.never_fails hwas.1 hstep⟩)
        (fun hwas hroot => ⟨hwas.1.take hroot, rfl⟩) ⟨hgrounded, rfl⟩
      rw [Verdict.error?_ofEnd] at hend
      rw [hended, herrors, hend.2]
      rfl

theorem finish_errors_of_perm (h : Complete subject (roots first) mode state)
    (hroots : (roots first).Perm (roots second)) : (finish subject second).errors = [] := by
  refine errors_nil_of_complete h ?_
  rw [roots_analyze]
  exact hroots.symm.subset

theorem finish_complete_of_perm (h : Complete subject (roots first) mode state)
    (hroots : (roots first).Perm (roots second)) :
    Complete subject (roots second) mode (finish subject second).state := by
  have herrors := finish_errors_of_perm h hroots
  refine finish_complete (fun root hroot => h.roots root (hroots.mem_iff.mpr hroot)) herrors ?_
  intro place hplace
  obtain ⟨instruction, hread, -⟩ := (finish_settled herrors).planned place hplace
  have htraced := (finish_grounded subject second).visited place hplace
  have hreach := htraced.reachable.mono hroots.symm.subset
  exact h.steady place ((h.of_reachable hreach).2 (Subject.bounds_of_decodeAt hread).2)

theorem finish_alike
    (h : Complete subject (roots first) mode (finish subject first).state)
    (h' : Complete subject (roots second) mode (finish subject second).state)
    (hroots : (roots first).Perm (roots second)) :
    Alike (finish subject first).state (finish subject second).state := by
  have hplaces := h.places_perm h' hroots
  have hfirst := finish_accounted subject first
  have hsecond := finish_accounted subject second
  have htold : ((finish subject first).state.diagnostics.map Diagnostic.remark).Perm
      ((finish subject second).state.diagnostics.map Diagnostic.remark) :=
    (run_remarks subject _).perm (run_remarks subject _) hplaces
  constructor
  · exact h.visited_eq h' hroots
  · rw [hfirst.decoded, hsecond.decoded, hplaces.length_eq]
  · rw [hfirst.rootsQueued, hsecond.rootsQueued, hplaces.countP_eq, hroots.length_eq]
  · rw [hfirst.diagnosed, hsecond.diagnosed]
    simpa only [List.length_map] using htold.length_eq
  · exact htold

/-- Roots of one mode may be added in any order, with analyses anywhere between them: if no visited
instruction changes the mode and nothing has failed in one order, nothing fails in the other, and the
same is found. A diagnostic has the address under the segments known to the analysis that raised it, so the
diagnostics are the same too if the same segments are known whenever something is analysed. -/
theorem order_irrelevant (hroots : (roots first).Perm (roots second))
    (hmode : ∀ root ∈ roots first, root.mode = mode)
    (herrors : (finish subject first).errors = [])
    (hsteady : ∀ place ∈ (finish subject first).state.places, subject.switchesAt place = false) :
    (finish subject second).errors = [] ∧
    Alike (finish subject first).state (finish subject second).state ∧
    AddressedWhenRaised subject mode (first ++ [.analyze]) ∧
    AddressedWhenRaised subject mode (second ++ [.analyze]) ∧
    ∀ known, AnalyzedUnder known (first ++ [.analyze]) → AnalyzedUnder known (second ++ [.analyze]) →
      (finish subject first).state.diagnostics.Perm
        (finish subject second).state.diagnostics := by
  have h : Complete subject (roots first) mode (finish subject first).state :=
    finish_complete hmode herrors hsteady
  have h' := finish_complete_of_perm h hroots
  refine ⟨finish_errors_of_perm h hroots, finish_alike h h' hroots, addressed_of_complete h,
    addressed_of_complete h', ?_⟩
  intro known hfirst hsecond
  have htold := hfirst.told.perm hsecond.told (h.places_perm h' hroots)
  rwa [List.map_id, List.map_id] at htold

def farCaller : Subject where
  image := ⟨0, ⟨#[0x9A, 0x00, 0x10, 0x00, 0x00, 0x28, 0x00, 0xC3]⟩⟩
  cpu := .i80386
  service := none

theorem order_irrelevant_far_call :
    let first : List Request := [.root 0 .protected32 none, .root 7 .protected32 none]
    let second : List Request := [.root 7 .protected32 none, .analyze, .root 0 .protected32 none]
    let both := finish farCaller first
    let other := finish farCaller second
    both.errors = [] ∧ other.errors = [] ∧ Alike both.state other.state ∧
      AddressedWhenRaised farCaller .protected32 (first ++ [.analyze]) ∧
      AddressedWhenRaised farCaller .protected32 (second ++ [.analyze]) ∧
      both.state.diagnostics.Perm other.state.diagnostics := by
  intro first second both other
  have hroots : (roots first).Perm (roots second) := by decide
  have hmode : ∀ root ∈ roots first, root.mode = .protected32 := by decide
  have herrors : both.errors = [] := by decide +kernel
  obtain ⟨hsecond, halike, hraised, hother, hknown⟩ :=
    order_irrelevant hroots hmode herrors (by decide +kernel)
  exact ⟨herrors, hsecond, halike, hraised, hother,
    hknown [] (.of_no_segments (by decide)) (.of_no_segments (by decide))⟩

/-- Who analyses once more before a segment is registered is shown another address. -/
theorem addresses_as_segments_known :
    (roots [.root 0 .protected32 none, .segment 0]).Perm
      (roots [.root 0 .protected32 none, .analyze, .segment 0]) ∧
    (∀ root ∈ roots [.root 0 .protected32 none, .segment 0], root.mode = .protected32) ∧
    (finish farCaller [.root 0 .protected32 none, .segment 0]).errors = [] ∧
    (∀ place ∈ (finish farCaller [.root 0 .protected32 none, .segment 0]).state.places,
      farCaller.switchesAt place = false) ∧
    ¬ (finish farCaller [.root 0 .protected32 none, .segment 0]).state.diagnostics.Perm
      (finish farCaller [.root 0 .protected32 none, .analyze, .segment 0]).state.diagnostics := by
  decide +kernel

end Session

end FlowDisasm
