import FlowDisasm.Proofs.Exploration.FixedPoint

/-!
# Which offsets are destinations

An offset is flagged in two ways: a walk from a root visits it, or finds it visited. Neither happens to code
that is only come upon from the instruction before it. Once all roots are walked from, the flags can be read
off the roots that were added and the branches that were visited, whatever came first.
-/
namespace FlowDisasm

/-- A branch whose destination is known and followed: a near one, or in real mode a far one to a selector and
an offset in its own bytes. -/
inductive X86.Instruction.BranchesTo (instruction : X86.Instruction) (mode : Mode) (offset : UInt32) : Prop
  | near (hnear : instruction.operation.flow.isNear = true)
      (htarget : instruction.target? = some offset) : BranchesTo instruction mode offset
  | far {selector distance : UInt16} (hfar : instruction.operation.flow.isFar = true)
      (hreal : mode.assumedProtected = false)
      (hfirst : instruction.first? = some (.far16 selector distance))
      (hoffset : offset.toNat = selector.toNat * 16 + distance.toNat) :
      BranchesTo instruction mode offset

namespace X86.Instruction

variable {instruction : X86.Instruction} {mode : Mode} {offset : UInt32}

/-- The address of a selector and an offset has 21 bits at most. -/
theorem toNat_segmented (selector distance : UInt16) :
    (UInt32.ofNat (selector.toNat * 16 + distance.toNat)).toNat =
      selector.toNat * 16 + distance.toNat := by
  have hselector := selector.toNat_lt
  have hdistance := distance.toNat_lt
  exact UInt32.toNat_ofNat_of_lt' (by unfold UInt32.size; omega)

theorem not_isFar_of_isNear (h : instruction.operation.flow.isNear = true) :
    instruction.operation.flow.isFar = false := by
  cases hflow : instruction.operation.flow <;> simp_all [Flow.isNear, Flow.isFar]

theorem destination?_eq_some_iff :
    instruction.destination? mode = some offset ↔ instruction.BranchesTo mode offset := by
  constructor
  · intro h
    unfold destination? at h
    split at h
    · rename_i hnear
      exact .near hnear h
    · split at h
      · rename_i hfar
        rw [Bool.and_eq_true, Bool.not_eq_true'] at hfar
        split at h
        · rename_i selector distance hfirst
          obtain rfl := Option.some.inj h
          exact .far hfar.1 hfar.2 hfirst (toNat_segmented selector distance)
        · cases h
      · cases h
  · rintro (⟨hnear, htarget⟩ | @⟨selector, distance, hfar, hreal, hfirst, hoffset⟩)
    · rw [destination?, if_pos hnear, htarget]
    · have hnear : ¬instruction.operation.flow.isNear = true := fun hnear =>
        Bool.false_ne_true ((not_isFar_of_isNear hnear).symm.trans hfar)
      have hfollowed : (instruction.operation.flow.isFar && !mode.assumedProtected) = true := by
        rw [hfar, hreal]
        rfl
      rw [destination?, if_neg hnear, if_pos hfollowed, hfirst]
      exact congrArg some (UInt32.toNat_inj.mp ((toNat_segmented selector distance).trans hoffset.symm))

end X86.Instruction

namespace Exploration

variable {subject : Subject} {added : List Root} {state : Exploration} {offset : UInt32}

/-- A visited branch has a destination that is followed if the instruction of the visit has. -/
theorem destination_visited_iff :
    (∃ place ∈ state.places, subject.destinationAt? place = some offset) ↔
      ∃ source origin instruction, state.visited[source]? = some origin ∧
        X86.decode subject.cpu subject.image source origin.mode.width = .ok instruction ∧
        instruction.BranchesTo origin.mode offset := by
  constructor
  · rintro ⟨⟨source, mode⟩, hplace, htarget⟩
    obtain ⟨origin, horigin, rfl⟩ := mem_places.mp hplace
    cases hread : subject.decodeAt ⟨source, origin.mode⟩ with
    | error error =>
      rw [Subject.destinationAt?, hread] at htarget
      cases htarget
    | ok instruction =>
      rw [Subject.destinationAt?_of_ok hread] at htarget
      exact ⟨source, origin, instruction, horigin, hread,
        X86.Instruction.destination?_eq_some_iff.mp htarget⟩
  · rintro ⟨source, origin, instruction, horigin, hread, hbranch⟩
    refine ⟨⟨source, origin.mode⟩, mem_places_of_getElem? horigin, ?_⟩
    have hat : subject.decodeAt ⟨source, origin.mode⟩ = .ok instruction := hread
    rw [Subject.destinationAt?_of_ok hat]
    exact X86.Instruction.destination?_eq_some_iff.mpr hbranch

end Exploration

namespace Session

open Exploration

variable {subject : Subject} {history : List Request} {offset : UInt32}

theorem exists_root_iff : (∃ root ∈ roots history, root.offset = offset) ↔
    ∃ mode name, Request.root offset mode name ∈ history := by
  simp only [roots, List.mem_filterMap]
  constructor
  · rintro ⟨root, ⟨request, hrequest, hroot⟩, rfl⟩
    cases request with
    | root offset mode name =>
      obtain rfl := Option.some.inj hroot
      exact ⟨mode, name, hrequest⟩
    | label offset name => cases hroot
    | segment start => cases hroot
    | analyze => cases hroot
  · rintro ⟨mode, name, hrequest⟩
    exact ⟨⟨offset, mode⟩, ⟨_, hrequest, rfl⟩, rfl⟩

/-- Once all is analysed without a failure, an offset in the image is flagged if and only if it is sought. -/
theorem finish_flagged_iff (herrors : (finish subject history).errors = [])
    (hin : offset.toNat < subject.image.limit) :
    (finish subject history).state.Flagged offset ↔
      (finish subject history).state.Sought subject (roots history) offset :=
  ⟨(finish_grounded subject history).flagged offset,
    fun hsought => (finish_settled herrors).flagged (finish_pending_nil herrors) hsought hin⟩

/-- The flags of visited offsets are exact: they stand at the roots that were added and at the destinations of
the branches that were visited, and nowhere else. How an offset was met first does not matter. -/
theorem flags_exact (subject : Subject) (history : List Request)
    (herrors : (finish subject history).errors = []) :
    ∀ offset visit, (finish subject history).state.visited[offset]? = some visit →
      (visit.isTarget = true ↔
        (∃ mode name, Request.root offset mode name ∈ history) ∨
        ∃ source origin instruction,
          (finish subject history).state.visited[source]? = some origin ∧
          X86.decode subject.cpu subject.image source origin.mode.width = .ok instruction ∧
          instruction.BranchesTo origin.mode offset) := by
  intro offset visit hvisit
  have hflagged : (finish subject history).state.Flagged offset ↔ visit.isTarget = true := by
    simp only [Flagged, hvisit, Option.some.injEq, exists_eq_left']
  have hin : offset.toNat < subject.image.limit := by
    obtain ⟨instruction, hread, -⟩ :=
      (finish_settled herrors).planned _ (mem_places_of_getElem? hvisit)
    exact (Subject.bounds_of_decodeAt hread).2
  rw [← hflagged, finish_flagged_iff herrors hin, Sought, exists_root_iff, destination_visited_iff]

/-- A branch to itself that is come upon from the instruction before it, a far jump over one byte in real mode,
and a return. -/
def selfBrancher : Subject where
  image := ⟨0, ⟨#[0x90, 0x75, 0xFE, 0xEA, 0x09, 0x00, 0x00, 0x00, 0x90, 0xC3]⟩⟩
  cpu := .i8086
  service := none

theorem flags_exact_selfBrancher :
    (finish selfBrancher [.root 0 .real16 none]).errors = [] ∧
    (finish selfBrancher [.root 0 .real16 none]).state.visited.toList.map
      (fun entry => (entry.1, entry.2.isTarget)) = [(0, true), (1, true), (3, false), (9, true)] ∧
    ∀ offset visit, (finish selfBrancher [.root 0 .real16 none]).state.visited[offset]? = some visit →
      (visit.isTarget = true ↔
        (∃ mode name, Request.root offset mode name ∈ [.root 0 .real16 none]) ∨
        ∃ source origin instruction,
          (finish selfBrancher [.root 0 .real16 none]).state.visited[source]? = some origin ∧
          X86.decode .i8086 selfBrancher.image source origin.mode.width = .ok instruction ∧
          instruction.BranchesTo origin.mode offset) :=
  have herrors : (finish selfBrancher [.root 0 .real16 none]).errors = [] := by decide +kernel
  ⟨herrors, by decide +kernel, flags_exact selfBrancher [.root 0 .real16 none] herrors⟩

end Session

end FlowDisasm
