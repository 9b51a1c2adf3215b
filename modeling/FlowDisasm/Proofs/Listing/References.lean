import FlowDisasm.Proofs.Listing.Coverage
import FlowDisasm.Proofs.Listing.Lines
import FlowDisasm.Proofs.X86.Targets

/-!
# Cross references

A near branch whose destination is in the image is shown with a name, and the same name stands right above
the instruction at the destination. Only destinations behind the image can be without a name; they are
shown by a number. No name that is made up stands for two offsets, and no offset has two labels.
-/
namespace FlowDisasm

/-- Names that are made up for different offsets are different. -/
theorem synthesizedLabel_injective {first second : UInt32}
    (h : synthesizedLabel first = synthesizedLabel second) : first = second := by
  have hdigits : Text.hexPadded 6 first.toNat = Text.hexPadded 6 second.toNat := by
    have hlist := congrArg String.toList h
    simp only [synthesizedLabel, String.toList_append, List.append_cancel_left_eq] at hlist
    exact String.toList_injective hlist
  exact UInt32.toNat_inj.mp (Text.hexPadded_injective hdigits)

namespace Exploration

variable {state : Exploration} {offset : UInt32} {visit : Visit}

/-- A visited destination has a name: its own, or one that is made up. -/
theorem labelFor_of_flagged (h : state.Flagged offset) :
    state.labelFor offset = some ((state.labels[offset]?).getD (synthesizedLabel offset)) := by
  obtain ⟨visit, hvisit, htarget⟩ := h
  unfold labelFor
  cases hname : state.labels[offset]? with
  | some name => rfl
  | none => simp [hvisit, htarget]

/-- What was not visited has no name but its own. -/
theorem labelFor_of_not_visited (h : state.visited[offset]? = none) :
    state.labelFor offset = state.labels[offset]? := by
  unfold labelFor
  cases hname : state.labels[offset]? with
  | some name => rfl
  | none => simp [h]

end Exploration

namespace Listing

def Item.label? : Item → Option String
  | label name => some name
  | _ => none

/-- The offset that the label of a block belongs to. -/
def Block.labelled? (state : Exploration) : Block → Option UInt32
  | gap start _ => some (UInt32.ofNat start)
  | code entry =>
    if entry.visit.isTarget || (state.labels[entry.offset]?).isSome then some entry.offset else none

/-- How a listing shows a distance without a name: as a digit if the destination is that close to the start
of its segment, else as the flat address. -/
def distanceText (instruction : X86.Instruction) (displacement : Int32) (target : UInt32) : String :=
  if instruction.segmentTarget displacement < 10 then toString (instruction.segmentTarget displacement)
  else Text.hexLiteral target.toNat

/-- The names of branch destinations in a listing. -/
structure Resolved (layout : Layout) (subject : Subject) (state : Exploration) (found : List Block) :
    Prop where
  listed : blocks subject state = .ok found
  items : items layout subject state = .ok (found.flatMap (Block.items layout subject state))
  rendered : RenderedAs layout subject state (found.flatMap (Block.items layout subject state))
  inside : ∀ place ∈ state.places, ∀ instruction, subject.decodeAt place = .ok instruction →
    instruction.operation.flow.isNear = true → ∀ target, instruction.target? = some target →
      target.toNat < subject.image.limit → state.Flagged target ∧
        ∃ name, name = (state.labels[target]?).getD (synthesizedLabel target) ∧
          state.labelFor target = some name ∧
          (∃ entry, .code entry ∈ found ∧ entry.place = place ∧
            entry.code.text = instruction.operation.heading ++ "\t" ++ name) ∧
          ∃ entry, .code entry ∈ found ∧ entry.offset = target ∧
            Block.items layout subject state (.code entry) = [.label name, .code entry.code]
  outside : ∀ place ∈ state.places, ∀ instruction, subject.decodeAt place = .ok instruction →
    instruction.operation.flow.isNear = true → ∀ target, instruction.target? = some target →
      subject.image.limit ≤ target.toNat →
        ∃ displacement size entry, instruction.first? = some (.relative displacement size) ∧
          .code entry ∈ found ∧ entry.place = place ∧
          entry.code.text = instruction.operation.heading ++ "\t" ++
            (state.labels[target]?).getD (distanceText instruction displacement target)
  labels : (found.flatMap (Block.items layout subject state)).filterMap Item.label? =
    (found.filterMap (Block.labelled? state)).map (labelName state)
  once : (found.filterMap (Block.labelled? state)).Nodup
  distinct : ∀ first second, synthesizedLabel first = synthesizedLabel second → first = second

variable {layout : Layout} {subject : Subject} {state : Exploration} {entry : Entry}
  {entries : List Entry} {instruction : X86.Instruction} {place : Root} {target : UInt32}
  {name : String}

/-! ## Labels -/

/-- The labels of a listing are those of its blocks: one above each gap, and one above each entry that needs
one. -/
theorem label?_items (blocks : List Block) :
    (blocks.flatMap (Block.items layout subject state)).filterMap Item.label? =
      (blocks.filterMap (Block.labelled? state)).map (labelName state) := by
  induction blocks with
  | nil => rfl
  | cons block blocks ih =>
    rw [List.flatMap_cons, List.filterMap_append, ih]
    cases block with
    | gap start size =>
      rw [Block.items, List.filterMap_cons,
        filterMap_gapBody (fun _ => rfl) (fun _ _ => rfl)]
      rfl
    | code entry =>
      rw [Block.items, labelItems, List.filterMap_cons, Block.labelled?]
      by_cases hlabel : (entry.visit.isTarget || (state.labels[entry.offset]?).isSome) = true
      · rw [if_pos hlabel, if_pos hlabel]
        rfl
      · rw [if_neg hlabel, if_neg hlabel]
        rfl

/-- A label belongs to the offset that its block begins at. -/
theorem Listed.start_of_labelled {block : Block} {offset : UInt32} (h : Listed subject state entries)
    (hblock : block ∈ blocksFrom subject.image.base.toNat entries)
    (hoffset : block.labelled? state = some offset) : offset.toNat = block.start := by
  cases block with
  | gap start size =>
    obtain ⟨-, -, -, hspace⟩ := h.gap_in_image hblock
    obtain rfl := Option.some.inj hoffset
    exact UInt32.toNat_ofNat_of_lt' (Nat.lt_of_le_of_lt (Nat.le_add_right _ _) hspace)
  | code entry =>
    rw [Block.labelled?] at hoffset
    by_cases hlabel : (entry.visit.isTarget || (state.labels[entry.offset]?).isSome) = true
    · rw [if_pos hlabel] at hoffset
      exact congrArg UInt32.toNat (Option.some.inj hoffset).symm
    · rw [if_neg hlabel] at hoffset
      cases hoffset

/-- No two blocks have a label for one offset, since no two blocks begin at one. -/
theorem Listed.nodup_labelled (h : Listed subject state entries) :
    ((blocksFrom subject.image.base.toNat entries).filterMap (Block.labelled? state)).Nodup := by
  rw [List.Nodup, List.pairwise_filterMap]
  refine List.Pairwise.imp_of_mem ?_ (starts_ascend h.ordered)
  intro first second hfirst hsecond hless low hlow high hhigh heq
  rw [← h.start_of_labelled hfirst hlow, ← h.start_of_labelled hsecond hhigh, heq] at hless
  exact Nat.lt_irrefl _ hless

/-! ## Operands -/

/-- The line of a near branch ends with the name of its destination, or with a number if it has none. -/
theorem Listed.text_of_target (h : Listed subject state entries) (hplace : place ∈ state.places)
    (hread : subject.decodeAt place = .ok instruction)
    (hnear : instruction.operation.flow.isNear = true) (htarget : instruction.target? = some target) :
    ∃ entry, .code entry ∈ blocksFrom subject.image.base.toNat entries ∧ entry.place = place ∧
      entry.code.text = instruction.operation.heading ++ "\t" ++
        instruction.destinationText (state.labelFor target) := by
  obtain ⟨entry, hentry, rfl, found, hshows⟩ := h.exists_entry hplace
  obtain rfl : found = instruction := Except.ok.inj (hshows.decoded.symm.trans hread)
  refine ⟨entry, mem_blocksFrom.mpr hentry, rfl, ?_⟩
  rw [hshows.text, htarget]
  exact X86.text_of_target hread hnear htarget _

/-- The instruction at a visited destination stands right below the label with its name. -/
theorem Listed.label_above (h : Listed subject state entries) (hflagged : state.Flagged target) :
    ∃ entry ∈ entries, entry.offset = target ∧
      Block.items layout subject state (.code entry) =
        [.label (labelName state target), .code entry.code] := by
  obtain ⟨visit, hvisit, htarget⟩ := hflagged
  have hmem : (target, visit) ∈ state.visited.toList :=
    Std.ExtTreeMap.mem_toList_iff_getElem?_eq_some.mpr hvisit
  rw [← h.visits] at hmem
  obtain ⟨entry, hentry, hpair⟩ := List.mem_map.mp hmem
  obtain ⟨rfl, rfl⟩ := Prod.mk.inj hpair
  refine ⟨entry, hentry, rfl, ?_⟩
  rw [Block.items, labelItems, htarget, Bool.true_or, if_pos rfl]
  rfl

/-- Nothing at or behind the end of the image was visited. -/
theorem Listed.not_visited (h : Listed subject state entries)
    (hout : subject.image.limit ≤ target.toNat) : state.visited[target]? = none := by
  cases hvisit : state.visited[target]? with
  | none => rfl
  | some visit =>
    obtain ⟨entry, hentry, hplace, instruction, hshows⟩ :=
      h.exists_entry (Exploration.mem_places_of_getElem? hvisit)
    have hoffset : entry.place.offset = target := congrArg Root.offset hplace
    have hbounds := (Subject.bounds_of_decodeAt hshows.decoded).2
    rw [hoffset] at hbounds
    omega

end Listing

namespace Session

open Listing

/-- After analyses that did not fail, the listing resolves all its cross references. -/
theorem references_resolve (layout : Layout) (subject : Subject) (history : List Request)
    (herrors : (run subject history).errors = []) :
    ∃ found, Resolved layout subject (run subject history).state found := by
  obtain ⟨entries, hlisted⟩ := run_listed herrors
  refine ⟨_, {
    listed := hlisted.blocks_eq
    items := hlisted.items_eq layout
    rendered := hlisted.renderedAs layout
    inside := ?_
    outside := ?_
    labels := label?_items _
    once := hlisted.nodup_labelled
    distinct := fun _ _ => synthesizedLabel_injective }⟩
  · intro place hplace instruction hread hnear target htarget hin
    have hdestination : subject.destinationAt? place = some target := by
      rw [Subject.destinationAt?_of_ok hread, X86.Instruction.destination?, if_pos hnear, htarget]
    have hflagged := run_destination_flagged herrors hplace hdestination hin
    have hlabel := Exploration.labelFor_of_flagged hflagged
    refine ⟨hflagged, _, rfl, hlabel, ?_, ?_⟩
    · have hline := hlisted.text_of_target hplace hread hnear htarget
      rw [hlabel] at hline
      exact hline
    · obtain ⟨entry, hentry, hoffset, hitems⟩ := hlisted.label_above hflagged
      rw [labelName, hlabel] at hitems
      exact ⟨entry, mem_blocksFrom.mpr hentry, hoffset, hitems⟩
  · intro place hplace instruction hread hnear target htarget hout
    obtain ⟨displacement, size, hfirst, hsum⟩ := X86.Instruction.relative_of_target htarget
    obtain ⟨entry, hentry, hat, htext⟩ := hlisted.text_of_target hplace hread hnear htarget
    refine ⟨displacement, size, entry, hfirst, hentry, hat, ?_⟩
    rw [htext, Exploration.labelFor_of_not_visited (hlisted.not_visited hout)]
    cases hname : (run subject history).state.labels[target]? with
    | some name => rfl
    | none =>
      simp only [X86.Instruction.destinationText, hfirst, X86.nearTarget?_of_first? hread hfirst, ← hsum]
      rfl

def leaving : Subject where
  image := ⟨0xFFFC, ⟨#[0x74, 0x00, 0xEB, 0x05]⟩⟩
  cpu := .i80386
  service := none

def leavingHistory : List Request := [.root 0xFFFC .real16 none, .analyze]

theorem references_resolve_leaving :
    (run leaving leavingHistory).errors = [] ∧
    ∃ found, Resolved {} leaving (run leaving leavingHistory).state found :=
  have herrors : (run leaving leavingHistory).errors = [] := by decide +kernel
  ⟨herrors, references_resolve {} leaving leavingHistory herrors⟩

/-- The number that stands for a destination without a name need not be the destination: here the jump to
`0x10005` is listed as one to `5`. -/
theorem number_not_destination : ¬ ∀ (subject : Subject) (history : List Request),
    (run subject history).errors = [] →
      ∀ found, blocks subject (run subject history).state = .ok found →
        ∀ entry instruction target, .code entry ∈ found →
          subject.decodeAt entry.place = .ok instruction →
          instruction.operation.flow.isNear = true → instruction.target? = some target →
          subject.image.limit ≤ target.toNat →
          (run subject history).state.labels[target]? = none →
            entry.code.text = instruction.operation.heading ++ "\t" ++ Text.hexLiteral target.toNat ∨
            entry.code.text = instruction.operation.heading ++ "\t" ++ toString target.toNat := by
  intro halways
  have herrors : (run leaving leavingHistory).errors = [] := by decide +kernel
  obtain ⟨entries, hlisted⟩ := run_listed herrors
  have hplace : ⟨0xFFFE, .real16⟩ ∈ (run leaving leavingHistory).state.places := by decide +kernel
  have hname : (run leaving leavingHistory).state.labels[(0x10005 : UInt32)]? = none := by
    decide +kernel
  have hfacts : (leaving.decodeAt ⟨0xFFFE, .real16⟩).toOption.map (fun read =>
      (read.operation.flow.isNear, read.target?, read.operation.heading, read.destinationText none)) =
      some (true, some 0x10005, "JMP", "5") := by
    decide +kernel
  obtain ⟨instruction, hread, hfound⟩ := exists_of_facts hfacts
  obtain ⟨hnear, htarget, hheading, hnumber⟩ :
      instruction.operation.flow.isNear = true ∧ instruction.target? = some 0x10005 ∧
        instruction.operation.heading = "JMP" ∧ instruction.destinationText none = "5" := by
    simpa only [Prod.mk.injEq] using hfound
  have hout : leaving.image.limit ≤ (0x10005 : UInt32).toNat := by decide
  obtain ⟨entry, hentry, hat, htext⟩ := hlisted.text_of_target hplace hread hnear htarget
  rw [Exploration.labelFor_of_not_visited (hlisted.not_visited hout), hname, hheading, hnumber]
    at htext
  have hnumbers := halways leaving leavingHistory herrors _ hlisted.blocks_eq entry instruction
    0x10005 hentry (hat ▸ hread) hnear htarget hout hname
  rw [htext, hheading] at hnumbers
  exact absurd hnumbers (by decide +kernel)

end Session

end FlowDisasm
