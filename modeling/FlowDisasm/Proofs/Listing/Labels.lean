import FlowDisasm.Proofs.Exploration.Progress
import FlowDisasm.Proofs.Listing.References

/-!
# Lines with names

A name given to an offset has a line of its own right above what a listing shows from there on, be it an
instruction or a gap. Below the end of the last instruction only two kinds of offsets begin nothing: those
inside an instruction or its data, and those inside a gap. A gap is shown as one piece, so a name inside of
it has no line.
-/
namespace FlowDisasm

/-! ## The names of offsets -/

def Request.nameFor? (offset : UInt32) : Request → Option String
  | .root named _ name => if named = offset then name else none
  | .label named name => if named = offset then some name else none
  | _ => none

namespace Session

def lastName? (history : List Request) (offset : UInt32) : Option String :=
  (history.filterMap (Request.nameFor? offset)).getLast?

variable {history : List Request} {request : Request} {offset : UInt32} {subject : Subject}

/-- A request gives an offset another name, or leaves it the one that it has. -/
theorem lastName?_concat (history : List Request) (request : Request) (offset : UInt32) :
    lastName? (history ++ [request]) offset =
      (request.nameFor? offset).or (lastName? history offset) := by
  rw [lastName?, List.filterMap_append, List.getLast?_append]
  cases hname : request.nameFor? offset with
  | none => simp [hname, lastName?]
  | some name => simp [hname]

theorem labels_addLabel (state : Exploration) (named : UInt32) (name : String) (offset : UInt32) :
    (state.addLabel named name).labels[offset]? =
      (if named = offset then some name else none).or state.labels[offset]? := by
  rw [Exploration.addLabel, Std.ExtTreeMap.getElem?_insert]
  by_cases hsame : named = offset
  · simp [hsame]
  · simp [hsame]

/-- An offset has the name that it was given last. -/
theorem run_labels (subject : Subject) (history : List Request) (offset : UInt32) :
    (run subject history).state.labels[offset]? = lastName? history offset := by
  refine run_induction (P := fun history session =>
    session.state.labels[offset]? = lastName? history offset) rfl ?_ history
  intro history session request h
  rw [lastName?_concat, ← h]
  cases request with
  | root named mode name =>
    cases name with
    | none => simp [perform, Exploration.addRoot, Exploration.queue, Request.nameFor?]
    | some name => exact labels_addLabel session.state named name offset
  | label named name => exact labels_addLabel session.state named name offset
  | segment start => rfl
  | analyze =>
    obtain ⟨walks, trace, result, hdrained, -⟩ := perform_analyze subject session
    rw [hdrained.labels]
    rfl

end Session

namespace Listing

/-! ## Lines -/

/-- A text breaks if its last line ends. -/
def Breaks (text : String) : Prop := ∃ front, text = front ++ "\n"

/-- A text has a line if it begins with the line or breaks right before it, and breaks right behind it. -/
def HasLine (text line : String) : Prop :=
  ∃ before after, text = before ++ line ++ "\n" ++ after ∧ (before = "" ∨ Breaks before)

variable {layout : Layout} {subject : Subject} {state : Exploration} {entries : List Entry}
  {printed : List Item} {block : Block} {name line tail text : String} {offset : UInt32} {start size : Nat}

theorem Breaks.append (h : Breaks tail) (text : String) : Breaks (text ++ tail) := by
  obtain ⟨front, rfl⟩ := h
  exact ⟨text ++ front, String.append_assoc.symm⟩

theorem HasLine.isInfix (h : HasLine text line) : line.toList <:+: text.toList := by
  obtain ⟨before, after, rfl, -⟩ := h
  rw [String.append_assoc, String.toList_append, String.toList_append]
  exact List.infix_append ..

/-- Every item ends its last line. -/
theorem Item.breaks (layout : Layout) (item : Item) : Breaks (item.text layout) := by
  cases item with
  | label name => exact .append ⟨":", by decide⟩ _
  | skipped size => exact .append ⟨" bytes", by decide⟩ _
  | data offset bytes => exact .append ⟨"'", by decide⟩ _
  | code shown => exact ⟨_, rfl⟩

theorem join_breaks (layout : Layout) (printed : List Item) :
    String.join (printed.map (Item.text layout)) = "" ∨
      Breaks (String.join (printed.map (Item.text layout))) := by
  rcases List.eq_nil_or_concat printed with rfl | ⟨front, last, rfl⟩
  · exact .inl String.join_nil
  · rw [List.concat_eq_append, List.map_append, String.join_append, List.map_singleton,
      String.join_cons, String.join_nil, String.append_empty]
    exact .inr ((last.breaks layout).append _)

/-- A label among the items of a listing has a line in its text. -/
theorem hasLine_of_label (hlabel : .label name ∈ printed) :
    HasLine (String.join (printed.map (Item.text layout))) ("\t" ++ name ++ ":") := by
  obtain ⟨front, back, rfl⟩ := List.append_of_mem hlabel
  refine ⟨_, String.join (back.map (Item.text layout)), ?_, join_breaks layout front⟩
  have hbreak : ":\n" = ":" ++ "\n" := by decide
  rw [List.map_append, List.map_cons, String.join_append, String.join_cons, Item.text, hbreak]
  simp only [String.append_assoc]

/-! ## Blocks with names -/

/-- Right above a block stands the name of the offset that it begins at. -/
theorem items_of_named (hname : state.labels[offset]? = some name) (hstart : block.start = offset.toNat) :
    ∃ body, Block.items layout subject state block = .label name :: body := by
  have hlabel : labelName state offset = name := by
    simp only [labelName, Exploration.labelFor, hname, Option.getD_some]
  cases block with
  | gap start size =>
    obtain rfl : start = offset.toNat := hstart
    refine ⟨gapBody layout subject.image offset.toNat size, ?_⟩
    rw [Block.items, UInt32.ofNat_toNat, hlabel]
  | code entry =>
    obtain rfl : entry.offset = offset := UInt32.toNat_inj.mp hstart
    refine ⟨[.code entry.code], ?_⟩
    rw [Block.items, labelItems, hname, Option.isSome_some, Bool.or_true, if_pos rfl, hlabel]
    rfl

theorem hasLine_of_named {found : List Block} (hname : state.labels[offset]? = some name)
    (hblock : block ∈ found) (hstart : block.start = offset.toNat) :
    HasLine (String.join ((found.flatMap (Block.items layout subject state)).map (Item.text layout)))
      ("\t" ++ name ++ ":") := by
  obtain ⟨body, hbody⟩ : ∃ body, Block.items layout subject state block = .label name :: body :=
    items_of_named hname hstart
  exact hasLine_of_label (List.mem_flatMap_of_mem hblock (hbody ▸ List.mem_cons_self))

/-- In a listing that does not show an offset inside of something else, some block begins with it. -/
theorem Listed.exists_start {place : Root} (h : Listed subject state entries)
    (hbase : subject.image.base.toNat ≤ offset.toNat) (hplace : place ∈ state.places)
    (hend : offset.toNat < subject.endAt place)
    (hcode : ∀ place ∈ state.places,
      ¬(place.offset.toNat < offset.toNat ∧ offset.toNat < subject.endAt place))
    (hgaps : ∀ start size, .gap start size ∈ blocksFrom subject.image.base.toNat entries →
      ¬(start < offset.toNat ∧ offset.toNat < start + size)) :
    ∃ block ∈ blocksFrom subject.image.base.toNat entries, block.start = offset.toNat := by
  obtain ⟨entry, hentry, rfl, instruction, hshows⟩ := h.exists_entry hplace
  rw [hshows.endAt_place] at hend
  rcases covered_of_lt_limit hentry hbase hend with ⟨other, hother, hlow, hhigh⟩ |
    ⟨start, size, hgap, hlow, hhigh⟩
  · obtain ⟨found, hfound⟩ := h.shows other hother
    have hinside := hcode other.place (h.map_place ▸ List.mem_map_of_mem hother)
    rw [hfound.endAt_place] at hinside
    refine ⟨.code other, mem_blocksFrom.mpr hother, Nat.le_antisymm hlow ?_⟩
    exact Nat.le_of_not_lt fun hless => hinside ⟨hless, hhigh⟩
  · have hinside := hgaps start size hgap
    refine ⟨.gap start size, hgap, Nat.le_antisymm hlow ?_⟩
    exact Nat.le_of_not_lt fun hless => hinside ⟨hless, hhigh⟩

/-- Labels belong to the starts of blocks, and no block begins inside a gap. -/
theorem Listed.not_labelled_inside (h : Listed subject state entries)
    (hgap : .gap start size ∈ blocksFrom subject.image.base.toNat entries) (hlow : start < offset.toNat)
    (hhigh : offset.toNat < start + size) :
    offset ∉ (blocksFrom subject.image.base.toNat entries).filterMap (Block.labelled? state) := by
  intro hlabel
  obtain ⟨block, hblock, hoffset⟩ := List.mem_filterMap.mp hlabel
  rw [h.start_of_labelled hblock hoffset] at hlow hhigh
  rcases start_outside_gap h.ordered hgap hblock with hbelow | hbehind
  · exact Nat.lt_irrefl _ (Nat.lt_of_lt_of_le hlow hbelow)
  · exact Nat.lt_irrefl _ (Nat.lt_of_lt_of_le hhigh hbehind)

/-- Where the names of offsets stand in a listing. Each one stands on a line right above the block that begins
at its offset. Below the end of some instruction only offsets inside of code or inside of a gap have no such
block, and what is inside of a gap is not among the offsets that the labels of a listing belong to. -/
structure Labelled (layout : Layout) (subject : Subject) (state : Exploration)
    (name? : UInt32 → Option String) (found : List Block) (text : String) : Prop where
  listed : blocks subject state = .ok found
  rendered : render layout subject state = .ok text
  items : items layout subject state = .ok (found.flatMap (Block.items layout subject state))
  above : ∀ offset name, name? offset = some name → ∀ block ∈ found, block.start = offset.toNat →
    (∃ body, Block.items layout subject state block = .label name :: body) ∧
      HasLine text ("\t" ++ name ++ ":")
  explicit : ∀ offset name, name? offset = some name →
    subject.image.base.toNat ≤ offset.toNat →
    (∃ place ∈ state.places, offset.toNat < subject.endAt place) →
    (∀ place ∈ state.places,
      ¬(place.offset.toNat < offset.toNat ∧ offset.toNat < subject.endAt place)) →
    (∀ start size, .gap start size ∈ found → ¬(start < offset.toNat ∧ offset.toNat < start + size)) →
      HasLine text ("\t" ++ name ++ ":")
  labels : (found.flatMap (Block.items layout subject state)).filterMap Item.label? =
    (found.filterMap (Block.labelled? state)).map (labelName state)
  hidden : ∀ offset start size, .gap start size ∈ found → start < offset.toNat →
    offset.toNat < start + size → offset ∉ found.filterMap (Block.labelled? state)

end Listing

namespace Session

open Listing

/-- After analyses that did not fail, a listing shows every name that was given to an offset that it shows
something from, on a line above that. Only inside gaps are offsets without their names. -/
theorem names_have_lines (layout : Layout) (subject : Subject) (history : List Request)
    (herrors : (run subject history).errors = []) :
    ∃ found text, Labelled layout subject (run subject history).state (lastName? history) found text := by
  obtain ⟨entries, hlisted⟩ := run_listed herrors
  have hlabels {offset : UInt32} {name : String} (hname : lastName? history offset = some name) :
      (run subject history).state.labels[offset]? = some name :=
    (run_labels subject history offset).trans hname
  exact ⟨_, _, {
    listed := hlisted.blocks_eq
    rendered := hlisted.render_eq layout
    items := hlisted.items_eq layout
    above := fun _ _ hname _ hblock hstart =>
      ⟨items_of_named (hlabels hname) hstart, hasLine_of_named (hlabels hname) hblock hstart⟩
    explicit := fun _ _ hname hbase ⟨_, hplace, hend⟩ hcode hgaps => by
      obtain ⟨block, hblock, hstart⟩ := hlisted.exists_start hbase hplace hend hcode hgaps
      exact hasLine_of_named (hlabels hname) hblock hstart
    labels := label?_items _
    hidden := fun _ _ _ hgap hlow hhigh => hlisted.not_labelled_inside hgap hlow hhigh }⟩

/-- Two returns with two bytes between them that nothing leads to. -/
def twoReturns : Subject where
  image := ⟨0, ⟨#[0xC3, 0x41, 0x42, 0xC3]⟩⟩
  cpu := .i80386
  service := none

def twoReturnsHistory : List Request :=
  [.root 0 .real16 none, .root 3 .real16 none, .label 1 "first", .label 2 "second", .analyze]

theorem names_have_lines_twoReturns :
    (run twoReturns twoReturnsHistory).errors = [] ∧
    ∃ found text, Labelled {} twoReturns (run twoReturns twoReturnsHistory).state
      (lastName? twoReturnsHistory) found text :=
  have herrors : (run twoReturns twoReturnsHistory).errors = [] := by decide +kernel
  ⟨herrors, names_have_lines {} twoReturns twoReturnsHistory herrors⟩

/-- A name does not have a line wherever it stands: here the one inside the gap between the returns has none. -/
theorem name_without_line : ¬ ∀ (layout : Layout) (subject : Subject) (history : List Request),
    (run subject history).errors = [] →
      ∀ found text, blocks subject (run subject history).state = .ok found →
        render layout subject (run subject history).state = .ok text →
        ∀ offset name, lastName? history offset = some name →
          subject.image.base.toNat ≤ offset.toNat →
          (∃ place ∈ (run subject history).state.places, offset.toNat < subject.endAt place) →
          (∀ place ∈ (run subject history).state.places,
            ¬(place.offset.toNat < offset.toNat ∧ offset.toNat < subject.endAt place)) →
          (∀ start size, .gap start size ∈ found → layout.skipThreshold.toNat < size →
            ¬(start ≤ offset.toNat ∧ offset.toNat < start + size)) →
              HasLine text ("\t" ++ name ++ ":") := by
  intro halways
  have herrors : (run twoReturns twoReturnsHistory).errors = [] := by decide +kernel
  obtain ⟨entries, hlisted⟩ := run_listed herrors
  have hplaces : (run twoReturns twoReturnsHistory).state.places =
      [⟨0, .real16⟩, ⟨3, .real16⟩] := by
    decide +kernel
  have hgaps : (blocks twoReturns (run twoReturns twoReturnsHistory).state).toOption.map
      (List.filterMap Block.gap?) = some [(1, 2)] := by
    decide +kernel
  have htext : (render {} twoReturns (run twoReturns twoReturnsHistory).state).toOption.map
      (fun text => decide (("\t" ++ "second" ++ ":").toList <:+: text.toList)) = some false := by
    decide +kernel
  rw [hlisted.blocks_eq] at hgaps
  rw [hlisted.render_eq] at htext
  have hline := halways {} twoReturns twoReturnsHistory herrors _ _ hlisted.blocks_eq
    (hlisted.render_eq {}) 2 "second" (by decide +kernel) (by decide)
    (by rw [hplaces]; decide +kernel) (by rw [hplaces]; decide +kernel) ?_
  · exact of_decide_eq_false (Option.some.inj htext) hline.isInfix
  · intro start size hgap hlarge
    have hmem : (start, size) ∈ [(1, 2)] := by
      rw [← Option.some.inj hgaps]
      exact List.mem_filterMap.mpr ⟨_, hgap, rfl⟩
    obtain ⟨rfl, rfl⟩ := Prod.mk.inj (List.mem_singleton.mp hmem)
    exact absurd hlarge (by decide)

end Session

end FlowDisasm
