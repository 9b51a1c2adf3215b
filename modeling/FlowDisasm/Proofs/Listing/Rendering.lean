import FlowDisasm.Proofs.Exploration.FixedPoint
import FlowDisasm.Proofs.Exploration.Footprint
import FlowDisasm.Proofs.Listing.Blocks

/-!
# A listing of what was explored

After analyses that did not fail every visited place can be read again, with the data behind service calls.
So a listing never fails, and its items are those of its blocks, one block after the other.
-/
namespace FlowDisasm

namespace Listing

def Entry.place (entry : Entry) : Root := ⟨entry.offset, entry.visit.mode⟩

/-- What a listing shows of a visited instruction: its bytes, the data behind it, and its text with the name
of its destination. -/
structure Shows (subject : Subject) (state : Exploration) (entry : Entry)
    (instruction : X86.Instruction) : Prop where
  decoded : subject.decodeAt entry.place = .ok instruction
  address : entry.code.address = state.address entry.offset entry.visit.mode
  bytes : entry.code.bytes = instruction.bytes ++ subject.image.window instruction.next.toNat
    (subject.dataCount instruction entry.visit.mode)
  dataInImage : 0 < subject.dataCount instruction entry.visit.mode →
    subject.image.base.toNat ≤ instruction.next.toNat ∧
      instruction.next.toNat + subject.dataCount instruction entry.visit.mode ≤ subject.image.limit
  text : entry.code.text = instruction.text (instruction.target?.bind state.labelFor)

def entriesOf (subject : Subject) (state : Exploration) :
    List (UInt32 × Visit) → Except Error (List Entry)
  | [] => .ok []
  | (offset, visit) :: rest => do
    let code ← codeOf subject state offset visit
    let entries ← entriesOf subject state rest
    return ⟨offset, visit, code⟩ :: entries

def blocks (subject : Subject) (state : Exploration) : Except Error (List Block) := do
  let entries ← entriesOf subject state state.visited.toList
  return blocksFrom subject.image.base.toNat entries

/-- What a gap is shown as: its size if that is large, else its bytes. -/
def gapBody (layout : Layout) (image : Image) (start size : Nat) : List Item :=
  if layout.skipThreshold.toNat < size then [.skipped size]
  else dataItems layout.rowLength start (Bytes.rows layout.rowLength (image.window start size))

def Block.items (layout : Layout) (subject : Subject) (state : Exploration) : Block → List Item
  | gap start size =>
    .label (labelName state (UInt32.ofNat start)) :: gapBody layout subject.image start size
  | code entry => labelItems state entry.offset entry.visit ++ [.code entry.code]

variable {layout : Layout} {subject : Subject} {state : Exploration} {offset : UInt32} {visit : Visit}
  {code : Code} {entry : Entry} {entries : List Entry} {visits : List (UInt32 × Visit)}
  {instruction : X86.Instruction} {shown start size : Nat}

/-- An instruction that was decoded and leads somewhere is shown. -/
theorem codeOf_shows {course : Course} (state : Exploration)
    (hread : subject.decodeAt ⟨offset, visit.mode⟩ = .ok instruction)
    (hcourse : subject.course instruction visit.mode = .ok course) :
    ∃ code, codeOf subject state offset visit = .ok code ∧
      Shows subject state ⟨offset, visit, code⟩ instruction := by
  have hdecode : X86.decode subject.cpu subject.image offset visit.mode.width = .ok instruction :=
    hread
  simp only [codeOf, hdecode, bind, Except.bind]
  cases hcount : subject.trailing? instruction visit.mode with
  | none =>
    have hnone : subject.dataCount instruction visit.mode = 0 := Subject.dataCount_of_none hcount
    refine ⟨_, rfl, hread, rfl, ?_, fun hpos => absurd hnone (Nat.ne_of_gt hpos), rfl⟩
    rw [hnone, Image.window_zero, List.append_nil]
  | some count =>
    have hsome : subject.dataCount instruction visit.mode = count.toNat :=
      Subject.dataCount_of_trailing? hcount
    obtain ⟨data, hdata⟩ := Subject.read_of_course hcourse hcount
    obtain ⟨hbase, -, hlimit, hwindow⟩ := Image.read_eq_ok hdata
    simp only [hdata]
    refine ⟨_, rfl, hread, rfl, ?_, fun _ => ⟨hbase, hsome ▸ hlimit⟩, rfl⟩
    rw [hsome, ← hwindow]

/-- An instruction that is shown was decoded, and its data, if it has any, were read. -/
theorem codeOf_eq_ok (h : codeOf subject state offset visit = .ok code) : ∃ instruction,
    X86.decode subject.cpu subject.image offset visit.mode.width = .ok instruction ∧
      code.address = state.address offset visit.mode ∧
      code.text = instruction.text (instruction.target?.bind state.labelFor) ∧
      (subject.trailing? instruction visit.mode = none ∧ code.bytes = instruction.bytes ∧ code.annotation = "" ∨
        ∃ count data, subject.trailing? instruction visit.mode = some count ∧
          subject.image.read instruction.next.toNat count.toNat = .ok data ∧
          code.bytes = instruction.bytes ++ data ∧
          code.annotation = (subject.service.bind (·.annotate data)).getD "") := by
  unfold codeOf at h
  cases hread : X86.decode subject.cpu subject.image offset visit.mode.width with
  | error error => simp [hread, bind, Except.bind] at h
  | ok instruction =>
    simp only [hread, bind, Except.bind] at h
    refine ⟨instruction, rfl, ?_⟩
    cases hcount : subject.trailing? instruction visit.mode with
    | none =>
      simp only [hcount] at h
      obtain rfl := Except.ok.inj h
      exact ⟨rfl, rfl, .inl ⟨rfl, rfl, rfl⟩⟩
    | some count =>
      simp only [hcount] at h
      cases hdata : subject.image.read instruction.next.toNat count.toNat with
      | error error => simp [hdata] at h
      | ok data =>
        simp only [hdata] at h
        obtain rfl := Except.ok.inj h
        exact ⟨rfl, rfl, .inr ⟨count, data, rfl, hdata, rfl, rfl⟩⟩

theorem entriesOf_cons {rest : List (UInt32 × Visit)}
    (h : entriesOf subject state ((offset, visit) :: rest) = .ok entries) :
    ∃ code others, codeOf subject state offset visit = .ok code ∧
      entriesOf subject state rest = .ok others ∧ entries = ⟨offset, visit, code⟩ :: others := by
  simp only [entriesOf, bind, Except.bind] at h
  cases hcode : codeOf subject state offset visit with
  | error error => simp [hcode] at h
  | ok code =>
    cases hothers : entriesOf subject state rest with
    | error error => simp [hcode, hothers] at h
    | ok others =>
      simp only [hcode, hothers] at h
      exact ⟨code, others, rfl, rfl, (Except.ok.inj h).symm⟩

/-- Every visited place that can be read again has an entry, in the same order. -/
theorem entriesOf_shows (state : Exploration)
    (h : ∀ place ∈ visits.map fun visited => (⟨visited.1, visited.2.mode⟩ : Root),
      ∃ instruction, subject.decodeAt place = .ok instruction ∧
        subject.course instruction place.mode = .ok (subject.plan instruction place.mode)) :
    ∃ entries, entriesOf subject state visits = .ok entries ∧
      (entries.map fun entry => (entry.offset, entry.visit)) = visits ∧
      ∀ entry ∈ entries, ∃ instruction, Shows subject state entry instruction := by
  induction visits with
  | nil => exact ⟨[], rfl, rfl, nofun⟩
  | cons visited rest ih =>
    obtain ⟨offset, visit⟩ := visited
    rw [List.map_cons, List.forall_mem_cons] at h
    obtain ⟨⟨instruction, hread, hcourse⟩, hrest⟩ := h
    obtain ⟨code, hcode, hshows⟩ := codeOf_shows state hread hcourse
    obtain ⟨others, hothers, hmap, hall⟩ := ih hrest
    refine ⟨⟨offset, visit, code⟩ :: others, ?_, ?_, ?_⟩
    · simp only [entriesOf, hcode, hothers]
      rfl
    · rw [List.map_cons, hmap]
    · exact List.forall_mem_cons.mpr ⟨⟨instruction, hshows⟩, hall⟩

theorem gapItems_eq (layout : Layout) (state : Exploration)
    (hbase : subject.image.base.toNat ≤ start) (hsize : 0 < size)
    (hlimit : start + size ≤ subject.image.limit) :
    gapItems layout subject state start size =
      .ok (Block.items layout subject state (.gap start size)) := by
  have hread : subject.image.read start size = .ok (subject.image.window start size) :=
    Image.read_window hbase (by omega) hlimit
  by_cases hlarge : layout.skipThreshold.toNat < size
  · simp only [gapItems, Block.items, gapBody, if_pos hlarge]
    rfl
  · simp only [gapItems, Block.items, gapBody, if_neg hlarge, hread]
    rfl

/-- The gap in front of a visited offset is always shown, so the items there depend on the instruction alone. -/
theorem itemsFrom_cons (layout : Layout) (state : Exploration) (visit : Visit)
    (rest : List (UInt32 × Visit)) (hshown : subject.image.base.toNat ≤ shown)
    (hin : offset.toNat < subject.image.limit) :
    itemsFrom layout subject state shown ((offset, visit) :: rest) = do
      let code ← codeOf subject state offset visit
      let items ← itemsFrom layout subject state (offset.toNat + code.bytes.length) rest
      return (if shown < offset.toNat then
          Block.items layout subject state (.gap shown (offset.toNat - shown)) else []) ++
        labelItems state offset visit ++ .code code :: items := by
  by_cases hgap : shown < offset.toNat
  · have hitems := gapItems_eq layout state hshown
      (Nat.sub_pos_of_lt hgap) (by omega)
    simp only [itemsFrom, bind, Except.bind, if_pos hgap, hitems]
  · simp only [itemsFrom, bind, Except.bind, if_neg hgap]
    rfl

theorem itemsFrom_eq (hentries : entriesOf subject state visits = .ok entries)
    (hshows : ∀ entry ∈ entries, ∃ instruction, Shows subject state entry instruction)
    (hshown : subject.image.base.toNat ≤ shown) :
    itemsFrom layout subject state shown visits =
      .ok ((blocksFrom shown entries).flatMap (Block.items layout subject state)) := by
  induction visits generalizing entries shown with
  | nil =>
    obtain rfl := Except.ok.inj hentries
    rfl
  | cons visited rest ih =>
    obtain ⟨offset, visit⟩ := visited
    obtain ⟨code, others, hcode, hothers, rfl⟩ := entriesOf_cons hentries
    obtain ⟨⟨instruction, hfirst⟩, hrest⟩ := List.forall_mem_cons.mp hshows
    have hbounds : subject.image.base.toNat ≤ offset.toNat ∧ offset.toNat < subject.image.limit :=
      Subject.bounds_of_decodeAt hfirst.decoded
    have hbehind := ih hothers hrest (Nat.le_trans hbounds.1 (Nat.le_add_right _ code.bytes.length))
    rw [itemsFrom_cons layout state visit rest hshown hbounds.2]
    simp only [hcode, hbehind, bind, Except.bind, blocksFrom]
    by_cases hgap : shown < offset.toNat
    · simp only [if_pos hgap, List.flatMap_cons, Block.items, List.append_assoc, List.singleton_append]
      rfl
    · simp only [if_neg hgap, List.flatMap_cons, Block.items, List.append_assoc, List.singleton_append]
      rfl

/-- What stands for a gap behind its label has nothing but its size or its bytes. -/
theorem filterMap_gapBody {Part : Type} {part? : Item → Option Part}
    (hskipped : ∀ size, part? (.skipped size) = none)
    (hdata : ∀ offset bytes, part? (.data offset bytes) = none) :
    (gapBody layout subject.image start size).filterMap part? = [] := by
  have hrows (offset : Nat) (rows : List (List UInt8)) :
      (dataItems layout.rowLength offset rows).filterMap part? = [] := by
    induction rows generalizing offset with
    | nil => rfl
    | cons row rows ih => rw [dataItems, List.filterMap_cons, hdata, ih]
  unfold gapBody
  split
  · rw [List.filterMap_cons, hskipped]
    rfl
  · exact hrows _ _

/-- The entries of all that was visited, each of them with its instruction. -/
structure Listed (subject : Subject) (state : Exploration) (entries : List Entry) : Prop where
  found : entriesOf subject state state.visited.toList = .ok entries
  visits : (entries.map fun entry => (entry.offset, entry.visit)) = state.visited.toList
  shows : ∀ entry ∈ entries, ∃ instruction, Shows subject state entry instruction

namespace Listed

theorem map_place (h : Listed subject state entries) : entries.map Entry.place = state.places := by
  rw [Exploration.places, ← h.visits, List.map_map]
  rfl

/-- Every visited place has an entry with its instruction. -/
theorem exists_entry {place : Root} (h : Listed subject state entries)
    (hplace : place ∈ state.places) :
    ∃ entry ∈ entries, entry.place = place ∧
      ∃ instruction, Shows subject state entry instruction := by
  rw [← h.map_place] at hplace
  obtain ⟨entry, hentry, rfl⟩ := List.mem_map.mp hplace
  exact ⟨entry, hentry, rfl, h.shows entry hentry⟩

theorem ordered (h : Listed subject state entries) : Ordered entries where
  ascending := by
    have hplaces := state.places_ascend
    rw [← h.map_place, List.pairwise_map] at hplaces
    exact hplaces
  nonempty entry hentry := by
    obtain ⟨instruction, hshows⟩ := h.shows entry hentry
    have hpos := (X86.decode_bytes hshows.decoded).1
    rw [hshows.bytes, List.length_append]
    omega

theorem blocks_eq (h : Listed subject state entries) :
    blocks subject state = .ok (blocksFrom subject.image.base.toNat entries) := by
  rw [blocks, h.found]
  rfl

theorem items_eq (h : Listed subject state entries) (layout : Layout) :
    items layout subject state =
      .ok ((blocksFrom subject.image.base.toNat entries).flatMap
        (Block.items layout subject state)) :=
  itemsFrom_eq h.found h.shows (Nat.le_refl _)

theorem render_eq (h : Listed subject state entries) (layout : Layout) :
    render layout subject state =
      .ok (String.join (((blocksFrom subject.image.base.toNat entries).flatMap
        (Block.items layout subject state)).map (Item.text layout))) := by
  rw [render, h.items_eq layout]
  rfl

end Listed

end Listing

/-- After analyses that did not fail there is an entry for everything that was visited. -/
theorem Session.run_listed {subject : Subject} {history : List Request}
    (herrors : (run subject history).errors = []) :
    ∃ entries, Listing.Listed subject (run subject history).state entries := by
  obtain ⟨entries, hfound, hvisits, hshows⟩ := Listing.entriesOf_shows (run subject history).state
    (run_settled herrors).planned
  exact ⟨entries, hfound, hvisits, hshows⟩

end FlowDisasm
