import FlowDisasm.Proofs.Exploration.Determinism
import FlowDisasm.Proofs.Listing.Coverage
import FlowDisasm.Proofs.Listing.Lines

/-!
# Listings lose nothing

Each visited place has one entry in a listing, with all its bytes; each gap is shown by its bytes in rows or
by its size. Every byte up to the end of the last instruction is in one or the other. When instructions do
not overlap and all gaps are shown, what is printed from the first line to the last is the image itself. Only
an image as large as the address space may have the data of a call elsewhere than behind it.
-/
namespace FlowDisasm

namespace Listing

/-- The bytes that an item shows. -/
def Item.printed : Item → List UInt8
  | label _ | skipped _ => []
  | data _ bytes => bytes
  | code shown => shown.bytes

def Item.code? : Item → Option Code
  | code shown => some shown
  | _ => none

/-- What is shown of a place: the bytes of the instruction there and of its data, which lie behind it unless
they went around the end of the address space. -/
def Prints (subject : Subject) (place : Root) (code : Code) : Prop :=
  ∃ instruction, subject.decodeAt place = .ok instruction ∧
    code.bytes = subject.image.window place.offset.toNat instruction.bytes.length ++
      subject.image.window instruction.next.toNat (subject.dataCount instruction place.mode) ∧
    code.bytes.length = (subject.footprint place).length ∧
    (subject.image.bytes.size < UInt32.size →
      code.bytes = subject.image.window place.offset.toNat code.bytes.length)

/-- What is shown of a gap: a label, and behind it the exact size or rows that hold all its bytes. -/
structure PrintsGap (layout : Layout) (subject : Subject) (state : Exploration) (start size : Nat) :
    Prop where
  inImage : subject.image.base.toNat ≤ start ∧ 0 < size ∧ start + size ≤ subject.image.limit
  large : layout.skipThreshold.toNat < size → Block.items layout subject state (.gap start size) =
    [.label (labelName state (UInt32.ofNat start)), .skipped size]
  small : size ≤ layout.skipThreshold.toNat → ∃ rows : List (List UInt8),
    Block.items layout subject state (.gap start size) =
      .label (labelName state (UInt32.ofNat start)) ::
        rows.mapIdx (fun index row => .data (start + index * layout.rowLength) row) ∧
    rows.flatten = subject.image.window start size ∧ rows.flatten.length = size ∧
    (∀ row ∈ rows.dropLast, row.length = layout.rowLength) ∧
    ∀ row ∈ rows, 0 < row.length ∧ row.length ≤ layout.rowLength

/-- The end of what a listing shows: that of the last instruction, or the base if there is none. -/
def shownEnd (subject : Subject) (state : Exploration) : Nat :=
  (state.places.getLast?.map subject.endAt).getD subject.image.base.toNat

/-- What it means that a listing loses nothing of the image. -/
structure Lossless (layout : Layout) (subject : Subject) (state : Exploration) (found : List Block)
    (printed : List Item) : Prop where
  listed : blocks subject state = .ok found
  blockwise : printed = found.flatMap (Block.items layout subject state)
  rendered : RenderedAs layout subject state printed
  ascending : state.places.Pairwise fun first second => first.offset < second.offset
  entries : List.Forall₂ (Prints subject) state.places (printed.filterMap Item.code?)
  covered : ∀ place ∈ state.places, ∀ behind ∈ subject.footprint place,
    ∀ address, subject.image.base.toNat ≤ address → address ≤ behind →
      (∃ other ∈ state.places, address ∈ subject.footprint other) ∨
        ∃ start size, .gap start size ∈ found ∧ start ≤ address ∧ address < start + size
  gaps : ∀ start size, .gap start size ∈ found → PrintsGap layout subject state start size
  unwrapped : subject.image.bytes.size < UInt32.size →
    ∀ place ∈ state.places, (subject.footprint place).Pairwise (· < ·)
  whole : Separate subject state →
    (∀ start size, .gap start size ∈ found → size ≤ layout.skipThreshold.toNat) →
    shownEnd subject state ≤ subject.image.limit ∧
      printed.flatMap Item.printed = subject.image.window subject.image.base.toNat
        (shownEnd subject state - subject.image.base.toNat)

variable {layout : Layout} {subject : Subject} {state : Exploration} {entry : Entry}
  {entries : List Entry} {instruction : X86.Instruction} {shown start size : Nat}

/-! ## Rows -/

theorem rowLength_pos (layout : Layout) : max layout.rowLength 1 = layout.rowLength :=
  Nat.max_eq_left (Nat.le_max_right _ _)

theorem dataItems_eq_mapIdx (length offset : Nat) (rows : List (List UInt8)) :
    dataItems length offset rows =
      rows.mapIdx fun index row => .data (offset + index * length) row := by
  induction rows generalizing offset with
  | nil => rfl
  | cons row rows ih =>
    rw [dataItems, ih, List.mapIdx_cons, Nat.zero_mul, Nat.add_zero]
    simp only [Nat.succ_mul, Nat.add_assoc, Nat.add_comm length]

theorem printed_dataItems (length offset : Nat) (rows : List (List UInt8)) :
    (dataItems length offset rows).flatMap Item.printed = rows.flatten := by
  induction rows generalizing offset with
  | nil => rfl
  | cons row rows ih =>
    rw [dataItems, List.flatMap_cons, ih, List.flatten_cons]
    rfl

/-! ## Blocks and their items -/

theorem code?_items (blocks : List Block) :
    (blocks.flatMap (Block.items layout subject state)).filterMap Item.code? =
      (blocks.filterMap Block.entry?).map Entry.code := by
  induction blocks with
  | nil => rfl
  | cons block blocks ih =>
    rw [List.flatMap_cons, List.filterMap_append, ih]
    cases block with
    | gap start size =>
      rw [Block.items, List.filterMap_cons,
        filterMap_gapBody (fun _ => rfl) (fun _ _ => rfl)]
      rfl
    | code entry =>
      have hlabel : (labelItems state entry.offset entry.visit).filterMap Item.code? = [] := by
        unfold labelItems
        split <;> rfl
      rw [Block.items, List.filterMap_append, hlabel]
      rfl

theorem printed_gap (hsize : size ≤ layout.skipThreshold.toNat) :
    (Block.items layout subject state (.gap start size)).flatMap Item.printed =
      subject.image.window start size := by
  rw [Block.items, List.flatMap_cons, gapBody, if_neg (Nat.not_lt.mpr hsize), printed_dataItems,
    Bytes.flatten_rows]
  rfl

theorem printed_code (entry : Entry) :
    (Block.items layout subject state (.code entry)).flatMap Item.printed = entry.code.bytes := by
  have hlabel : (labelItems state entry.offset entry.visit).flatMap Item.printed = [] := by
    unfold labelItems
    split <;> rfl
  rw [Block.items, List.flatMap_append, hlabel, List.flatMap_singleton]
  rfl

/-- In front of an entry the bytes up to it are printed, where the gap there is shown. -/
theorem exists_printed_front (shown : Nat) (entry : Entry) (rest : List Entry) :
    ∃ gaps, blocksFrom shown (entry :: rest) = gaps ++ .code entry :: blocksFrom entry.limit rest ∧
      ((∀ start size, .gap start size ∈ gaps → size ≤ layout.skipThreshold.toNat) →
        (gaps.flatMap (Block.items layout subject state)).flatMap Item.printed =
          subject.image.window shown (entry.offset.toNat - shown)) := by
  obtain ⟨gaps, hblocks, hgaps⟩ := blocksFrom_cons shown entry rest
  refine ⟨gaps, hblocks, fun hsmall => ?_⟩
  rcases hgaps with ⟨rfl, hless⟩ | ⟨rfl, -⟩
  · rw [Nat.sub_eq_zero_of_le hless, Image.window_zero]
    rfl
  · rw [List.flatMap_singleton]
    exact printed_gap (hsmall _ _ List.mem_cons_self)

def endFrom (shown : Nat) (entries : List Entry) : Nat :=
  (entries.getLast?.map Entry.limit).getD shown

theorem endFrom_cons (shown : Nat) (entry : Entry) (rest : List Entry) :
    endFrom shown (entry :: rest) = endFrom entry.limit rest := by
  rw [endFrom, endFrom, List.getLast?_cons]
  cases rest.getLast? <;> rfl

/-- Where entries follow one another without overlaps and no gap is left out, the bytes that are printed are
those of the image. -/
theorem printed_blocksFrom (hbase : subject.image.base.toNat ≤ shown)
    (hbytes : ∀ entry ∈ entries, entry.code.bytes =
      subject.image.window entry.offset.toNat entry.code.bytes.length)
    (hshown : ∀ entry ∈ entries, shown ≤ entry.offset.toNat)
    (hapart : entries.Pairwise fun first second => first.limit ≤ second.offset.toNat)
    (hsmall : ∀ start size, .gap start size ∈ blocksFrom shown entries →
      size ≤ layout.skipThreshold.toNat) :
    ∃ count, shown + count = endFrom shown entries ∧
      ((blocksFrom shown entries).flatMap (Block.items layout subject state)).flatMap Item.printed =
        subject.image.window shown count := by
  induction entries generalizing shown with
  | nil => exact ⟨0, rfl, (Image.window_zero _ _).symm⟩
  | cons entry rest ih =>
    obtain ⟨gaps, hblocks, hfront⟩ := exists_printed_front shown entry rest
    rw [List.forall_mem_cons] at hbytes hshown
    rw [List.pairwise_cons] at hapart
    rw [hblocks] at hsmall
    have hfront := hfront fun start size hgap => hsmall start size (List.mem_append_left _ hgap)
    have hrest : ∀ start size, .gap start size ∈ blocksFrom entry.limit rest →
        size ≤ layout.skipThreshold.toNat := fun start size hgap =>
      hsmall start size (List.mem_append_right _ (List.mem_cons_of_mem _ hgap))
    have hoffset : subject.image.base.toNat ≤ entry.offset.toNat := Nat.le_trans hbase hshown.1
    have hlimit : subject.image.base.toNat ≤ entry.limit := Nat.le_add_right_of_le hoffset
    obtain ⟨count, hcount, hprinted⟩ := ih hlimit hbytes.2 hapart.1 hapart.2 hrest
    have hat : shown + (entry.offset.toNat - shown) = entry.offset.toNat :=
      Nat.add_sub_of_le hshown.1
    refine ⟨entry.offset.toNat - shown + (entry.code.bytes.length + count), ?_, ?_⟩
    · rw [endFrom_cons, ← hcount, ← Nat.add_assoc, hat, ← Nat.add_assoc]
      rfl
    · calc ((blocksFrom shown (entry :: rest)).flatMap
            (Block.items layout subject state)).flatMap Item.printed
        _ = subject.image.window shown (entry.offset.toNat - shown) ++
              (entry.code.bytes ++ subject.image.window entry.limit count) := by
            rw [hblocks, List.flatMap_append, List.flatMap_append, List.flatMap_cons,
              List.flatMap_append, hfront, printed_code, hprinted]
        _ = subject.image.window shown (entry.offset.toNat - shown) ++
              subject.image.window entry.offset.toNat (entry.code.bytes.length + count) := by
            rw [← Image.window_append hoffset, ← hbytes.1]
            rfl
        _ = subject.image.window shown
              (entry.offset.toNat - shown + (entry.code.bytes.length + count)) := by
            rw [← Image.window_append hbase, hat]

/-! ## What is shown of places and of gaps -/

theorem Shows.contiguous (h : Shows subject state entry instruction)
    (hascending : (subject.footprint entry.place).Pairwise (· < ·)) :
    subject.footprint entry.place = List.range' entry.offset.toNat entry.code.bytes.length ∧
      entry.code.bytes = subject.image.window entry.offset.toNat entry.code.bytes.length ∧
      entry.limit ≤ subject.image.limit := by
  have hnext := Subject.footprint_of_ascending h.decoded hascending
  have hstretch := Subject.footprint_eq_range' h.decoded hnext
  obtain ⟨-, hlimit, hbytes⟩ := X86.decode_bytes h.decoded
  change subject.dataCount instruction entry.visit.mode = 0 ∨
    instruction.next.toNat = entry.offset.toNat + instruction.bytes.length at hnext
  change entry.offset.toNat + instruction.bytes.length ≤ subject.image.limit at hlimit
  change instruction.bytes =
    subject.image.window entry.offset.toNat instruction.bytes.length at hbytes
  have hbase : subject.image.base.toNat ≤ entry.offset.toNat :=
    (Subject.bounds_of_decodeAt h.decoded).1
  rw [h.limit_eq, h.length_bytes, h.bytes]
  refine ⟨hstretch, ?_, ?_⟩
  · rw [← Image.window_append hbase, ← hbytes]
    rcases hnext with hzero | hbehind
    · rw [hzero, Image.window_zero, Image.window_zero]
    · rw [hbehind]
  · rcases Nat.eq_zero_or_pos (subject.dataCount instruction entry.visit.mode) with hzero | hpos
    · rwa [hzero, Nat.add_zero]
    · have hdata := (h.dataInImage hpos).2
      rcases hnext with hzero | hbehind
      · omega
      · omega

theorem Shows.prints (h : Shows subject state entry instruction) :
    Prints subject entry.place entry.code := by
  refine ⟨instruction, h.decoded, ?_, ?_, fun hsize => (h.contiguous (h.ascends hsize)).2.1⟩
  · have hbytes : instruction.bytes =
        subject.image.window entry.offset.toNat instruction.bytes.length :=
      (X86.decode_bytes h.decoded).2.2
    rw [h.bytes]
    exact congrArg (· ++ _) hbytes
  · rw [h.footprint_eq, h.length_bytes, List.length_append, List.length_range', List.length_range']

theorem Listed.printsGap (h : Listed subject state entries) (layout : Layout)
    (hgap : .gap start size ∈ blocksFrom subject.image.base.toNat entries) :
    PrintsGap layout subject state start size := by
  obtain ⟨hbase, hpos, hlimit, -⟩ := h.gap_in_image hgap
  refine ⟨⟨hbase, hpos, hlimit⟩, ?_, ?_⟩
  · intro hlarge
    rw [Block.items, gapBody, if_pos hlarge]
  · intro hsmall
    refine ⟨Bytes.rows layout.rowLength (subject.image.window start size), ?_, ?_, ?_, ?_, ?_⟩
    · rw [Block.items, gapBody, if_neg (Nat.not_lt.mpr hsmall), dataItems_eq_mapIdx]
    · exact Bytes.flatten_rows _ _
    · rw [Bytes.flatten_rows]
      exact Image.length_window hbase hlimit
    · intro row hrow
      rw [Bytes.length_of_mem_dropLast_rows hrow, rowLength_pos]
    · intro row hrow
      have hlength := Bytes.length_of_mem_rows hrow
      rwa [rowLength_pos] at hlength

/-! ## Without overlaps -/

/-- Without overlaps every entry begins where all entries before it have ended. -/
theorem Listed.apart (h : Listed subject state entries) (hseparate : Separate subject state) :
    entries.Pairwise fun first second => first.limit ≤ second.offset.toNat := by
  have hdisjoint := hseparate.disjoint
  rw [← h.map_place, List.pairwise_map] at hdisjoint
  refine List.Pairwise.imp_of_mem ?_ (h.ordered.ascending.and hdisjoint)
  rintro first second hfirst hsecond ⟨hless, hapart⟩
  obtain ⟨instruction, hshows⟩ := h.shows first hfirst
  obtain ⟨other, hother⟩ := h.shows second hsecond
  have hplace : first.place ∈ state.places := h.map_place ▸ List.mem_map_of_mem hfirst
  rw [UInt32.lt_iff_toNat_lt] at hless
  -- Otherwise the second one would start at an address of the first one.
  by_contra hover
  refine hapart second.offset.toNat ?_ hother.offset_mem_footprint
  rw [(hshows.contiguous (h.ascends hseparate hplace)).1, List.mem_range'_1]
  unfold Entry.limit at hover
  omega

theorem Listed.shownEnd_eq (h : Listed subject state entries) :
    shownEnd subject state = endFrom subject.image.base.toNat entries := by
  rw [shownEnd, endFrom, ← h.map_place, h.endAt_getLast? (List.Subset.refl _)]

/-- Without overlaps and with all gaps shown, a listing prints the image up to the end of the last
instruction. -/
theorem Listed.whole (h : Listed subject state entries) (hseparate : Separate subject state)
    (hsmall : ∀ start size, .gap start size ∈ blocksFrom subject.image.base.toNat entries →
      size ≤ layout.skipThreshold.toNat) :
    shownEnd subject state ≤ subject.image.limit ∧
      ((blocksFrom subject.image.base.toNat entries).flatMap
        (Block.items layout subject state)).flatMap Item.printed =
        subject.image.window subject.image.base.toNat
          (shownEnd subject state - subject.image.base.toNat) := by
  have hcontiguous : ∀ entry ∈ entries,
      entry.code.bytes = subject.image.window entry.offset.toNat entry.code.bytes.length ∧
        entry.limit ≤ subject.image.limit := by
    intro entry hentry
    obtain ⟨instruction, hshows⟩ := h.shows entry hentry
    have hplace : entry.place ∈ state.places := h.map_place ▸ List.mem_map_of_mem hentry
    exact (hshows.contiguous (h.ascends hseparate hplace)).2
  have hshown : ∀ entry ∈ entries, subject.image.base.toNat ≤ entry.offset.toNat := by
    intro entry hentry
    obtain ⟨instruction, hshows⟩ := h.shows entry hentry
    exact (Subject.bounds_of_decodeAt hshows.decoded).1
  obtain ⟨count, hcount, hprinted⟩ := printed_blocksFrom (Nat.le_refl _)
    (fun entry hentry => (hcontiguous entry hentry).1) hshown (h.apart hseparate) hsmall
  rw [hprinted, h.shownEnd_eq, ← hcount, Nat.add_sub_cancel_left]
  refine ⟨?_, rfl⟩
  rw [hcount, endFrom]
  cases hlast : entries.getLast? with
  | none => exact Nat.le_add_right _ _
  | some last => exact (hcontiguous last (List.mem_of_getLast? hlast)).2

end Listing

namespace Session

open Exploration Listing

/-- After analyses that did not fail, however a listing is laid out, it can be rendered and it loses
nothing. -/
theorem listing_lossless (layout : Layout) (subject : Subject) (history : List Request)
    (herrors : (run subject history).errors = []) :
    ∃ found printed, Lossless layout subject (run subject history).state found printed := by
  obtain ⟨entries, hlisted⟩ := run_listed herrors
  refine ⟨_, _, {
    listed := hlisted.blocks_eq
    blockwise := rfl
    rendered := hlisted.renderedAs layout
    ascending := (run subject history).state.places_ascend
    entries := ?_
    covered := fun _ hplace _ hbehind _ => hlisted.covered hplace hbehind
    gaps := fun _ _ => hlisted.printsGap layout
    unwrapped := ?_
    whole := hlisted.whole }⟩
  · rw [code?_items, filterMap_entry?_blocksFrom, ← hlisted.map_place, List.forall₂_map_left_iff,
      List.forall₂_map_right_iff, List.forall₂_same]
    intro entry hentry
    obtain ⟨instruction, hshows⟩ := hlisted.shows entry hentry
    exact hshows.prints
  · intro hsize place hplace
    obtain ⟨entry, -, rfl, instruction, hshows⟩ := hlisted.exists_entry hplace
    exact hshows.ascends hsize

/-- A call between drivers, a jump over three bytes of text, and a return. -/
def calling : Subject where
  image := ⟨0x80001000, ⟨#[0xCD, 0x20, 0x01, 0x00, 0x01, 0x00, 0xEB, 0x03, 0x41, 0x42, 0x00, 0xC3]⟩⟩
  cpu := .i80386
  service := some (.driverCall 0x20)

def callingHistory : List Request := [.root 0x80001000 .protected32 (some "Entry"), .analyze]

theorem listing_lossless_calling :
    (run calling callingHistory).errors = [] ∧
    Separate calling (run calling callingHistory).state ∧
    ∃ found printed, Lossless {} calling (run calling callingHistory).state found printed ∧
      printed.flatMap Item.printed = calling.image.toList := by
  have herrors : (run calling callingHistory).errors = [] := by decide +kernel
  have hseparate : Separate calling (run calling callingHistory).state :=
    ⟨by decide +kernel, fun hsize => absurd hsize (by decide)⟩
  obtain ⟨found, printed, hlossless⟩ := listing_lossless {} calling callingHistory herrors
  refine ⟨herrors, hseparate, found, printed, hlossless, ?_⟩
  have hsmall : ∀ start size, .gap start size ∈ found → size ≤ (256 : UInt32).toNat := by
    intro start size hgap
    obtain ⟨hbase, -, hlimit⟩ := (hlossless.gaps start size hgap).inImage
    change 0x80001000 ≤ start at hbase
    change start + size ≤ 0x8000100C at hlimit
    change size ≤ 256
    omega
  have hend : shownEnd calling (run calling callingHistory).state = 0x8000100C := by decide +kernel
  rw [(hlossless.whole hseparate hsmall).2, hend]
  rfl

example : (blocks calling (run calling callingHistory).state).toOption.map (List.map Block.start) =
    some [0x80001000, 0x80001006, 0x80001008, 0x8000100B] := by
  decide +kernel

/-! ## Data that goes around the end of the address space

The call here ends at the last address below 4 GiB. What is taken for its data is at address zero, where a
listing has shown it already; the bytes behind the call are in none of its lines. -/

/-- Returns from address zero on, and a call behind them with four bytes after it. -/
def callBehind (returns : Nat) : Subject where
  image := ⟨0, ⟨(List.replicate returns (0xC3 : UInt8) ++ [0xCD, 0x20, 0x11, 0x22, 0x33, 0x44]).toArray⟩⟩
  cpu := .i80386
  service := some ⟨0x20, 4, fun _ => none⟩

def topHistory : List Request := [.root 0xFFFFFFFE .protected32 none, .analyze]

section Top

variable {returns : Nat}

theorem toList_callBehind (returns : Nat) : (callBehind returns).image.toList =
    List.replicate returns (0xC3 : UInt8) ++ [0xCD, 0x20, 0x11, 0x22, 0x33, 0x44] := by
  simp only [callBehind, Image.toList]

theorem limit_callBehind (returns : Nat) : (callBehind returns).image.limit = returns + 6 := by
  have hsize : (callBehind returns).image.bytes.size = returns + 6 := by
    rw [← Image.length_toList, toList_callBehind, List.length_append, List.length_replicate]
    rfl
  rw [Image.limit, hsize]
  exact Nat.zero_add _

theorem window_call (returns count : Nat) : (callBehind returns).image.window returns count =
    [0xCD, 0x20, 0x11, 0x22, 0x33, 0x44].take count := by
  have hstart : returns - (callBehind returns).image.base.toNat =
      (List.replicate returns (0xC3 : UInt8)).length := List.length_replicate.symm
  rw [Image.window_eq (Nat.zero_le _), toList_callBehind, hstart, List.drop_left]

theorem window_returns {start count : Nat} (hfits : start + count ≤ returns) :
    (callBehind returns).image.window start count = List.replicate count 0xC3 := by
  have hrest : returns - start = count + (returns - start - count) := by omega
  have hstart : start ≤ (List.replicate returns (0xC3 : UInt8)).length := by
    rw [List.length_replicate]
    omega
  rw [Image.window_eq (Nat.zero_le _), toList_callBehind]
  change ((List.replicate returns (0xC3 : UInt8) ++ _).drop start).take count = _
  rw [List.drop_append_of_le_length hstart, List.drop_replicate, hrest, List.replicate_add,
    List.append_assoc]
  exact List.take_left' List.length_replicate

/-- A call with returns behind it is nowhere in the image. -/
theorem not_infix_callBehind (returns : Nat) :
    ¬ [0xCD, 0x20, 0xC3, 0xC3, 0xC3, 0xC3] <:+: (callBehind returns).image.toList := by
  rintro ⟨before, after, hsame⟩
  rw [toList_callBehind, List.append_assoc] at hsame
  rcases List.append_eq_append_iff.mp hsame with ⟨more, hmore, htail⟩ | ⟨more, -, htail⟩
  · cases more with
    | nil => cases htail
    | cons byte more =>
      have hbyte : byte ∈ List.replicate returns (0xC3 : UInt8) := by
        rw [hmore]
        exact List.mem_append_right _ List.mem_cons_self
      rw [List.eq_of_mem_replicate hbyte] at htail
      cases htail
  · have hlength := congrArg List.length htail
    simp only [List.length_append, List.length_cons, List.length_nil] at hlength
    obtain rfl : more = [] := List.eq_nil_of_length_eq_zero (by omega)
    cases htail

variable (htop : returns = 0xFFFFFFFE)

include htop

theorem exists_call : ∃ call, (callBehind returns).decodeAt ⟨0xFFFFFFFE, .protected32⟩ = .ok call ∧
    call.bytes = [0xCD, 0x20] ∧ call.next = 0 ∧
    (callBehind returns).trailing? call .protected32 = some 4 ∧
    (callBehind returns).course call .protected32 = .ok { next := some ⟨4, .protected32⟩ } := by
  have hfacts : (X86.decode .i80386 ⟨0, ⟨#[0xCD, 0x20]⟩⟩ 0 .bits32).toOption.map
      (fun read => (read.bytes, read.operation.flow, read.vector?)) =
        some ([0xCD, 0x20], .int, some 0x20) := by
    decide +kernel
  obtain ⟨call, hread, hfound⟩ := exists_of_facts hfacts
  obtain ⟨hbytes, hflow, hvector⟩ :
      call.bytes = [0xCD, 0x20] ∧ call.operation.flow = .int ∧ call.vector? = some 0x20 := by
    simpa only [Prod.mk.injEq] using hfound
  have hwindow : (callBehind returns).image.window (0xFFFFFFFE : UInt32).toNat call.bytes.length =
      call.bytes := by
    subst htop
    rw [hbytes]
    exact window_call _ _
  let moved : X86.Instruction := { call with offset := 0xFFFFFFFE }
  have hnext : moved.next = 0 := by
    simp only [moved, X86.Instruction.next, hbytes]
    decide
  have htrailing : (callBehind returns).trailing? moved .protected32 = some 4 := by
    have hmoved : moved.vector? = some 0x20 := hvector
    simp only [Subject.trailing?, hmoved]
    rfl
  have hdata : (callBehind returns).image.read (0 : UInt32).toNat (4 : UInt32).toNat =
      .ok (List.replicate 4 0xC3) := by
    have hlimit := limit_callBehind returns
    rw [← window_returns (show 0 + 4 ≤ returns by omega)]
    exact Image.read_window (Nat.zero_le _) (show 0 < _ by omega) (show 0 + 4 ≤ _ by omega)
  refine ⟨moved, X86.decode_of_window hread hwindow, hbytes, hnext, htrailing, ?_⟩
  have hint : moved.operation.flow = .int := hflow
  simp only [Subject.course, hint, htrailing, hnext, hdata]
  rfl

theorem exists_return : ∃ back, (callBehind returns).decodeAt ⟨4, .protected32⟩ = .ok back ∧
    back.bytes = [0xC3] ∧ (callBehind returns).trailing? back .protected32 = none ∧
    (callBehind returns).course back .protected32 = .ok {} := by
  have hfacts : (X86.decode .i80386 ⟨0, ⟨#[0xC3]⟩⟩ 0 .bits32).toOption.map
      (fun read => (read.bytes, read.operation.flow)) = some ([0xC3], .ret) := by
    decide +kernel
  obtain ⟨back, hread, hfound⟩ := exists_of_facts hfacts
  obtain ⟨hbytes, hflow⟩ : back.bytes = [0xC3] ∧ back.operation.flow = .ret := by
    simpa only [Prod.mk.injEq] using hfound
  have hwindow : (callBehind returns).image.window (4 : UInt32).toNat back.bytes.length =
      back.bytes := by
    rw [hbytes]
    exact window_returns (show 4 + 1 ≤ returns by omega)
  refine ⟨_, X86.decode_of_window hread hwindow, hbytes, Subject.trailing?_of_ne_int ?_, ?_⟩
  · simp only [hflow, ne_eq, reduceCtorEq, not_false_eq_true]
  · simp only [Subject.course, hflow]

/-- The walk from the call goes on at address four, where it returns. -/
theorem drained_top : ∃ after, Drained (callBehind returns)
    (({} : Exploration).addRoot 0xFFFFFFFE .protected32 none) 1
    [⟨0xFFFFFFFE, .protected32⟩, ⟨4, .protected32⟩] after none := by
  obtain ⟨call, hcall, -, -, -, hbehind⟩ := exists_call htop
  obtain ⟨back, hback, -, -, hend⟩ := exists_return htop
  have hlimit := limit_callBehind returns
  have htopIn : (0xFFFFFFFE : UInt32).toNat < (callBehind returns).image.limit := by
    rw [hlimit, htop]
    decide
  have hbackIn : (4 : UInt32).toNat < (callBehind returns).image.limit := by
    rw [hlimit, htop]
    decide
  let taken : Exploration := { rootsQueued := 1 }
  let called : Walk := ⟨0xFFFFFFFE, .protected32, true⟩
  let returned : Walk := ⟨4, .protected32, false⟩
  let between : Exploration :=
    (taken.recordVisit called).follow call .protected32 { next := some ⟨4, .protected32⟩ }
  have hcalled : Strides (callBehind returns) taken called [called.place] between (.going returned) :=
    .of_course htopIn rfl hcall hbehind
  have hfresh : between.visited[returned.offset]? = none := by
    rw [visited_follow]
    rfl
  have hreturned : Strides (callBehind returns) between returned [returned.place]
      ((between.recordVisit returned).follow back .protected32 {}) .finished :=
    .of_course hbackIn hfresh hback hend
  have hwalk : Walked (callBehind returns) taken called [called.place, returned.place] _ none :=
    .going hcalled (.finished hreturned)
  have hdrained : Drained (callBehind returns)
      (({} : Exploration).addRoot 0xFFFFFFFE .protected32 none) 1
      ([called.place, returned.place] ++ []) _ none := .walked rfl hwalk (.idle rfl)
  exact ⟨_, hdrained⟩

theorem run_top : (run (callBehind returns) topHistory).errors = [] ∧
    (run (callBehind returns) topHistory).state.places =
      [⟨4, .protected32⟩, ⟨0xFFFFFFFE, .protected32⟩] := by
  obtain ⟨after, htold⟩ := drained_top htop
  let queued : Session := run (callBehind returns) [.root 0xFFFFFFFE .protected32 none]
  have hrun : run (callBehind returns) topHistory = queued.perform (callBehind returns) .analyze := rfl
  obtain ⟨walks, trace, result, hdrained, herrors⟩ := perform_analyze (callBehind returns) queued
  obtain ⟨hafter, rfl⟩ := hdrained.unique htold
  rw [hrun, herrors, hafter]
  refine ⟨rfl, List.Perm.eq_of_pairwise ?_ (places_ascend after) ?_ ?_⟩
  · intro first second _ _ hless hmore
    exact absurd hmore (UInt32.lt_asymm hless)
  · decide
  · exact htold.grows.places.trans (List.Perm.swap _ _ _)

/-- The call is shown with the bytes at address zero for its data. -/
theorem exists_shown_call {state : Exploration} {entries : List Entry}
    (hlisted : Listed (callBehind returns) state entries)
    (hcalled : ⟨0xFFFFFFFE, .protected32⟩ ∈ state.places) :
    ∃ entry ∈ entries, entry.offset = 0xFFFFFFFE ∧
      entry.code.bytes = [0xCD, 0x20, 0xC3, 0xC3, 0xC3, 0xC3] := by
  obtain ⟨call, hcall, hbytes, hnext, htrailing, -⟩ := exists_call htop
  obtain ⟨entry, hentry, hplace, read, hshows⟩ := hlisted.exists_entry hcalled
  have hread := hshows.decoded
  rw [hplace, hcall] at hread
  obtain rfl := Except.ok.inj hread
  obtain ⟨hoffset, hmode⟩ : entry.offset = 0xFFFFFFFE ∧ entry.visit.mode = .protected32 := by
    simpa only [Entry.place, Root.mk.injEq] using hplace
  refine ⟨entry, hentry, hoffset, ?_⟩
  rw [hshows.bytes, hbytes, hnext, hmode, Subject.dataCount_of_trailing? htrailing]
  change _ ++ (callBehind returns).image.window 0 4 = _
  rw [window_returns (show 0 + 4 ≤ returns by omega)]
  rfl

/-- The call and the return have no address in common. -/
theorem separate_top : [(⟨4, .protected32⟩ : Root), ⟨0xFFFFFFFE, .protected32⟩].Pairwise
    fun first second => ∀ address ∈ (callBehind returns).footprint first,
      address ∉ (callBehind returns).footprint second := by
  obtain ⟨call, hcall, hbytes, hnext, htrailing, -⟩ := exists_call htop
  obtain ⟨back, hback, hreturn, hnone, -⟩ := exists_return htop
  have hdata : (callBehind returns).dataCount call .protected32 = 4 :=
    Subject.dataCount_of_trailing? htrailing
  have hnodata : (callBehind returns).dataCount back .protected32 = 0 := by
    rw [Subject.dataCount, hnone]
    rfl
  rw [List.pairwise_pair, Subject.footprint_of_ok hcall, Subject.footprint_of_ok hback, hbytes,
    hnext, hdata, hreturn, hnodata, List.range'_zero]
  decide

end Top

/-- Without overlaps and with all gaps shown, a listing may still have other bytes than the image: those of a
call at the end of the address space are neither in the image one behind the other nor in their order. -/
theorem wrapped_data_misprinted :
    let subject := callBehind 0xFFFFFFFE
    let layout : Layout := { skipThreshold := 0xFFFFFFFF }
    let state := (run subject topHistory).state
    (run subject topHistory).errors = [] ∧
    (state.places.Pairwise fun first second =>
      ∀ address ∈ subject.footprint first, address ∉ subject.footprint second) ∧
    ∃ found, blocks subject state = .ok found ∧
      (∀ start size, .gap start size ∈ found → size ≤ layout.skipThreshold.toNat) ∧
      (∃ entry, .code entry ∈ found ∧ entry.code.bytes ≠
        subject.image.window entry.offset.toNat entry.code.bytes.length) ∧
      ¬ (found.flatMap (Block.items layout subject state)).flatMap Item.printed <+:
        subject.image.toList := by
  -- The number stands for itself from here on, so that nothing counts up to it.
  obtain ⟨returns, htop⟩ : ∃ returns, returns = 0xFFFFFFFE := ⟨_, rfl⟩
  rw [← htop]
  intro subject layout state
  obtain ⟨herrors, hplaces⟩ := run_top htop
  obtain ⟨entries, hlisted⟩ := run_listed herrors
  have hcalled : ⟨0xFFFFFFFE, .protected32⟩ ∈ state.places := by
    rw [hplaces]
    exact List.mem_cons_of_mem _ List.mem_cons_self
  obtain ⟨entry, hentry, hoffset, hshown⟩ := exists_shown_call htop hlisted hcalled
  have hblock : .code entry ∈ blocksFrom subject.image.base.toNat entries := mem_blocksFrom.mpr hentry
  refine ⟨herrors, hplaces ▸ separate_top htop, _, hlisted.blocks_eq, ?_, ⟨entry, hblock, ?_⟩, ?_⟩
  · intro start size hgap
    exact Nat.le_of_lt_succ (Nat.lt_of_le_of_lt (Nat.le_add_left _ _) (hlisted.gap_in_image hgap).2.2.2)
  · rw [hshown, hoffset]
    change _ ≠ subject.image.window 0xFFFFFFFE 6
    rw [← htop, window_call]
    decide
  · intro hprefix
    refine not_infix_callBehind returns (List.IsInfix.trans ?_ hprefix.isInfix)
    rw [← hshown, List.flatMap_assoc, ← printed_code entry]
    exact List.infix_of_mem_flatten (List.mem_map_of_mem hblock)

end Session

end FlowDisasm
