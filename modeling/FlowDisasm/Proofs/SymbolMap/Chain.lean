import FlowDisasm.Proofs.SymbolMap.RoundTrip
import Mathlib.Data.List.Chain

/-!
# The chain of blocks in any file

What the readers of a map accept in a file is what would be written there, if the bytes that nobody reads are those of the
file. A block moves the cursor forward and its pointer is followed only if it does not lead back, so the blocks of a
chain lie one behind the other, wherever the pointers of a file lead.
-/
namespace FlowDisasm.SymbolMap

open Bytes (Cursor ShortText encode)
open Bytes.Cursor (Passes)

variable {α β : Type} {reader : Reader Logged α} {value : α} {cursor after : Cursor}

/-! ## What readers went over -/

theorem outcome_bind_eq_ok {next : α → Reader Logged β} {result : β} :
    outcome (reader >>= next) cursor = .ok (result, after) ↔
      ∃ value between, outcome reader cursor = .ok (value, between) ∧
        outcome (next value) between = .ok (result, after) := by
  rw [outcome_bind]
  constructor
  · intro h
    cases hreader : outcome reader cursor with
    | ok found =>
      rw [hreader] at h
      exact ⟨found.1, found.2, rfl, h⟩
    | error error =>
      rw [hreader] at h
      cases h
  · rintro ⟨value, between, hvalue, h⟩
    rw [hvalue]
    exact h

theorem outcome_pure_eq_ok {found : α} :
    outcome (pure value) cursor = .ok (found, after) ↔ value = found ∧ cursor = after := by
  change (Except.ok (value, cursor) : Except Error _) = _ ↔ _
  rw [Except.ok.injEq, Prod.mk.injEq]

theorem outcome_act_eq_ok {action : Cursor.Action α} :
    outcome (act action) cursor = .ok (value, after) ↔ action.run cursor = (.ok value, after) := by
  rw [outcome_act]
  rcases action.run cursor with ⟨result, found⟩
  constructor
  · intro h
    cases result with
    | ok value =>
      cases h
      rfl
    | error error => cases h
  · rintro ⟨⟩
    rfl

theorem outcome_note_eq_ok {level : Level} {text : String} {found : Unit} :
    outcome (Host.note level text) cursor = .ok (found, after) ↔ cursor = after := by
  rw [outcome_note, Except.ok.injEq, Prod.mk.injEq]
  exact ⟨And.right, fun h => ⟨rfl, h⟩⟩

theorem outcome_seek_eq_ok {position : Nat} {found : Unit} :
    outcome (act (Cursor.seek position)) cursor = .ok (found, after) ↔
      position ≤ cursor.data.size ∧ { cursor with position } = after := by
  rw [outcome_act_eq_ok, Cursor.run_seek]
  constructor
  · intro h
    split at h
    · rename_i hfits
      exact ⟨hfits, (Prod.mk.inj h).2⟩
    · cases h
  · rintro ⟨hfits, rfl⟩
    exact if_pos hfits

def Filler.of (file : Array UInt8) : Filler where
  byteAt position := file[position]?.getD 0

theorem passes_filler {bytes : List UInt8} (h : Passes cursor bytes after) :
    bytes = (Filler.of cursor.data).bytes cursor.position bytes.length := by
  obtain ⟨-, -, hbytes⟩ := Bytes.range?_eq_some_iff.mp h.range
  refine List.ext_getElem (Filler.length_bytes ..).symm fun index hindex hindex' => ?_
  have hbyte := hbytes index hindex
  rw [List.getElem?_eq_getElem hindex] at hbyte
  simp only [Filler.bytes, Filler.of, List.getElem_map, List.getElem_range', Nat.one_mul, hbyte,
    Option.getD_some]

theorem passes_of_word [Bytes.Word α] (h : outcome word cursor = .ok (value, after)) :
    Passes cursor (encode value) after := by
  rw [outcome_word] at h
  exact Cursor.passes_of_run_word (outcome_act_eq_ok.mp h)

theorem passes_of_text {found : String} (h : outcome text cursor = .ok (found, after)) :
    ∃ name : ShortText, found = name.text ∧ Passes cursor name.bytes after := by
  rw [outcome_text] at h
  exact Cursor.passes_of_run_text (outcome_act_eq_ok.mp h)

theorem passes_of_symbol {segment : UInt16} {found : Symbol}
    (h : outcome (symbol segment) cursor = .ok (found, after)) :
    ∃ written : WrittenSymbol, found = written.symbol segment ∧ Passes cursor written.bytes after := by
  unfold symbol at h
  obtain ⟨offset, between, hoffset, h⟩ := outcome_bind_eq_ok.mp h
  obtain ⟨_, behind, hname, h⟩ := outcome_bind_eq_ok.mp h
  obtain ⟨_, _, hnote, h⟩ := outcome_bind_eq_ok.mp h
  obtain rfl := outcome_note_eq_ok.mp hnote
  obtain ⟨rfl, rfl⟩ := outcome_pure_eq_ok.mp h
  obtain ⟨name, rfl, hpasses⟩ := passes_of_text hname
  exact ⟨⟨offset, name⟩, rfl, (passes_of_word hoffset).append hpasses⟩

theorem passes_of_symbolList {segment : UInt16} {count : Nat} {found : List Symbol}
    (hcursor : cursor.position ≤ cursor.data.size)
    (h : outcome (symbolList segment count) cursor = .ok (found, after)) :
    ∃ written : List WrittenSymbol, written.length = count ∧
      found = written.map (WrittenSymbol.symbol segment) ∧
      Passes cursor (written.flatMap WrittenSymbol.bytes) after := by
  induction count generalizing cursor found with
  | zero =>
    obtain ⟨rfl, rfl⟩ := outcome_pure_eq_ok.mp h
    exact ⟨[], rfl, rfl, .nothing hcursor⟩
  | succ count ih =>
    rw [symbolList] at h
    obtain ⟨first, between, hfirst, h⟩ := outcome_bind_eq_ok.mp h
    obtain ⟨rest, last, hrest, h⟩ := outcome_bind_eq_ok.mp h
    obtain ⟨rfl, rfl⟩ := outcome_pure_eq_ok.mp h
    obtain ⟨written, rfl, hpasses⟩ := passes_of_symbol hfirst
    obtain ⟨others, rfl, rfl, hothers⟩ := ih hpasses.position_le hrest
    exact ⟨written :: others, rfl, rfl, hpasses.append hothers⟩

theorem passes_of_blockPointer {found : Nat} (h : outcome blockPointer cursor = .ok (found, after)) :
    ∃ next : UInt16, found = next.toNat * paragraphSize ∧ Passes cursor (encode next) after := by
  obtain ⟨next, between, hword, h⟩ := outcome_bind_eq_ok.mp h
  obtain ⟨rfl, rfl⟩ := outcome_pure_eq_ok.mp h
  exact ⟨next, rfl, passes_of_word hword⟩

/-- Bytes that are skipped or of which the word is not kept are filling bytes of the file. -/
theorem passes_of_skip {count : Nat} (h : outcome (skip count) cursor = .ok ((), after)) :
    Passes cursor ((Filler.of cursor.data).bytes cursor.position count) after := by
  rw [outcome_skip] at h
  obtain ⟨bytes, rfl, hpasses⟩ := Cursor.passes_of_run_skip (outcome_act_eq_ok.mp h)
  rwa [← passes_filler hpasses]

theorem passes_of_unused [Bytes.Word α] (h : outcome word cursor = .ok (value, after)) :
    Passes cursor ((Filler.of cursor.data).bytes cursor.position (Bytes.Word.width α)) after := by
  have hpasses := passes_of_word h
  rwa [← Bytes.length_encode value, ← passes_filler hpasses]

/-- Filling bytes behind other bytes. -/
theorem passes_behind {between : Cursor} {front : List UInt8} {count : Nat} (start : Nat)
    (hfront : Passes cursor front between) (hstart : front.length = start)
    (h : Passes between ((Filler.of between.data).bytes between.position count) after) :
    Passes cursor (front ++ (Filler.of cursor.data).bytes (cursor.position + start) count) after := by
  rw [hfront.data_eq, hfront.position_eq, hstart] at h
  exact hfront.append h

/-- What the front of a block in a file says, with the bytes that it takes. -/
theorem passes_of_blockHeader {found : BlockHeader}
    (h : outcome blockHeader cursor = .ok (found, after)) :
    ∃ (next : UInt16) (name : ShortText),
      found.next = next.toNat * paragraphSize ∧ found.name = name.text ∧
      Passes cursor (encode next ++ encode found.symbolCount
        ++ (Filler.of cursor.data).bytes (cursor.position + 4) 2 ++ encode found.number
        ++ (Filler.of cursor.data).bytes (cursor.position + 8) 6 ++ encode found.type
        ++ (Filler.of cursor.data).bytes (cursor.position + 15) 5 ++ name.bytes) after := by
  unfold blockHeader at h
  obtain ⟨_, atCount, hnext, h⟩ := outcome_bind_eq_ok.mp h
  obtain ⟨count, atSize, hcount, h⟩ := outcome_bind_eq_ok.mp h
  obtain ⟨_, atNumber, hsize, h⟩ := outcome_bind_eq_ok.mp h
  obtain ⟨number, atFirst, hnumber, h⟩ := outcome_bind_eq_ok.mp h
  obtain ⟨_, atType, hfirst, h⟩ := outcome_bind_eq_ok.mp h
  obtain ⟨type, atSecond, htype, h⟩ := outcome_bind_eq_ok.mp h
  obtain ⟨_, atName, hsecond, h⟩ := outcome_bind_eq_ok.mp h
  obtain ⟨_, last, hname, h⟩ := outcome_bind_eq_ok.mp h
  obtain ⟨rfl, rfl⟩ := outcome_pure_eq_ok.mp h
  obtain ⟨next, hpointer, hfront⟩ := passes_of_blockPointer hnext
  obtain ⟨name, htext, hback⟩ := passes_of_text hname
  refine ⟨next, name, hpointer, htext, Passes.append ?_ hback⟩
  have hlength {ω : Type} [Bytes.Word ω] (word : ω) : (encode word).length = Bytes.Word.width ω :=
    Bytes.length_encode word
  have hunused := passes_behind 4 (hfront.append (passes_of_word hcount))
    (by simp only [List.length_append, hlength]; rfl) (passes_of_unused hsize)
  have hgap := passes_behind 8 (hunused.append (passes_of_word hnumber))
    (by simp only [List.length_append, hlength, Filler.length_bytes]; rfl) (passes_of_skip hfirst)
  exact passes_behind 15 (hgap.append (passes_of_word htype))
    (by simp only [List.length_append, hlength, Filler.length_bytes]; rfl) (passes_of_skip hsecond)

/-- What a block in a file says is what a segment says whose block would be written with these bytes. -/
theorem passes_of_block {found : SymbolSegment × Nat} (h : outcome block cursor = .ok (found, after)) :
    ∃ (next : UInt16) (written : WrittenSegment),
      found = (written.segment, next.toNat * paragraphSize) ∧
      Passes cursor (written.block (Filler.of cursor.data) cursor.position next) after := by
  unfold block at h
  obtain ⟨header, between, hheader, h⟩ := outcome_bind_eq_ok.mp h
  obtain ⟨_, _, hnote, h⟩ := outcome_bind_eq_ok.mp h
  obtain rfl := outcome_note_eq_ok.mp hnote
  obtain ⟨next, name, hnext, hname, hfront⟩ := passes_of_blockHeader hheader
  dsimp only at h
  split at h
  · cases h
  · rename_i htype
    obtain ⟨symbols, last, hsymbols, h⟩ := outcome_bind_eq_ok.mp h
    obtain ⟨rfl, rfl⟩ := outcome_pure_eq_ok.mp h
    obtain ⟨written, hcount, rfl, hback⟩ := passes_of_symbolList hfront.position_le hsymbols
    have hfew : written.length < UInt16.size := hcount ▸ header.symbolCount.toNat_lt
    refine ⟨next, ⟨header.number, name, written, hfew⟩, ?_, ?_⟩
    · rw [hnext, hname]
      rfl
    · rw [WrittenSegment.block, WrittenSegment.front, hcount, UInt16.ofNat_toNat,
        ← Decidable.not_not.mp htype]
      exact hfront.append hback

/-- What the header of a file says, and where it says it. -/
theorem passes_of_header {found : Header} (h : outcome header cursor = .ok (found, after)) :
    ∃ first : UInt16, found.firstBlock = first.toNat * paragraphSize ∧
      Bytes.read? cursor.data (cursor.position + 2) = some found.looseSymbols ∧
      Bytes.read? cursor.data (cursor.position + 6) = some found.segmentCount ∧
      Bytes.read? cursor.data (cursor.position + 8) = some first ∧ after.data = cursor.data := by
  unfold header at h
  obtain ⟨entry, atLoose, hentry, h⟩ := outcome_bind_eq_ok.mp h
  obtain ⟨loose, atSize, hloose, h⟩ := outcome_bind_eq_ok.mp h
  obtain ⟨_, atCount, hsize, h⟩ := outcome_bind_eq_ok.mp h
  obtain ⟨count, atFirst, hcount, h⟩ := outcome_bind_eq_ok.mp h
  obtain ⟨_, atGap, hfirst, h⟩ := outcome_bind_eq_ok.mp h
  obtain ⟨_, atName, hgap, h⟩ := outcome_bind_eq_ok.mp h
  obtain ⟨_, last, hname, h⟩ := outcome_bind_eq_ok.mp h
  obtain ⟨rfl, rfl⟩ := outcome_pure_eq_ok.mp h
  obtain ⟨first, hpointer, hback⟩ := passes_of_blockPointer hfirst
  obtain ⟨name, -, hlast⟩ := passes_of_text hname
  have hlength {ω : Type} [Bytes.Word ω] (word : ω) : (encode word).length = Bytes.Word.width ω :=
    Bytes.length_encode word
  -- The header up to its count, and up to its pointer.
  have hfront := passes_of_word hentry
  have hmiddle := (hfront.append (passes_of_word hloose)).append (passes_of_unused hsize)
  have hcounted := hmiddle.append (passes_of_word hcount)
  refine ⟨first, hpointer, ?_, ?_, ?_, ?_⟩
  · have hread := (passes_of_word hloose).read?_eq
    rwa [hfront.data_eq, hfront.position_eq, hlength] at hread
  · have hread := (passes_of_word hcount).read?_eq
    rw [hmiddle.data_eq, hmiddle.position_eq] at hread
    simp only [List.length_append, hlength, Filler.length_bytes] at hread
    exact hread
  · have hread := hback.read?_eq
    rw [hcounted.data_eq, hcounted.position_eq] at hread
    simp only [List.length_append, hlength, Filler.length_bytes] at hread
    exact hread
  · rw [hlast.data_eq, (passes_of_skip hgap).data_eq, hback.data_eq, hcounted.data_eq]

/-! ## The chain -/

namespace WrittenSegment

theorem exists_pointer (filler : Filler) (start : Nat) (next : UInt16) (written : WrittenSegment) :
    ∃ back, written.block filler start next = encode next ++ back := by
  simp only [block, front, List.append_assoc, List.append_cancel_left_eq, exists_eq']

/-- The type of a block stands behind its pointer, three numbers and six bytes. -/
theorem exists_type (filler : Filler) (start : Nat) (next : UInt16) (written : WrittenSegment) :
    ∃ front back, front.length = 14 ∧
      written.block filler start next = front ++ (encode segmentType ++ back) := by
  refine ⟨encode next ++ encode (UInt16.ofNat written.symbols.length) ++ filler.bytes (start + 4) 2
    ++ encode written.number ++ filler.bytes (start + 8) 6, filler.bytes (start + 15) 5
    ++ written.name.bytes ++ written.symbols.flatMap WrittenSymbol.bytes, ?_, ?_⟩
  · simp only [List.length_append, Bytes.length_encode, Filler.length_bytes]
    rfl
  · simp only [block, front, List.append_assoc]

end WrittenSegment

/-- A block at a place in a file, with the paragraph that it points to. -/
structure PlacedBlock where
  start : Nat
  next : UInt16
  written : WrittenSegment

namespace PlacedBlock

def stop (placed : PlacedBlock) : Nat :=
  placed.start + placed.written.size

/-- The position that a block points to. -/
def nextStart (placed : PlacedBlock) : Nat :=
  placed.next.toNat * paragraphSize

/-- A block has the room that blocks need, and all its bytes are in the file. -/
structure Lies (file : Array UInt8) (placed : PlacedBlock) : Prop where
  room : placed.start + minBlockSize < file.size
  bytes : Bytes.range? file placed.start placed.written.size =
    some (placed.written.block (Filler.of file) placed.start placed.next)

variable {file : Array UInt8} {placed : PlacedBlock}

/-- A block has a front of twenty bytes and a name that tells its length. -/
theorem start_add_le_stop (placed : PlacedBlock) : placed.start + 21 ≤ placed.stop := by
  simp only [stop, WrittenSegment.size, ShortText.bytes, List.length_cons]
  omega

theorem Lies.stop_le (h : placed.Lies file) : placed.stop ≤ file.size :=
  (Bytes.range?_eq_some_iff.mp h.bytes).1

/-- A word that is written in a block stands in the file behind what is written before it. -/
theorem Lies.read?_eq [Bytes.Word α] {word : α} {front back : List UInt8} (h : placed.Lies file)
    (hsplit : placed.written.block (Filler.of file) placed.start placed.next =
      front ++ (encode word ++ back)) :
    Bytes.read? file (placed.start + front.length) = some word := by
  have hbytes := h.bytes
  have hsize : placed.written.size = front.length + (Bytes.Word.width α + back.length) := by
    rw [← WrittenSegment.length_block, hsplit, List.length_append, List.length_append,
      Bytes.length_encode]
  rw [hsplit, hsize, Bytes.range?_append rfl] at hbytes
  exact Bytes.read?_eq_some_iff.mpr ((Bytes.range?_append (Bytes.length_encode word)).mp hbytes.2).1

theorem Lies.read?_start (h : placed.Lies file) :
    Bytes.read? file placed.start = some placed.next := by
  obtain ⟨back, hsplit⟩ := placed.written.exists_pointer (Filler.of file) placed.start placed.next
  have hread : Bytes.read? file (placed.start + ([] : List UInt8).length) = some placed.next :=
    h.read?_eq hsplit
  exact hread

theorem Lies.read?_type (h : placed.Lies file) :
    Bytes.read? file (placed.start + 14) = some segmentType := by
  obtain ⟨front, back, hlength, hsplit⟩ :=
    placed.written.exists_type (Filler.of file) placed.start placed.next
  rw [← hlength]
  exact h.read?_eq hsplit

end PlacedBlock

/-- The blocks that a file has from a position on: there is no room for another one, or a block that points back, or
a block with the chain at the place that it points to. -/
inductive Chained (file : Array UInt8) : Nat → List PlacedBlock → Prop
  | none {start : Nat} (full : file.size ≤ start + minBlockSize) : Chained file start []
  | last {placed : PlacedBlock} (lies : placed.Lies file) (back : placed.nextStart < placed.stop) :
      Chained file placed.start [placed]
  | next {placed : PlacedBlock} {others : List PlacedBlock} (lies : placed.Lies file)
      (onward : placed.stop ≤ placed.nextStart) (rest : Chained file placed.nextStart others) :
      Chained file placed.start (placed :: others)

namespace Chained

variable {file : Array UInt8} {start : Nat} {chain : List PlacedBlock}

theorem lies (h : Chained file start chain) : ∀ placed ∈ chain, placed.Lies file := by
  induction h with
  | none => exact List.forall_mem_nil _
  | last lies => exact List.forall_mem_singleton.mpr lies
  | next lies _ _ ih => exact List.forall_mem_cons.mpr ⟨lies, ih⟩

theorem start_le (h : Chained file start chain) : ∀ placed ∈ chain, start ≤ placed.start := by
  induction h with
  | none => exact List.forall_mem_nil _
  | last => exact List.forall_mem_singleton.mpr (Nat.le_refl _)
  | @next placed others lies onward rest ih =>
    refine List.forall_mem_cons.mpr ⟨Nat.le_refl _, fun other hother => ?_⟩
    have hother := ih other hother
    have hstop := placed.start_add_le_stop
    omega

/-- Each block ends at or before the start of every later one. -/
theorem apart (h : Chained file start chain) :
    chain.Pairwise fun earlier later => earlier.stop ≤ later.start := by
  induction h with
  | none => exact .nil
  | last => exact List.pairwise_singleton _ _
  | next lies onward rest ih =>
    exact .cons (fun other hother => Nat.le_trans onward (rest.start_le other hother)) ih

theorem aligned (h : Chained file start chain) (hstart : paragraphSize ∣ start) :
    ∀ placed ∈ chain, paragraphSize ∣ placed.start := by
  induction h with
  | none => exact List.forall_mem_nil _
  | last => exact List.forall_mem_singleton.mpr hstart
  | next lies onward rest ih => exact List.forall_mem_cons.mpr ⟨hstart, ih (Nat.dvd_mul_left _ _)⟩

theorem head?_start (h : Chained file start chain) : ∀ placed ∈ chain.head?, placed.start = start := by
  cases h <;> simp

/-- Each block but the first starts where the one before it points to. -/
theorem linked (h : Chained file start chain) :
    chain.IsChain fun placed following => following.start = placed.nextStart := by
  induction h with
  | none => exact .nil
  | last => exact .singleton _
  | next lies onward rest ih => exact List.isChain_cons.mpr ⟨rest.head?_start, ih⟩

/-- A chain has one block for every 21 bytes at most. -/
theorem length_le (h : Chained file start chain) :
    21 * chain.length ≤ file.size - start := by
  induction h with
  | none => exact Nat.zero_le _
  | @last placed lies =>
    have hstop := placed.start_add_le_stop
    have hend := lies.stop_le
    simp only [List.length_singleton]
    omega
  | @next placed others lies onward rest ih =>
    have hstop := placed.start_add_le_stop
    have hend := lies.stop_le
    rw [List.length_cons]
    omega

end Chained

/-- The blocks that are read from a cursor are the chain there. There is a round for every byte, which is more than
are needed. -/
theorem chained_of_blocks {fuel : Nat} {found : List SymbolSegment}
    (hcursor : cursor.position ≤ cursor.data.size) (hfuel : cursor.data.size ≤ cursor.position + fuel)
    (h : outcome (blocks fuel) cursor = .ok (found, after)) :
    ∃ chain, Chained cursor.data cursor.position chain ∧
      found = chain.map fun placed => placed.written.segment := by
  induction fuel generalizing cursor found with
  | zero =>
    obtain ⟨rfl, rfl⟩ := outcome_pure_eq_ok.mp h
    exact ⟨[], .none (Nat.le_add_right_of_le hfuel), rfl⟩
  | succ fuel ih =>
    rw [outcome_blocks_succ] at h
    split at h
    case isFalse hfull =>
      obtain ⟨rfl, rfl⟩ := Prod.mk.inj (Except.ok.inj h)
      exact ⟨[], .none (Nat.le_of_not_lt hfull), rfl⟩
    rename_i hroom
    split at h
    · cases h
    rename_i segment next behind hblock
    obtain ⟨pointer, written, hfound, hpasses⟩ := passes_of_block hblock
    obtain ⟨rfl, rfl⟩ := Prod.mk.inj hfound
    have hrange := hpasses.range
    have hposition := hpasses.position_eq
    rw [WrittenSegment.length_block] at hrange hposition
    have hlies : PlacedBlock.Lies cursor.data ⟨cursor.position, pointer, written⟩ := ⟨hroom, hrange⟩
    split at h
    · rename_i hback
      obtain ⟨rfl, rfl⟩ := Prod.mk.inj (Except.ok.inj h)
      rw [hposition] at hback
      exact ⟨_, .last hlies hback, rfl⟩
    · rename_i honward
      split at h
      · cases h
      rename_i sought hseek
      obtain ⟨hin, rfl⟩ := outcome_seek_eq_ok.mp hseek
      split at h
      · cases h
      rename_i rest last hrest
      obtain ⟨rfl, rfl⟩ := Prod.mk.inj (Except.ok.inj h)
      have hstop := PlacedBlock.start_add_le_stop ⟨cursor.position, pointer, written⟩
      have hnext : PlacedBlock.stop ⟨cursor.position, pointer, written⟩ ≤
          pointer.toNat * paragraphSize := by
        rw [hposition] at honward
        exact Nat.le_of_not_lt honward
      obtain ⟨chain, hchain, rfl⟩ := ih hin (by rw [hpasses.data_eq]; dsimp only at *; omega) hrest
      rw [hpasses.data_eq] at hchain
      exact ⟨_, .next hlies hnext hchain, rfl⟩

/-! ## Whole files -/

/-- What a file holds out of which a map is read: a header that tells its size, no symbols outside of segments, and a
number of blocks; and a chain of so many blocks, one for each segment of the map. -/
structure Chains (file : Array UInt8) (map : SymbolMap) (chain : List PlacedBlock) : Prop where
  size : ∃ paragraphs : UInt32, Bytes.read? file 0 = some paragraphs ∧
    file.size = 4 + 16 * paragraphs.toNat
  noLooseSymbols : Bytes.read? file 6 = some (0 : UInt16)
  count : ∃ declared : UInt16, Bytes.read? file 10 = some declared ∧
    map.segments.length = declared.toNat
  first : ∃ pointer : UInt16, Bytes.read? file 12 = some pointer ∧
    ∀ placed ∈ chain.head?, placed.start = 16 * pointer.toNat
  segments : map.segments = chain.map fun placed => placed.written.segment
  pointers : ∀ placed ∈ chain, Bytes.read? file placed.start = some placed.next
  linked : chain.IsChain fun placed following => following.start = 16 * placed.next.toNat
  aligned : ∀ placed ∈ chain, 16 ∣ placed.start
  ascending : chain.Pairwise fun earlier later => earlier.start < later.start
  apart : chain.Pairwise fun earlier later => earlier.stop ≤ later.start
  inside : ∀ placed ∈ chain, placed.stop ≤ file.size
  /-- All that a segment says stands in its block. -/
  bytes : ∀ placed ∈ chain, Bytes.range? file placed.start placed.written.size =
    some (placed.written.block (Filler.of file) placed.start placed.next)
  type : ∀ placed ∈ chain, Bytes.read? file (placed.start + 14) = some (1 : UInt8)
  numbers : ∀ segment ∈ map.segments, ∀ symbol ∈ segment.symbols, symbol.segment = segment.number
  few : chain.length ≤ file.size / 21

variable {file : Array UInt8} {map : SymbolMap}

theorem WrittenSegment.numbers (written : WrittenSegment) :
    ∀ symbol ∈ written.segment.symbols, symbol.segment = written.segment.number := by
  intro symbol hsymbol
  obtain ⟨_, -, rfl⟩ := List.mem_map.mp hsymbol
  rfl

/-- A map that is read is told by the header of its file and by the blocks that the header points to. -/
theorem exists_of_whole {fuel : Nat} (h : outcome (whole fuel) { data := file } = .ok (map, after)) :
    ∃ (paragraphs : UInt32) (declared pointer : UInt16) (last : Cursor),
      Bytes.read? file 0 = some paragraphs ∧ file.size = 4 + 16 * paragraphs.toNat ∧
      Bytes.read? file 6 = some (0 : UInt16) ∧
      Bytes.read? file 10 = some declared ∧ map.segments.length = declared.toNat ∧
      Bytes.read? file 12 = some pointer ∧ pointer.toNat * paragraphSize ≤ file.size ∧
      outcome (blocks fuel) { data := file, position := pointer.toNat * paragraphSize } =
        .ok (map.segments, last) := by
  unfold whole at h
  obtain ⟨paragraphs, atHeader, hparagraphs, h⟩ := outcome_bind_eq_ok.mp h
  have hsize := passes_of_word hparagraphs
  have hdata : atHeader.data = file := hsize.data_eq
  have hposition : atHeader.position = 4 := by
    rw [hsize.position_eq, Bytes.length_encode]
    rfl
  rw [outcome_bind, outcome_get] at h
  dsimp only at h
  rw [outcome_bind_of_ok (outcome_sum ..)] at h
  split at h
  · cases h
  rename_i htold
  obtain ⟨found, atBlocks, hheader, h⟩ := outcome_bind_eq_ok.mp h
  obtain ⟨pointer, hpointer, hloose, hcount, hfirst, hsame⟩ := passes_of_header hheader
  rw [hdata, hposition] at hloose hcount hfirst
  rw [hdata] at hsame htold
  obtain ⟨_, _, hnote, h⟩ := outcome_bind_eq_ok.mp h
  obtain rfl := outcome_note_eq_ok.mp hnote
  split at h
  · cases h
  rename_i hnone
  obtain ⟨_, _, hseek, h⟩ := outcome_bind_eq_ok.mp h
  obtain ⟨hin, rfl⟩ := outcome_seek_eq_ok.mp hseek
  obtain ⟨segments, last, hblocks, h⟩ := outcome_bind_eq_ok.mp h
  split at h
  · cases h
  rename_i hnumber
  obtain ⟨rfl, rfl⟩ := outcome_pure_eq_ok.mp h
  rw [Decidable.not_not] at htold hnone hnumber
  rw [hsame, hpointer] at hin hblocks
  refine ⟨paragraphs, _, pointer, _, hsize.read?_eq, ?_, hnone ▸ hloose, hcount, hnumber, hfirst,
    hin, hblocks⟩
  unfold paragraphSize at htold
  omega

theorem chains_of_whole (h : outcome (whole file.size) { data := file } = .ok (map, after)) :
    ∃ chain, Chains file map chain := by
  obtain ⟨paragraphs, declared, pointer, last, htold, hsize, hloose, hdeclared, hcount, hpointer,
    hin, hblocks⟩ := exists_of_whole h
  have hfuel : file.size ≤ pointer.toNat * paragraphSize + file.size := Nat.le_add_left _ _
  obtain ⟨chain, hchain, hsegments⟩ := chained_of_blocks hin hfuel hblocks
  have hlies := hchain.lies
  refine ⟨chain, {
    size := ⟨paragraphs, htold, hsize⟩
    noLooseSymbols := hloose
    count := ⟨declared, hdeclared, hcount⟩
    first := ⟨pointer, hpointer, fun placed hplaced => ?_⟩
    segments := hsegments
    pointers := fun placed hplaced => (hlies placed hplaced).read?_start
    linked := hchain.linked.imp fun _ _ hnext => hnext.trans (Nat.mul_comm ..)
    aligned := hchain.aligned (Nat.dvd_mul_left ..)
    ascending := hchain.apart.imp fun {earlier _} hapart => ?_
    apart := hchain.apart
    inside := fun placed hplaced => (hlies placed hplaced).stop_le
    bytes := fun placed hplaced => (hlies placed hplaced).bytes
    type := fun placed hplaced => (hlies placed hplaced).read?_type
    numbers := fun segment hsegment => ?_
    few := ?_ }⟩
  · exact (hchain.head?_start placed hplaced).trans (Nat.mul_comm ..)
  · have hstop := earlier.start_add_le_stop
    omega
  · rw [hsegments] at hsegment
    obtain ⟨placed, -, rfl⟩ := List.mem_map.mp hsegment
    exact placed.written.numbers
  · have hlength := hchain.length_le
    dsimp only at hlength
    omega

theorem chains_of_parse (h : (parse file).value = .ok map) : ∃ chain, Chains file map chain := by
  change (outcome (whole file.size) { data := file }).map Prod.fst = .ok map at h
  cases hwhole : outcome (whole file.size) { data := file } with
  | error error =>
    rw [hwhole] at h
    cases h
  | ok found =>
    rw [hwhole] at h
    obtain rfl := Except.ok.inj h
    exact chains_of_whole hwhole

end FlowDisasm.SymbolMap
