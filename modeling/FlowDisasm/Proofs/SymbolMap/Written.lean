import FlowDisasm.Proofs.Bytes.Cursor
import FlowDisasm.SymbolMap

/-!
# How a symbol map is written

A header and a block for each segment stand one after the other, each filled up to whole paragraphs. Every
block points to the one behind it, and the last one to paragraph zero. Some bytes are read by nobody and may
be anything: those are given by a filler, which has a byte for every position of the file.
-/
namespace FlowDisasm.SymbolMap

open Bytes (ShortText encode)

/-- The bytes that nobody reads, by their positions. -/
structure Filler where
  byteAt : Nat → UInt8

def Filler.bytes (filler : Filler) (start count : Nat) : List UInt8 :=
  (List.range' start count).map filler.byteAt

@[simp] theorem Filler.length_bytes (filler : Filler) (start count : Nat) :
    (filler.bytes start count).length = count := by
  rw [Filler.bytes, List.length_map, List.length_range']

/-- The number of paragraphs that hold so many bytes. -/
def paragraphsFor (size : Nat) : Nat :=
  (size + (paragraphSize - 1)) / paragraphSize

theorem le_paragraphsFor (size : Nat) : size ≤ paragraphsFor size * paragraphSize := by
  unfold paragraphsFor paragraphSize
  omega

theorem paragraphsFor_le (size : Nat) : paragraphsFor size ≤ size / paragraphSize + 1 := by
  unfold paragraphsFor paragraphSize
  omega

/-- Bytes that start at a position, filled up to a number of paragraphs. -/
def padded (filler : Filler) (start paragraphs : Nat) (bytes : List UInt8) : List UInt8 :=
  bytes ++ filler.bytes (start + bytes.length) (paragraphs * paragraphSize - bytes.length)

/-- A symbol as it is written. -/
structure WrittenSymbol where
  offset : UInt32
  name : ShortText

namespace WrittenSymbol

def bytes (written : WrittenSymbol) : List UInt8 :=
  encode written.offset ++ written.name.bytes

def symbol (segment : UInt16) (written : WrittenSymbol) : Symbol where
  name := written.name.text
  segment := segment
  offset := written.offset

theorem length_bytes_le (written : WrittenSymbol) : written.bytes.length ≤ 260 := by
  have hname := written.name.length_bytes_le
  have hoffset : (encode written.offset).length = 4 := Bytes.length_encode _
  rw [bytes, List.length_append]
  omega

theorem length_flatMap_bytes_le (symbols : List WrittenSymbol) :
    (symbols.flatMap bytes).length ≤ 260 * symbols.length := by
  induction symbols with
  | nil => exact Nat.le_refl 0
  | cons first others ih =>
    have hfirst := first.length_bytes_le
    rw [List.flatMap_cons, List.length_append, List.length_cons]
    omega

end WrittenSymbol

/-- A segment as it is written. -/
structure WrittenSegment where
  number : UInt16
  name : ShortText
  symbols : List WrittenSymbol
  few : symbols.length < UInt16.size

namespace WrittenSegment

def segment (written : WrittenSegment) : SymbolSegment where
  number := written.number
  name := written.name.text
  symbols := written.symbols.map (WrittenSymbol.symbol written.number)

/-- The number of bytes of a block that are not filled up. -/
def size (written : WrittenSegment) : Nat :=
  20 + written.name.bytes.length + (written.symbols.flatMap WrittenSymbol.bytes).length

def paragraphs (written : WrittenSegment) : Nat :=
  paragraphsFor (max minBlockSize written.size)

def front (filler : Filler) (start : Nat) (next : UInt16) (written : WrittenSegment) : List UInt8 :=
  encode next ++ encode (UInt16.ofNat written.symbols.length) ++ filler.bytes (start + 4) 2
    ++ encode written.number ++ filler.bytes (start + 8) 6 ++ encode segmentType
    ++ filler.bytes (start + 15) 5 ++ written.name.bytes

def block (filler : Filler) (start : Nat) (next : UInt16) (written : WrittenSegment) : List UInt8 :=
  front filler start next written ++ written.symbols.flatMap WrittenSymbol.bytes

variable {filler : Filler} {start : Nat} {next : UInt16}

theorem length_block (written : WrittenSegment) :
    (block filler start next written).length = written.size := by
  have hnext : (encode next).length = 2 := Bytes.length_encode _
  have hcount : (encode (UInt16.ofNat written.symbols.length)).length = 2 := Bytes.length_encode _
  have hnumber : (encode written.number).length = 2 := Bytes.length_encode _
  have htype : (encode segmentType).length = 1 := Bytes.length_encode _
  simp only [block, front, List.length_append, Filler.length_bytes, hnext, hcount, hnumber, htype, size]

theorem size_pos (written : WrittenSegment) : 0 < written.size := by
  unfold size
  omega

theorem size_le (written : WrittenSegment) : written.size ≤ 276 + 260 * written.symbols.length := by
  have hname := written.name.length_bytes_le
  have hsymbols := WrittenSymbol.length_flatMap_bytes_le written.symbols
  unfold size
  omega

theorem size_le_paragraphs (written : WrittenSegment) :
    max minBlockSize written.size ≤ written.paragraphs * paragraphSize :=
  le_paragraphsFor _

theorem paragraphs_pos (written : WrittenSegment) : 0 < written.paragraphs := by
  have hsize := written.size_le_paragraphs
  have hpos := written.size_pos
  refine Nat.pos_of_ne_zero fun hzero => ?_
  rw [hzero, Nat.zero_mul] at hsize
  omega

theorem paragraphs_lt (written : WrittenSegment) : written.paragraphs < 2000000 := by
  have hfew := written.few
  have hsize := written.size_le
  have hparagraphs := paragraphsFor_le (max minBlockSize written.size)
  simp only [UInt16.size, minBlockSize, paragraphSize] at hfew hparagraphs
  unfold paragraphs
  simp only [minBlockSize]
  omega

end WrittenSegment

/-- The pointer to the paragraph of the block behind a block, if others follow. -/
def pointerTo (paragraph : Nat) (others : List WrittenSegment) : UInt16 :=
  if others.isEmpty then 0 else UInt16.ofNat paragraph

/-- The blocks of segments from a paragraph on. -/
def blocksFrom (filler : Filler) (paragraph : Nat) : List WrittenSegment → List UInt8
  | [] => []
  | first :: others =>
    let behind := paragraph + first.paragraphs
    padded filler (paragraph * paragraphSize) first.paragraphs
        (first.block filler (paragraph * paragraphSize) (pointerTo behind others))
      ++ blocksFrom filler behind others

/-- Between the end of a block and the next one there are only bytes that fill it up. -/
theorem blocksFrom_cons (filler : Filler) (paragraph : Nat) (first : WrittenSegment)
    (others : List WrittenSegment) : ∃ filling,
    blocksFrom filler paragraph (first :: others) =
      first.block filler (paragraph * paragraphSize) (pointerTo (paragraph + first.paragraphs) others)
        ++ (filling ++ blocksFrom filler (paragraph + first.paragraphs) others) ∧
    first.size + filling.length = first.paragraphs * paragraphSize := by
  have hfits := first.size_le_paragraphs
  refine ⟨_, List.append_assoc .., ?_⟩
  rw [Filler.length_bytes, WrittenSegment.length_block]
  omega

def startsFrom (paragraph : Nat) : List WrittenSegment → List Nat
  | [] => []
  | first :: others => paragraph :: startsFrom (paragraph + first.paragraphs) others

def endFrom (paragraph : Nat) (segments : List WrittenSegment) : Nat :=
  segments.foldl (fun paragraph segment => paragraph + segment.paragraphs) paragraph

theorem length_blocksFrom (filler : Filler) (paragraph : Nat) (segments : List WrittenSegment) :
    paragraph * paragraphSize + (blocksFrom filler paragraph segments).length =
      endFrom paragraph segments * paragraphSize := by
  induction segments generalizing paragraph with
  | nil => rfl
  | cons first others ih =>
    obtain ⟨filling, hsplit, hfilled⟩ := blocksFrom_cons filler paragraph first others
    have hothers := ih (paragraph + first.paragraphs)
    rw [Nat.add_mul] at hothers
    rw [hsplit, List.length_append, List.length_append, WrittenSegment.length_block, endFrom,
      List.foldl_cons, ← endFrom, ← hothers]
    omega

theorem length_le_endFrom (paragraph : Nat) (segments : List WrittenSegment) :
    paragraph + segments.length ≤ endFrom paragraph segments := by
  induction segments generalizing paragraph with
  | nil => exact Nat.le_refl _
  | cons first others ih =>
    have hothers := ih (paragraph + first.paragraphs)
    have hpos := first.paragraphs_pos
    rw [List.length_cons, endFrom, List.foldl_cons, ← endFrom]
    omega

/-- Blocks that start where pointers reach end where the size field can tell. -/
theorem endFrom_lt {paragraph : Nat} {segments : List WrittenSegment} (h : paragraph < UInt16.size)
    (hstarts : ∀ start ∈ startsFrom paragraph segments, start < UInt16.size) :
    endFrom paragraph segments < UInt32.size := by
  induction segments generalizing paragraph with
  | nil => exact Nat.lt_trans h (by decide)
  | cons first others ih =>
    rw [endFrom, List.foldl_cons, ← endFrom]
    cases others with
    | nil =>
      have hlast := first.paragraphs_lt
      simp only [UInt16.size] at h
      simp only [endFrom, List.foldl_nil, UInt32.size]
      omega
    | cons second more =>
      exact ih (hstarts _ (List.mem_cons_of_mem _ List.mem_cons_self))
        fun start hmem => hstarts start (List.mem_cons_of_mem _ hmem)

/-- A symbol map as it is written. -/
structure WrittenMap where
  moduleName : ShortText
  entrySegment : UInt16
  segments : List WrittenSegment
  few : segments.length < UInt16.size

namespace WrittenMap

def map (written : WrittenMap) : SymbolMap where
  moduleName := written.moduleName.text
  entrySegment := written.entrySegment
  segments := written.segments.map WrittenSegment.segment

def first (written : WrittenMap) : Nat :=
  paragraphsFor (15 + written.moduleName.bytes.length)

def starts (written : WrittenMap) : List Nat :=
  startsFrom written.first written.segments

def paragraphs (written : WrittenMap) : Nat :=
  endFrom written.first written.segments

def front (filler : Filler) (written : WrittenMap) : List UInt8 :=
  encode written.entrySegment ++ encode (0 : UInt16) ++ filler.bytes 8 2
    ++ encode (UInt16.ofNat written.segments.length) ++ encode (UInt16.ofNat written.first)
    ++ filler.bytes 14 1 ++ written.moduleName.bytes

def header (filler : Filler) (written : WrittenMap) : List UInt8 :=
  encode (UInt32.ofNat written.paragraphs) ++ written.front filler

def bytes (filler : Filler) (written : WrittenMap) : List UInt8 :=
  padded filler 0 written.first (written.header filler)
    ++ blocksFrom filler written.first written.segments
    ++ filler.bytes (written.paragraphs * paragraphSize) 4

variable {filler : Filler} {written : WrittenMap}

theorem length_header : (written.header filler).length = 15 + written.moduleName.bytes.length := by
  have hsize : (encode (UInt32.ofNat written.paragraphs)).length = 4 := Bytes.length_encode _
  have hentry : (encode written.entrySegment).length = 2 := Bytes.length_encode _
  have hloose : (encode (0 : UInt16)).length = 2 := Bytes.length_encode _
  have hcount : (encode (UInt16.ofNat written.segments.length)).length = 2 := Bytes.length_encode _
  have hfirst : (encode (UInt16.ofNat written.first)).length = 2 := Bytes.length_encode _
  simp only [header, front, List.length_append, Filler.length_bytes, hsize, hentry, hloose, hcount,
    hfirst]
  omega

theorem first_lt (written : WrittenMap) : written.first < UInt16.size := by
  have hname := written.moduleName.length_bytes_le
  have hfirst := paragraphsFor_le (15 + written.moduleName.bytes.length)
  simp only [paragraphSize] at hfirst
  unfold first
  simp only [UInt16.size]
  omega

/-- The header of a map in its paragraphs, with the blocks and the last four bytes behind it. -/
theorem bytes_eq (filler : Filler) (written : WrittenMap) : ∃ filling,
    written.bytes filler = written.header filler ++ (filling ++
      (blocksFrom filler written.first written.segments
        ++ filler.bytes (written.paragraphs * paragraphSize) 4)) ∧
    (written.header filler ++ filling).length = written.first * paragraphSize := by
  have hfits : (written.header filler).length ≤ written.first * paragraphSize := by
    rw [length_header]
    exact le_paragraphsFor _
  refine ⟨filler.bytes (0 + (written.header filler).length)
    (written.first * paragraphSize - (written.header filler).length), ?_, ?_⟩
  · rw [bytes, padded, List.append_assoc, List.append_assoc]
  · rw [List.length_append, Filler.length_bytes]
    omega

theorem length_bytes (filler : Filler) (written : WrittenMap) :
    (written.bytes filler).length = written.paragraphs * paragraphSize + 4 := by
  obtain ⟨filling, hbytes, hheader⟩ := written.bytes_eq filler
  have hblocks := length_blocksFrom filler written.first written.segments
  rw [List.length_append] at hheader
  rw [hbytes]
  simp only [List.length_append, Filler.length_bytes]
  unfold paragraphs
  omega

end WrittenMap

end FlowDisasm.SymbolMap
