import Mathlib.Data.List.Forall2
import FlowDisasm.Proofs.Bytes.Cursor
import FlowDisasm.Proofs.Bytes.Rows
import FlowDisasm.Proofs.Guarded
import FlowDisasm.Proofs.Text.Pieces
import FlowDisasm.Proofs.Text.Plain

/-!
# Bytes read back from dumps

A line of a dump tells the address of its first byte, then its bytes in columns, then the same bytes as characters. The
columns take the same room on every line, filled or not, so that a reader finds them by the end of the address alone.
The columns of all lines spell the dumped bytes, in order and without loss. Bytes with single blanks between them are
read back piece by piece.
-/
namespace FlowDisasm

/-! ## Addresses of 64 bits -/

namespace Guarded

open Text (dumpLine dumpWidth)

/-- The lines of a dump from the one of a number on, under addresses that are sums of 64-bit numbers. The distance
from the first line is a 64-bit number wherever the sum is one. -/
def dumpLines (address : Nat) : Nat → List (List UInt8) → Guarded (List String)
  | _, [] => return []
  | number, row :: rows => do
    let start ← Host.sum address (number * dumpWidth)
    let behind ← dumpLines address (number + 1) rows
    return dumpLine start row :: behind

def hexDump (address : Nat) (bytes : List UInt8) : Guarded String := do
  let lines ← dumpLines address 0 (Bytes.rows dumpWidth bytes)
  return String.join lines

variable {address : Nat} {bytes : List UInt8}

theorem keeps_dumpLines {number : Nat} {rows : List (List UInt8)}
    (h : ∀ index < rows.length, address + (number + index) * dumpWidth < UInt64.size) :
    Keeps (dumpLines address number rows) (.ok (Text.dumpLines (address + number * dumpWidth) rows)) := by
  induction rows generalizing number with
  | nil => exact .pure _
  | cons row rows ih =>
    have hstart : address + number * dumpWidth < UInt64.size := h 0 (Nat.succ_pos _)
    have hnext : address + (number + 1) * dumpWidth = address + number * dumpWidth + dumpWidth := by
      rw [Nat.succ_mul, Nat.add_assoc]
    have hbehind : Keeps (dumpLines address (number + 1) rows)
        (.ok (Text.dumpLines (address + (number + 1) * dumpWidth) rows)) := by
      apply ih
      intro index hindex
      rw [Nat.add_assoc, Nat.add_comm 1]
      exact h (index + 1) (Nat.succ_lt_succ hindex)
    rw [hnext] at hbehind
    exact (Keeps.sum hstart).step (hbehind.step (.pure _))

/-- The addresses of a dump are 64-bit numbers if the end of the bytes is one. -/
theorem keeps_hexDump (h : address + bytes.length < UInt64.size) :
    Keeps (hexDump address bytes) (.ok (Text.hexDump address bytes)) := by
  have hlines : Keeps (dumpLines address 0 (Bytes.rows dumpWidth bytes))
      (.ok (Text.dumpLines (address + 0 * dumpWidth) (Bytes.rows dumpWidth bytes))) := by
    apply keeps_dumpLines
    intro index hindex
    rw [Bytes.rows_eq_map_range, List.length_map, List.length_range, Nat.ceilDiv_eq_add_pred_div] at hindex
    have hwidth : max dumpWidth 1 = 16 := rfl
    have hsixteen : dumpWidth = 16 := rfl
    rw [hwidth] at hindex
    rw [hsixteen]
    omega
  rw [Nat.zero_mul, Nat.add_zero] at hlines
  exact hlines.step (.pure _)

end Guarded

namespace Text

variable {address : Nat} {row bytes : List UInt8} {digits columns characters : List Char}

/-! ## Lines -/

/-- A column with a byte in small digits. -/
def IsColumn (byte : UInt8) (column : List Char) : Prop :=
  ∃ high low, column = [' ', high, low] ∧ high ∈ smallDigits ∧ low ∈ smallDigits ∧
    UInt8.ofNat (hexValue [high.toUpper, low.toUpper]) = byte

/-- A printable byte stands for itself in a dump, and a dot for any other one. -/
def StandsFor (c : Char) (byte : UInt8) : Prop :=
  if 0x20 ≤ byte.toNat ∧ byte.toNat ≤ 0x7E then c.toNat = byte.toNat else c = '.'

/-- The parts of a line with the bytes of a row at an address. -/
structure IsDumpLine (address : Nat) (row : List UInt8) (digits columns characters : List Char) : Prop where
  capital (c : Char) : c ∈ digits → c ∈ capitalDigits
  value : hexValue digits = address
  /-- There are four digits, and more only if the address does not fit into fewer. -/
  enough : 4 ≤ digits.length
  needed : digits.length ≠ 4 → 16 ^ (digits.length - 1) ≤ address
  /-- Behind a blank there is a column for each byte, and then two blanks at least. -/
  filled : ∃ shown filling, columns = ' ' :: shown.flatten ++ List.replicate (filling + 2) ' ' ∧
    List.Forall₂ IsColumn row shown
  /-- The characters are at the same distance from the end of the address on every line. -/
  distance : columns.length = 51
  standsFor : List.Forall₂ StandsFor characters row
  printable (c : Char) : c ∈ digits ++ columns ++ characters → IsPrintable c

/-- The bytes in the columns of a line: behind the address and a blank, there is room for sixteen. -/
def readLine (line : List Char) : List UInt8 :=
  match splitFirst ' ' line with
  | none => []
  | some (_, behind) => spelledBytes (((behind.take 48).filter (· ≠ ' ')).map Char.toUpper)

theorem spelledBytes_columns {shown : List (List Char)} (h : List.Forall₂ IsColumn row shown) :
    spelledBytes ((shown.flatten.filter (· ≠ ' ')).map Char.toUpper) = row := by
  induction h with
  | nil => rfl
  | @cons byte column row shown hcolumn _ ih =>
    obtain ⟨high, low, rfl, hhigh, hlow, rfl⟩ := hcolumn
    have hapart (c : Char) (hc : c ∈ smallDigits) : c ≠ ' ' := by
      rintro rfl
      exact absurd hc (by decide)
    have hfirst : ([' ', high, low].filter (· ≠ ' ')).map Char.toUpper = [high.toUpper, low.toUpper] := by
      simp [hapart high hhigh, hapart low hlow]
    rw [List.flatten_cons, List.filter_append, List.map_append, hfirst]
    exact congrArg (UInt8.ofNat (hexValue [high.toUpper, low.toUpper]) :: ·) ih

/-- A line is enough to tell its bytes. -/
theorem IsDumpLine.readLine_eq (h : IsDumpLine address row digits columns characters) :
    readLine (digits ++ columns ++ characters) = row := by
  obtain ⟨shown, filling, hcolumns, hshown⟩ := h.filled
  have hdistance := h.distance
  have hroom : (shown.flatten ++ List.replicate filling ' ').length = 48 := by
    rw [hcolumns] at hdistance
    simp only [List.length_append, List.length_cons, List.length_replicate] at hdistance ⊢
    omega
  have hdigits : ' ' ∉ digits := fun hblank => absurd (h.capital ' ' hblank) (by decide)
  have hline : digits ++ columns ++ characters =
      digits ++ ' ' :: (shown.flatten ++ List.replicate filling ' ' ++ ([' ', ' '] ++ characters)) := by
    rw [hcolumns, List.replicate_add]
    simp
  rw [readLine, hline, splitFirst_append _ _ _ hdigits]
  simp only [List.take_left' hroom, List.filter_append]
  simpa using spelledBytes_columns hshown

theorem IsDumpLine.not_mem_lineFeed (h : IsDumpLine address row digits columns characters) :
    '\n' ∉ digits ++ columns ++ characters :=
  fun hmem => absurd (h.printable '\n' hmem) (by decide)

/-! ## Lines that are written -/

def columnsOf (row : List UInt8) : List Char :=
  ' ' :: (row.map fun byte => ' ' :: smallByteDigits byte).flatten ++
    List.replicate (3 * (dumpWidth - row.length) + 2) ' '

def lineOf (address : Nat) (row : List UInt8) : List Char :=
  (hexPadded 4 address).toList ++ columnsOf row ++ row.map dumpChar

theorem toList_join_replicate (count : Nat) :
    (String.join (List.replicate count "   ")).toList = List.replicate (3 * count) ' ' := by
  induction count with
  | zero => rfl
  | succ count ih =>
    have hthree : "   ".toList = List.replicate 3 ' ' := rfl
    rw [List.replicate_succ, String.join_cons, String.toList_append, ih, hthree, List.replicate_append_replicate]
    congr 1
    omega

theorem toList_join_hexByteSmall (row : List UInt8) :
    (String.join (row.map fun byte => " " ++ hexByteSmall byte)).toList =
      (row.map fun byte => ' ' :: smallByteDigits byte).flatten := by
  induction row with
  | nil => rfl
  | cons byte row ih =>
    have hblank : " ".toList = [' '] := rfl
    rw [List.map_cons, String.join_cons, String.toList_append, String.toList_append, ih, hblank, hexByteSmall_toList]
    rfl

theorem toList_dumpLine (address : Nat) (row : List UInt8) :
    (dumpLine address row).toList = lineOf address row ++ ['\n'] := by
  have hblank : " ".toList = [' '] := rfl
  have hblanks : "  ".toList = List.replicate 2 ' ' := rfl
  have hend : "\n".toList = ['\n'] := rfl
  rw [dumpLine, lineOf, columnsOf, List.replicate_add]
  simp only [String.toList_append, toList_join_hexByteSmall, toList_join_replicate, hblank, hblanks, hend,
    String.toList_ofList, List.append_assoc, List.cons_append, List.nil_append]

theorem isColumn_smallByteDigits (byte : UInt8) : IsColumn byte (' ' :: smallByteDigits byte) := by
  obtain ⟨hquotient, hremainder⟩ := halves_lt byte
  obtain ⟨hhigh, hhighUpper⟩ := smallDigit_mem hquotient
  obtain ⟨hlow, hlowUpper⟩ := smallDigit_mem hremainder
  refine ⟨_, _, rfl, hhigh, hlow, ?_⟩
  rw [hhighUpper, hlowUpper]
  exact ofNat_hexValue_byteDigits byte

theorem standsFor_dumpChar (byte : UInt8) : StandsFor (dumpChar byte) byte := by
  have hiff : (0x20 ≤ byte && byte ≤ 0x7E) = true ↔ 0x20 ≤ byte.toNat ∧ byte.toNat ≤ 0x7E := by
    simp [UInt8.le_iff_toNat_le]
  by_cases h : 0x20 ≤ byte.toNat ∧ byte.toNat ≤ 0x7E
  · rw [StandsFor, if_pos h, dumpChar, if_pos (hiff.mpr h)]
    exact Bytes.ShortText.toNat_ofNat_byte byte
  · rw [StandsFor, if_neg h, dumpChar, if_neg (mt hiff.mp h)]

theorem StandsFor.isPrintable {c : Char} {byte : UInt8} (h : StandsFor c byte) : IsPrintable c := by
  unfold StandsFor at h
  split at h
  case isTrue hbyte =>
    rw [IsPrintable, h]
    exact hbyte
  case isFalse =>
    rw [h]
    decide

theorem isPrintable_columnsOf {c : Char} (h : c ∈ columnsOf row) : IsPrintable c := by
  have hblank : IsPrintable ' ' := by decide
  simp only [columnsOf, List.cons_append, List.mem_cons, List.mem_append, List.mem_flatten, List.mem_map,
    List.mem_replicate] at h
  rcases h with rfl | ⟨column, ⟨byte, -, rfl⟩, hc⟩ | ⟨-, rfl⟩
  · exact hblank
  · obtain ⟨high, low, hcolumn, hhigh, hlow, -⟩ := isColumn_smallByteDigits byte
    rw [hcolumn] at hc
    simp only [List.mem_cons, List.not_mem_nil, or_false] at hc
    rcases hc with rfl | rfl | rfl
    · exact hblank
    · exact isPrintable_of_mem_smallDigits hhigh
    · exact isPrintable_of_mem_smallDigits hlow
  · exact hblank

theorem length_columnsOf (h : row.length ≤ dumpWidth) : (columnsOf row).length = 51 := by
  have hdigits (byte : UInt8) : (' ' :: smallByteDigits byte).length = 3 := rfl
  have hsixteen : dumpWidth = 16 := rfl
  simp only [columnsOf, List.cons_append, List.length_cons, List.length_append, List.length_flatten, List.map_map,
    Function.comp_def, hdigits, List.map_const', List.sum_replicate_nat, List.length_replicate]
  omega

/-- A number takes more digits than it is padded to only if it does not fit into fewer. -/
theorem le_of_length_hexPadded_ne {width value : Nat} (hwidth : 0 < width)
    (h : (hexPadded width value).toList.length ≠ width) :
    16 ^ ((hexPadded width value).toList.length - 1) ≤ value := by
  rw [length_toList_hexPadded] at h ⊢
  apply Nat.le_of_not_lt
  intro hless
  have hfewer := (Nat.length_toDigits_le_iff (by decide) (by omega)).mpr hless
  omega

theorem isDumpLine_lineOf (address : Nat) (h : row.length ≤ dumpWidth) :
    IsDumpLine address row (hexPadded 4 address).toList (columnsOf row) (row.map dumpChar) where
  capital _ := mem_capitalDigits_of_mem_hexPadded
  value := hexValue_hexPadded 4 address
  enough := by
    rw [length_toList_hexPadded]
    exact Nat.le_max_left _ _
  needed := le_of_length_hexPadded_ne (by decide)
  filled := by
    refine ⟨row.map fun byte => ' ' :: smallByteDigits byte, _, rfl, ?_⟩
    rw [List.forall₂_map_right_iff, List.forall₂_same]
    exact fun byte _ => isColumn_smallByteDigits byte
  distance := length_columnsOf h
  standsFor := by
    rw [List.forall₂_map_left_iff, List.forall₂_same]
    exact fun byte _ => standsFor_dumpChar byte
  printable c hc := by
    simp only [List.mem_append, List.mem_map] at hc
    rcases hc with (hdigit | hcolumn) | ⟨byte, -, rfl⟩
    · exact printable_hexPadded 4 address c hdigit
    · exact isPrintable_columnsOf hcolumn
    · exact (standsFor_dumpChar byte).isPrintable

/-! ## Dumps -/

def lineBytes (bytes : List UInt8) (number : Nat) : List UInt8 :=
  (bytes.drop (16 * number)).take 16

/-- A text that dumps bytes from an address on, in some lines. -/
structure IsDump (address : Nat) (bytes : List UInt8) (dump : String) (lines : List (List Char)) : Prop where
  /-- A line feed stands behind each line and nowhere else. -/
  ended : pieces '\n' dump.toList = lines ++ [[]]
  count : lines.length = bytes.length ⌈/⌉ 16
  line (number : Nat) : number < lines.length → ∃ digits columns characters,
    lines[number]? = some (digits ++ columns ++ characters) ∧
      IsDumpLine (address + 16 * number) (lineBytes bytes number) digits columns characters
  /-- The columns of all lines give the bytes back. -/
  read : lines.flatMap readLine = bytes

theorem dumpLines_eq_mapIdx (address : Nat) (rows : List (List UInt8)) :
    dumpLines address rows = rows.mapIdx fun number row => dumpLine (address + 16 * number) row := by
  induction rows generalizing address with
  | nil => rfl
  | cons row rows ih =>
    have hwidth : dumpWidth = 16 := rfl
    rw [dumpLines, ih, List.mapIdx_cons, hwidth]
    simp only [Nat.mul_zero, Nat.add_zero, Nat.mul_succ, Nat.add_assoc, Nat.add_comm 16]

theorem rows_eq_lineBytes (bytes : List UInt8) :
    Bytes.rows dumpWidth bytes = (List.range (bytes.length ⌈/⌉ 16)).map (lineBytes bytes) := by
  have hwidth : max dumpWidth 1 = 16 := rfl
  rw [Bytes.rows_eq_map_range, hwidth]
  apply List.map_congr_left
  intro number _
  rw [lineBytes, Nat.mul_comm]

theorem flatMap_lineBytes (bytes : List UInt8) :
    (List.range (bytes.length ⌈/⌉ 16)).flatMap (lineBytes bytes) = bytes := by
  rw [List.flatMap_def, ← rows_eq_lineBytes, Bytes.flatten_rows]

theorem toList_hexDump (address : Nat) (bytes : List UInt8) :
    (hexDump address bytes).toList = ((List.range (bytes.length ⌈/⌉ 16)).map fun number =>
      lineOf (address + 16 * number) (lineBytes bytes number)).flatMap (· ++ ['\n']) := by
  have hlines : dumpLines address (Bytes.rows dumpWidth bytes) =
      (List.range (bytes.length ⌈/⌉ 16)).map fun number =>
        dumpLine (address + 16 * number) (lineBytes bytes number) := by
    rw [dumpLines_eq_mapIdx, rows_eq_lineBytes]
    apply List.ext_getElem <;> simp
  rw [hexDump, hlines, String.toList_join, List.flatMap_map, List.flatMap_map]
  simp only [toList_dumpLine]

theorem exists_isDump (address : Nat) (bytes : List UInt8) :
    ∃ lines, IsDump address bytes (hexDump address bytes) lines := by
  have hline (number : Nat) : IsDumpLine (address + 16 * number) (lineBytes bytes number)
      (hexPadded 4 (address + 16 * number)).toList (columnsOf (lineBytes bytes number))
      ((lineBytes bytes number).map dumpChar) :=
    isDumpLine_lineOf _ (List.length_take_le _ _)
  refine ⟨(List.range (bytes.length ⌈/⌉ 16)).map fun number =>
    lineOf (address + 16 * number) (lineBytes bytes number), ?_⟩
  constructor
  case ended =>
    rw [toList_hexDump]
    apply pieces_ended
    intro line hmem
    obtain ⟨number, -, rfl⟩ := List.mem_map.mp hmem
    exact (hline number).not_mem_lineFeed
  case count => rw [List.length_map, List.length_range]
  case line =>
    intro number hnumber
    rw [List.length_map, List.length_range] at hnumber
    refine ⟨_, _, _, ?_, hline number⟩
    rw [List.getElem?_map, List.getElem?_range hnumber]
    rfl
  case read =>
    rw [List.flatMap_map]
    conv_rhs => rw [← flatMap_lineBytes bytes]
    apply List.flatMap_congr
    intro number _
    exact (hline number).readLine_eq

/-! ## Bytes apart -/

/-- A text that spells bytes with a blank between each two of them. -/
structure IsSpaced (bytes : List UInt8) (text : String) : Prop where
  capital (piece : List Char) : piece ∈ pieces ' ' text.toList →
    piece.length = 2 ∧ ∀ c ∈ piece, c ∈ capitalDigits
  /-- The pieces between the blanks give the bytes back. -/
  read : (pieces ' ' text.toList).map (fun piece => UInt8.ofNat (hexValue piece)) = bytes

theorem pieces_spacedBytes (h : bytes ≠ []) : pieces ' ' (spacedBytes bytes).toList = bytes.map byteDigits := by
  have hblank : " ".toList = [' '] := rfl
  have htexts : (bytes.map hexByte).map String.toList = bytes.map byteDigits := by
    simp [hexByte_toList]
  rw [spacedBytes, String.toList_intercalate, hblank, htexts]
  apply pieces_intercalate
  · simpa using h
  · intro piece hpiece hmem
    obtain ⟨byte, -, rfl⟩ := List.mem_map.mp hpiece
    exact absurd (mem_capitalDigits_of_mem_byteDigits hmem) (by decide)

theorem isSpaced_spacedBytes (h : bytes ≠ []) : IsSpaced bytes (spacedBytes bytes) where
  capital piece hpiece := by
    rw [pieces_spacedBytes h] at hpiece
    obtain ⟨byte, -, rfl⟩ := List.mem_map.mp hpiece
    exact ⟨rfl, fun _ => mem_capitalDigits_of_mem_byteDigits⟩
  read := by
    rw [pieces_spacedBytes h, List.map_map]
    apply List.map_id''
    exact ofNat_hexValue_byteDigits

/-! ## Dumps of all bytes -/

/-- Bytes that end at a 64-bit address are dumped under 64-bit addresses, on a line for each sixteen of them that are
begun, and the lines give the bytes back. The pieces of a text with blanks between bytes give them back as well, unless
there are none. -/
theorem dumps_faithful (address : Nat) (bytes : List UInt8) (h : address + bytes.length < UInt64.size) :
    Keeps (Guarded.hexDump address bytes) (.ok (hexDump address bytes)) ∧
      (∃ lines, IsDump address bytes (hexDump address bytes) lines) ∧
      (bytes ≠ [] → IsSpaced bytes (spacedBytes bytes)) :=
  ⟨Guarded.keeps_hexDump h, exists_isDump address bytes, isSpaced_spacedBytes⟩

/-- Line feeds up to the last address but one do not break the two lines that they are dumped on. -/
theorem dumps_faithful_lineFeeds :
    0xFFFFFFFFFFFFFFE0 + (List.replicate 31 0x0A).length < UInt64.size ∧ List.replicate 31 (0x0A : UInt8) ≠ [] ∧
      Keeps (Guarded.hexDump 0xFFFFFFFFFFFFFFE0 (List.replicate 31 0x0A))
        (.ok (hexDump 0xFFFFFFFFFFFFFFE0 (List.replicate 31 0x0A))) ∧
      (∃ first second, IsDump 0xFFFFFFFFFFFFFFE0 (List.replicate 31 0x0A)
        (hexDump 0xFFFFFFFFFFFFFFE0 (List.replicate 31 0x0A)) [first, second]) ∧
      IsSpaced (List.replicate 31 0x0A) (spacedBytes (List.replicate 31 0x0A)) := by
  have hend : 0xFFFFFFFFFFFFFFE0 + (List.replicate 31 (0x0A : UInt8)).length < UInt64.size := by decide
  have hbytes : List.replicate 31 (0x0A : UInt8) ≠ [] := by decide
  obtain ⟨hkeeps, ⟨lines, hdump⟩, hspaced⟩ := dumps_faithful 0xFFFFFFFFFFFFFFE0 (List.replicate 31 0x0A) hend
  have htwo : lines.length = 2 := hdump.count.trans (by decide)
  obtain ⟨first, second, rfl⟩ := List.length_eq_two.mp htwo
  exact ⟨hend, hbytes, hkeeps, ⟨first, second, hdump⟩, hspaced hbytes⟩

example : hexDump 0xFFF8 [0x07, 0x00, 0x41, 0x7F] =
    "FFF8  07 00 41 7f" ++ String.ofList (List.replicate 36 ' ') ++ "  ..A.\n" := by
  decide +kernel

end Text

end FlowDisasm
