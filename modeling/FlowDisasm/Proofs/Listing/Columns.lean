import FlowDisasm.Proofs.Listing.Lossless
import FlowDisasm.Proofs.RealMode
import FlowDisasm.Proofs.Text.Plain

/-!
# Columns of instructions

An instruction takes as many rows as its bytes fill. Each row shows the address of its first byte, in a column of its
own, and its bytes in hexadecimal. The last row is filled up as if its bytes were all there, so the text behind it
begins in the same column for every instruction of a listing.
-/
namespace FlowDisasm

namespace Text

/-- Lines that are put between texts end all texts but the last one. -/
theorem intercalate_concat (separator : String) (texts : List String) (last : String) :
    separator.intercalate (texts ++ [last]) = String.join (texts.map (· ++ separator)) ++ last := by
  induction texts with
  | nil => simp
  | cons first texts ih =>
    rw [List.cons_append, String.intercalate_cons_of_ne_nil (by simp), ih, List.map_cons, String.join_cons]
    simp only [String.append_assoc]

end Text

namespace Listing.Code

variable {code : Code} {length : Nat}

/-! ## Rows -/

def rowBytes (code : Code) (length row : Nat) : List UInt8 :=
  (code.bytes.drop (row * length)).take length

/-- The address of the first byte of a row, which stays in the segment of the instruction. -/
def rowAddress (code : Code) (length row : Nat) : String :=
  Text.hexPadded 4 code.address.segment.toNat ++ ":" ++
    Text.hexPadded (2 * code.address.width.bytes)
      ((code.address.offset.toNat + row * length) % SegmentedAddress.room code.address.width)

/-- A row from its address to its last byte. -/
def row (code : Code) (length row : Nat) : String :=
  Text.aligned .left 22 (code.rowAddress length row) ++ " " ++ Text.joinedBytes (code.rowBytes length row)

theorem rowText_rowBytes (code : Code) (length row : Nat) :
    code.rowText (row * length) (code.rowBytes length row) = code.row length row := by
  rw [rowText, SegmentedAddress.text_advance, Code.row, rowAddress, addressColumn]

/-- The rows of an instruction are those that its bytes fill. -/
theorem rowTexts_eq_map_range (code : Code) (hlength : 0 < length) :
    code.rowTexts length 0 (Bytes.rows length code.bytes) =
      (List.range (code.bytes.length ⌈/⌉ length)).map (code.row length) := by
  rw [rowTexts_eq_mapIdx, Bytes.rows_eq_map_range, Nat.max_eq_left hlength]
  apply List.ext_getElem
  · simp only [List.length_mapIdx, List.length_map]
  · intro row hrow hmap
    simp only [List.getElem_mapIdx, List.getElem_map, List.getElem_range, Nat.zero_add]
    exact code.rowText_rowBytes length row

theorem length_rowAddress_le (code : Code) (length row : Nat) : (code.rowAddress length row).length ≤ 22 := by
  have hbytes (width : X86.Width) : 5 + 2 * width.bytes ≤ 22 := by cases width <;> decide
  have hlength := SegmentedAddress.length_text
    (code.address.toNat_offset_advance_lt (UInt32.ofNat (row * length)))
  rw [rowAddress, ← SegmentedAddress.text_advance, hlength]
  exact hbytes code.address.width

theorem length_row (code : Code) (length row : Nat) :
    (code.row length row).length = 23 + 2 * (code.rowBytes length row).length := by
  have haddress := code.length_rowAddress_le length row
  rw [Code.row, String.length_append, String.length_append, Text.length_aligned, Text.length_joinedBytes,
    Nat.max_eq_left haddress]
  rfl

theorem printable_row (code : Code) (length row : Nat) : Text.Printable (code.row length row) := by
  have hcolon : Text.Printable ":" := by decide
  have hblank : Text.Printable " " := by decide
  simp [Code.row, rowAddress, hcolon, hblank]

/-! ## The last row -/

theorem length_rowBytes (code : Code) (length row : Nat) :
    (code.rowBytes length row).length = min length (code.bytes.length - row * length) := by
  rw [rowBytes, List.length_take, List.length_drop]

/-- There is a last row, which the bytes reach but do not go beyond. -/
theorem exists_last (hbytes : code.bytes ≠ []) (hlength : 0 < length) :
    ∃ last, code.bytes.length ⌈/⌉ length = last + 1 ∧ last * length < code.bytes.length ∧
      code.bytes.length ≤ (last + 1) * length := by
  have hcount (count : Nat) : code.bytes.length ⌈/⌉ length ≤ count ↔ code.bytes.length ≤ count * length := by
    rw [ceilDiv_le_iff_le_mul hlength, Nat.mul_comm]
  have hpos : 0 < code.bytes.length := List.length_pos_iff.mpr hbytes
  obtain ⟨last, hlast⟩ : ∃ last, code.bytes.length ⌈/⌉ length = last + 1 := by
    apply Nat.exists_eq_succ_of_ne_zero
    intro hzero
    have hnone := (hcount 0).mp hzero.le
    omega
  have hbefore := hcount last
  have hbehind := hcount (last + 1)
  exact ⟨last, hlast, by omega, by omega⟩

/-- The last row is filled up with two blanks for each byte that it has less than a full one. -/
theorem filling_eq {last : Nat} (hreach : last * length < code.bytes.length)
    (hend : code.bytes.length ≤ (last + 1) * length) :
    code.filling length = Text.blanks (2 * (length - (code.rowBytes length last).length)) := by
  rw [Nat.succ_mul] at hend
  obtain ⟨rest, hrest⟩ : ∃ rest, code.bytes.length = rest + last * length :=
    ⟨code.bytes.length - last * length, by omega⟩
  have hlength : (code.rowBytes length last).length = rest := by
    rw [length_rowBytes]
    omega
  have hused : code.bytes.length % length = rest % length := by
    rw [hrest, Nat.add_mul_mod_self_right]
  rw [filling, hused, hlength]
  by_cases hfull : rest = length
  · rw [hfull, Nat.mod_self, Nat.sub_self]
    rfl
  · have hrestless : rest % length = rest := Nat.mod_eq_of_lt (by omega)
    have hpos : rest ≠ 0 := by omega
    simp only [hrestless, hpos, if_false]

/-- What it means that an instruction stands in rows of a length, with its text behind the last one. -/
structure InRows (code : Code) (length last : Nat) (front : String) : Prop where
  count : code.bytes.length ⌈/⌉ length = last + 1
  /-- All rows but the last one are lines of their own, and the text stands in the line of the last one. -/
  rendered : code.rendered length = String.join ((List.range last).map fun row => code.row length row ++ "\n") ++
    front ++ code.text ++ code.annotation ++ "\n"
  /-- What stands in front of the text is the last row and blanks, one at least. -/
  filled : ∃ filling, front = code.row length last ++ Text.blanks (filling + 1)
  /-- The text begins in the same column, however many bytes there are. -/
  column : front.length = 24 + 2 * length
  bytes : ((List.range (last + 1)).map (code.rowBytes length)).flatten = code.bytes
  full (row : Nat) : row < last → (code.rowBytes length row).length = length
  rest : 0 < (code.rowBytes length last).length ∧ (code.rowBytes length last).length ≤ length
  /-- Addresses fit into their column. -/
  addresses (row : Nat) : (Text.aligned .left 22 (code.rowAddress length row)).length = 22
  /-- The bytes are in the row, two digits each. -/
  shown (row : Nat) :
    Text.spelledBytes (Text.joinedBytes (code.rowBytes length row)).toList = code.rowBytes length row
  /-- No row has a tab or breaks its line. -/
  printable (row : Nat) : Text.Printable (code.row length row)

theorem flatten_rowBytes (code : Code) (hlength : 0 < length) :
    ((List.range (code.bytes.length ⌈/⌉ length)).map (code.rowBytes length)).flatten = code.bytes := by
  have hrows : Bytes.rows length code.bytes =
      (List.range (code.bytes.length ⌈/⌉ length)).map (code.rowBytes length) := by
    rw [Bytes.rows_eq_map_range, Nat.max_eq_left hlength]
    rfl
  rw [← hrows, Bytes.flatten_rows]

theorem exists_inRows (hbytes : code.bytes ≠ []) (hlength : 0 < length) :
    ∃ last front, code.InRows length last front := by
  obtain ⟨last, hcount, hreach, hend⟩ := exists_last hbytes hlength
  have hfilling := filling_eq hreach hend
  have hless : (code.rowBytes length last).length ≤ length := by
    rw [length_rowBytes]
    exact Nat.min_le_left _ _
  refine ⟨last, code.row length last ++ code.filling length ++ " ", ?_⟩
  constructor
  case count => exact hcount
  case rendered =>
    rw [rendered, rowTexts_eq_map_range code hlength, hcount, List.range_succ, List.map_append, List.map_singleton,
      Text.intercalate_concat, List.map_map]
    simp only [String.append_assoc, Function.comp_def]
  case filled =>
    have hblank : " " = Text.blanks 1 := by decide
    refine ⟨2 * (length - (code.rowBytes length last).length), ?_⟩
    rw [hfilling, hblank, String.append_assoc, Text.blanks_append]
  case column =>
    have hblank : " ".length = 1 := by decide
    rw [String.length_append, String.length_append, length_row, hfilling, Text.length_blanks, hblank]
    omega
  case bytes =>
    rw [← hcount]
    exact code.flatten_rowBytes hlength
  case full =>
    intro row hrow
    rw [length_rowBytes]
    have hmul : (row + 1) * length ≤ last * length := Nat.mul_le_mul_right length hrow
    rw [Nat.succ_mul] at hmul
    omega
  case rest =>
    rw [length_rowBytes]
    omega
  case addresses =>
    intro row
    rw [Text.length_aligned, Nat.max_eq_left (code.length_rowAddress_le length row)]
  case shown => exact fun row => Text.spelledBytes_joinedBytes _
  case printable => exact code.printable_row length

end Listing.Code

namespace Listing

/-- Every instruction of a listing, with the data behind it or without any, stands in rows that are as long as the
layout has them, under addresses in the segment that it is in; its text begins in the same column as that of any other. -/
theorem codeOf_in_rows (layout : Layout) (subject : Subject) (state : Exploration) (offset : UInt32) (visit : Visit)
    (code : Code) (h : codeOf subject state offset visit = .ok code) :
    ∃ instruction last front,
      X86.decode subject.cpu subject.image offset visit.mode.width = .ok instruction ∧
      code.address = .of state.segmentStarts offset visit.mode.width ∧
      code.text = instruction.text (instruction.target?.bind state.labelFor) ∧
      (subject.trailing? instruction visit.mode = none ∧ code.bytes = instruction.bytes ∨
        ∃ count data, subject.trailing? instruction visit.mode = some count ∧
          subject.image.read instruction.next.toNat count.toNat = .ok data ∧
          code.bytes = instruction.bytes ++ data) ∧
      Item.text layout (.code code) = code.rendered (max layout.bytesPerRow 1) ∧
      code.InRows (max layout.bytesPerRow 1) last front := by
  obtain ⟨instruction, hdecode, haddress, htext, hbytes⟩ := codeOf_eq_ok h
  have hpos : 0 < instruction.bytes.length := (X86.decode_bytes hdecode).1
  have hnonempty : code.bytes ≠ [] := by
    rw [← List.length_pos_iff]
    rcases hbytes with ⟨-, hbytes, -⟩ | ⟨count, data, -, -, hbytes, -⟩
    · rwa [hbytes]
    · rw [hbytes, List.length_append]
      exact Nat.add_pos_left hpos _
  obtain ⟨last, front, hrows⟩ := Code.exists_inRows hnonempty (Nat.le_max_right layout.bytesPerRow 1)
  refine ⟨instruction, last, front, hdecode, haddress, htext, ?_, rfl, hrows⟩
  rcases hbytes with ⟨hnone, hbytes, -⟩ | ⟨count, data, hcount, hdata, hbytes, -⟩
  · exact .inl ⟨hnone, hbytes⟩
  · exact .inr ⟨count, data, hcount, hdata, hbytes⟩

/-- A call with four bytes of data behind it, in rows of three: the last one is full. -/
theorem codeOf_in_rows_calling : ∃ code last front,
    codeOf Session.calling (Session.run Session.calling Session.callingHistory).state 0x80001000 ⟨.protected32, true⟩ =
      .ok code ∧
    code.bytes.length = 6 ∧ code.InRows 3 last front := by
  have hread : (codeOf Session.calling (Session.run Session.calling Session.callingHistory).state 0x80001000
      ⟨.protected32, true⟩).toOption.map (fun code => code.bytes.length) = some 6 := by
    decide +kernel
  obtain ⟨code, hcode, hlength⟩ := exists_of_facts hread
  obtain ⟨instruction, last, front, -, -, -, -, -, hrows⟩ := codeOf_in_rows { bytesPerRow := 3 } Session.calling
    (Session.run Session.calling Session.callingHistory).state 0x80001000 ⟨.protected32, true⟩ code hcode
  exact ⟨code, last, front, hcode, hlength, hrows⟩

end Listing

end FlowDisasm
