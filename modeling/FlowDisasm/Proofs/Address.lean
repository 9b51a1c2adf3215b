import Mathlib.Data.Nat.Digits.Defs
import Mathlib.Order.Bounds.Basic
import FlowDisasm.Address
import FlowDisasm.Proofs.Exploration.History
import FlowDisasm.Proofs.Text.Hex

/-!
# Addresses in listings

The segment of an address in 32-bit code is the greatest number of a start at or below the offset, where starts are
numbered from one in the order of registration. It does not decrease from an offset to a later one. If the starts are
registered in order, it counts those at or below the offset. Different offsets are shown as different addresses.
-/
namespace FlowDisasm

/-! ## Numbers of segments -/

/-- The numbers of the starts at or below an offset, counted from one. -/
def startNumbers (starts : List UInt32) (offset : UInt32) : Set Nat :=
  {number | ∃ index start, number = index + 1 ∧ starts[index]? = some start ∧ start ≤ offset}

variable {starts : List UInt32} {start offset other : UInt32} {number : Nat}

theorem le_length_of_mem_startNumbers (h : number ∈ startNumbers starts offset) : number ≤ starts.length := by
  obtain ⟨index, start, rfl, hstart, -⟩ := h
  exact (List.getElem?_eq_some_iff.mp hstart).1

theorem mem_startNumbers_concat : number ∈ startNumbers (starts ++ [start]) offset ↔
    number ∈ startNumbers starts offset ∨ number = starts.length + 1 ∧ start ≤ offset := by
  simp only [startNumbers, Set.mem_ofPred_eq, List.getElem?_append, List.getElem?_singleton]
  constructor
  · rintro ⟨index, found, rfl, hfound, hle⟩
    split at hfound
    · exact .inl ⟨index, found, rfl, hfound, hle⟩
    · split at hfound
      · obtain rfl := Option.some.inj hfound
        exact .inr ⟨by omega, hle⟩
      · cases hfound
  · rintro (⟨index, found, rfl, hfound, hle⟩ | ⟨rfl, hle⟩)
    · have hindex : index < starts.length := (List.getElem?_eq_some_iff.mp hfound).1
      exact ⟨index, found, rfl, by rwa [if_pos hindex], hle⟩
    · exact ⟨starts.length, start, rfl, by simp, hle⟩

/-- Only starts at or below an offset are at or below a later one. -/
theorem startNumbers_mono (h : offset ≤ other) : startNumbers starts offset ⊆ startNumbers starts other := by
  rintro number ⟨index, start, rfl, hstart, hle⟩
  exact ⟨index, start, rfl, hstart, UInt32.le_trans hle h⟩

/-- The last start is looked at last. -/
theorem lastStart_concat (before : Nat) (found : UInt16) : lastStart offset before found (starts ++ [start]) =
    if start ≤ offset then UInt16.ofNat (before + starts.length + 1)
    else lastStart offset before found starts := by
  induction starts generalizing before found with
  | nil => rfl
  | cons first starts ih =>
    rw [List.cons_append, lastStart, ih, lastStart, List.length_cons, Nat.add_right_comm before, Nat.add_assoc before]

/-- The number of the last start at or below an offset is the greatest of all such numbers. -/
theorem isGreatest_lastStart (hlength : starts.length ≤ 65535) :
    IsGreatest (insert 0 (startNumbers starts offset)) (lastStart offset 0 0 starts).toNat := by
  induction starts using List.reverseRecOn with
  | nil => simp [lastStart, startNumbers]
  | append_singleton starts start ih =>
    rw [List.length_append, List.length_singleton] at hlength
    rw [lastStart_concat]
    by_cases hle : start ≤ offset
    · have hnumber : (UInt16.ofNat (0 + starts.length + 1)).toNat = starts.length + 1 := by
        rw [Nat.zero_add, UInt16.toNat_ofNat_of_lt' (Nat.lt_succ_of_le hlength)]
      rw [if_pos hle, hnumber]
      refine ⟨.inr (mem_startNumbers_concat.mpr (.inr ⟨rfl, hle⟩)), ?_⟩
      rintro number (rfl | hnumber)
      · exact Nat.zero_le _
      · simpa using le_length_of_mem_startNumbers hnumber
    · have hsame : startNumbers (starts ++ [start]) offset = startNumbers starts offset := by
        ext number
        simp [mem_startNumbers_concat, hle]
      rw [if_neg hle, hsame]
      exact ih (by omega)

/-- In order, a start is at or below an offset if and only if its number is not greater than the last one that is. -/
theorem le_iff_lt_lastStart (hlength : starts.length ≤ 65535) (hsorted : starts.Pairwise (· ≤ ·)) {index : Nat}
    (hstart : starts[index]? = some start) : start ≤ offset ↔ index < (lastStart offset 0 0 starts).toNat := by
  obtain ⟨hmem, hupper⟩ : IsGreatest (insert 0 (startNumbers starts offset)) (lastStart offset 0 0 starts).toNat :=
    isGreatest_lastStart hlength
  constructor
  · exact fun hle => hupper (.inr ⟨index, start, rfl, hstart, hle⟩)
  · intro hless
    obtain hzero | ⟨last, found, hlast, hfound, hle⟩ := hmem
    · omega
    · obtain ⟨hindex, rfl⟩ := List.getElem?_eq_some_iff.mp hstart
      obtain ⟨hlastindex, rfl⟩ := List.getElem?_eq_some_iff.mp hfound
      have hbefore : index ≤ last := by omega
      exact UInt32.le_trans (hsorted.rel_get_of_le (Fin.mk_le_mk.mpr hbefore)) hle

/-- In order, the last start at or below an offset has all others at or below it in front of it. -/
theorem lastStart_eq_countP (hlength : starts.length ≤ 65535) (hsorted : starts.Pairwise (· ≤ ·)) :
    (lastStart offset 0 0 starts).toNat = starts.countP (· ≤ offset) := by
  induction starts using List.reverseRecOn with
  | nil => rfl
  | append_singleton starts start ih =>
    rw [List.length_append, List.length_singleton] at hlength
    obtain ⟨hfront, -, hlast⟩ := List.pairwise_append.mp hsorted
    rw [lastStart_concat, List.countP_append]
    by_cases hle : start ≤ offset
    · have hall : starts.countP (· ≤ offset) = starts.length := by
        rw [List.countP_eq_length]
        exact fun first hfirst => decide_eq_true (UInt32.le_trans (hlast first hfirst start (by simp)) hle)
      rw [if_pos hle, hall, Nat.zero_add, UInt16.toNat_ofNat_of_lt' (Nat.lt_succ_of_le hlength)]
      simp [hle]
    · rw [if_neg hle, ih (by omega) hfront]
      simp [hle]

/-! ## Addresses -/

/-- A number that fits takes exactly the digits that it is padded to. -/
theorem Text.length_hexPadded {width value : Nat} (hpos : 0 < width) (h : value < 16 ^ width) :
    (hexPadded width value).length = width := by
  have hdigits : (Nat.toDigits 16 value).length ≤ width := (Nat.length_toDigits_le_iff (by decide) hpos).mpr h
  rw [← String.length_toList, length_toList_hexPadded, Nat.max_eq_left hdigits]

namespace SegmentedAddress

/-- A later offset is shown in the same segment or in a later one. -/
theorem segment_mono (hlength : starts.length ≤ 65535) (h : offset ≤ other) :
    (of starts offset .bits32).segment ≤ (of starts other .bits32).segment := by
  have hsubset : insert 0 (startNumbers starts offset) ⊆ insert 0 (startNumbers starts other) :=
    Set.insert_subset_insert (startNumbers_mono h)
  exact (isGreatest_lastStart hlength).mono (isGreatest_lastStart hlength) hsubset

/-- How many offsets there are in a segment. -/
def room : X86.Width → Nat
  | .bits16 => 0x10000
  | .bits32 => 0x100000000

variable {first second : SegmentedAddress}

theorem eq_iff_parts : first = second ↔ first.segment.toNat = second.segment.toNat ∧
    first.offset.toNat = second.offset.toNat ∧ first.width = second.width := by
  rw [UInt16.toNat_inj, UInt32.toNat_inj]
  constructor
  · rintro rfl
    exact ⟨rfl, rfl, rfl⟩
  · obtain ⟨segment, offset, width⟩ := first
    rintro ⟨rfl, rfl, rfl⟩
    rfl

/-- An offset in a segment takes just the digits that it is padded to. -/
theorem length_offset_of_lt (h : first.offset.toNat < room first.width) :
    (Text.hexPadded (2 * first.width.bytes) first.offset.toNat).length = 2 * first.width.bytes := by
  have hdigits (width : X86.Width) : 0 < 2 * width.bytes ∧ room width = 16 ^ (2 * width.bytes) := by
    cases width <;> decide
  obtain ⟨hpos, hroom⟩ := hdigits first.width
  exact Text.length_hexPadded hpos (Nat.lt_of_lt_of_eq h hroom)

theorem length_text (h : first.offset.toNat < room first.width) : first.text.length = 5 + 2 * first.width.bytes := by
  have hsegment : (Text.hexPadded 4 first.segment.toNat).length = 4 :=
    Text.length_hexPadded (by decide) (Nat.lt_of_lt_of_eq first.segment.toNat_lt (by decide))
  have hcolon : ":".length = 1 := by decide
  rw [text, String.length_append, String.length_append, hsegment, hcolon, length_offset_of_lt h]

/-- Both parts of an address can be told from its text. -/
theorem text_eq_iff (hwidth : first.width = second.width) (hfirst : first.offset.toNat < room first.width)
    (hsecond : second.offset.toNat < room second.width) : first.text = second.text ↔ first = second := by
  constructor
  · intro h
    have hlength : (Text.hexPadded (2 * first.width.bytes) first.offset.toNat).toList.length =
        (Text.hexPadded (2 * second.width.bytes) second.offset.toNat).toList.length := by
      rw [String.length_toList, String.length_toList, length_offset_of_lt hfirst, length_offset_of_lt hsecond, hwidth]
    rw [text, text] at h
    simp only [← String.toList_inj, String.toList_append] at h
    obtain ⟨hfront, hoffset⟩ := List.append_inj' h hlength
    rw [hwidth, String.toList_inj] at hoffset
    have hsegment := String.toList_inj.mp (List.append_cancel_right hfront)
    rw [eq_iff_parts]
    exact ⟨Text.hexPadded_injective hsegment, Text.hexPadded_injective hoffset, hwidth⟩
  · intro h
    rw [h]

theorem text_bits32 (starts : List UInt32) (offset : UInt32) : (of starts offset .bits32).text =
    Text.hexPadded 4 (of starts offset .bits32).segment.toNat ++ ":" ++ Text.hexPadded 8 offset.toNat :=
  rfl

theorem length_offset (offset : UInt32) : (Text.hexPadded 8 offset.toNat).length = 8 := by
  have hfits : 2 ^ 32 = 16 ^ 8 := by decide
  exact Text.length_hexPadded (by decide) (Nat.lt_of_lt_of_eq offset.toNat_lt hfits)

/-- In eight digits the whole offset is shown. -/
theorem text_injective (h : (of starts offset .bits32).text = (of starts other .bits32).text) : offset = other := by
  have hwidth : (of starts offset .bits32).width = (of starts other .bits32).width := rfl
  have hsame := (text_eq_iff hwidth offset.toNat_lt other.toNat_lt).mp h
  exact congrArg SegmentedAddress.offset hsame

end SegmentedAddress

/-! ## Explorations -/

/-- How offsets in 32-bit code are shown. -/
structure ShowsSegments (starts : List UInt32) (address : UInt32 → SegmentedAddress) : Prop where
  /-- The segment is the greatest number of a start at or below the offset, and zero if there is none. -/
  greatest (offset : UInt32) : IsGreatest (insert 0 (startNumbers starts offset)) (address offset).segment.toNat
  monotone (offset other : UInt32) : offset ≤ other → (address offset).segment ≤ (address other).segment
  /-- Of starts that are registered in order, the segment counts those at or below the offset. -/
  counts (offset : UInt32) : starts.Pairwise (· ≤ ·) →
    (address offset).segment.toNat = starts.countP (· ≤ offset)
  /-- So the offset is not below the start of its segment, and it is below the next one. -/
  between (offset : UInt32) (index : Nat) (start : UInt32) : starts.Pairwise (· ≤ ·) → starts[index]? = some start →
    (start ≤ offset ↔ index < (address offset).segment.toNat)
  /-- The offset is shown as it is, in eight digits. -/
  text (offset : UInt32) : (address offset).text =
      Text.hexPadded 4 (address offset).segment.toNat ++ ":" ++ Text.hexPadded 8 offset.toNat ∧
    (Text.hexPadded 8 offset.toNat).length = 8 ∧ Text.hexValue (Text.hexPadded 8 offset.toNat).toList = offset.toNat
  injective (offset other : UInt32) : (address offset).text = (address other).text → offset = other

/-- In 32-bit code, offsets are shown in the segments that a history registers. -/
theorem address_exact (subject : Subject) (history : List Request) (mode : Mode) (hwidth : mode.width = .bits32)
    (hlength : (Session.starts history).length ≤ 65535) : ShowsSegments (Session.starts history)
      fun offset => (Session.run subject history).state.address offset mode := by
  simp only [Exploration.address, Session.run_segmentStarts, hwidth]
  exact ⟨fun _ => isGreatest_lastStart hlength, fun _ _ => SegmentedAddress.segment_mono hlength,
    fun _ => lastStart_eq_countP hlength, fun _ _ _ hsorted => le_iff_lt_lastStart hlength hsorted,
    fun offset => ⟨SegmentedAddress.text_bits32 _ offset, SegmentedAddress.length_offset offset,
      Text.hexValue_hexPadded 8 offset.toNat⟩,
    fun _ _ => SegmentedAddress.text_injective⟩

/-- Two starts that are registered in order, and an offset behind both. -/
theorem second_segment_shown : (Session.starts [.segment 0x80001000, .segment 0x80003000]).length ≤ 65535 ∧
    ((Session.run ⟨⟨0, ⟨#[]⟩⟩, .i80386, none⟩ [.segment 0x80001000, .segment 0x80003000]).state.address 0x80003004
      .protected32).segment.toNat = 2 := by
  refine ⟨by decide, ?_⟩
  exact (address_exact _ [.segment 0x80001000, .segment 0x80003000] .protected32 rfl (by decide)).counts 0x80003004
    (by decide)

end FlowDisasm
