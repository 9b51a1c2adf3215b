import FlowDisasm.Proofs.Bytes.Words
import FlowDisasm.Proofs.Module.FixupGrammar
import FlowDisasm.Proofs.Module.Relocation
import Mathlib.Algebra.Order.BigOperators.Group.List
import Mathlib.Algebra.Order.Ring.Nat

/-!
# Pages of a fixup table

A table that was read has one offset more than the module has pages. The offsets never go down, and the last one
is the length of the records, so the pages are parts of the records, one behind the other. As every record takes more
bytes than it has references, a relocation never counts up to more than the length of all records.
-/
namespace FlowDisasm.Module

theorem pairwise_of_ascending {offsets : List UInt32} (h : ascending offsets = true) :
    offsets.Pairwise (· ≤ ·) := by
  induction offsets with
  | nil => exact .nil
  | cons first rest ih =>
    cases rest with
    | nil => exact List.pairwise_singleton _ _
    | cons second rest =>
      rw [ascending, Bool.and_eq_true, decide_eq_true_eq] at h
      have hrest := ih h.2
      refine List.pairwise_cons.mpr ⟨?_, hrest⟩
      rintro offset (_ | ⟨_, hoffset⟩)
      · exact h.1
      · exact UInt32.le_trans h.1 ((List.pairwise_cons.mp hrest).1 offset hoffset)

namespace FixupTable

variable {table : FixupTable} {page : Nat} {start stop : UInt32}

/-- The records of a page are those from its offset up to the next one. -/
theorem pageRecords_eq (hstart : table.pageOffsets[page]? = some start)
    (hstop : table.pageOffsets[page + 1]? = some stop) :
    table.pageRecords page = (table.records.extract start.toNat stop.toNat).toList := by
  rw [pageRecords, pageSlice, hstart, hstop]
  rfl

/-- A page that does not exist has no records. -/
theorem pageRecords_of_le (h : table.pageCount ≤ page) : table.pageRecords page = [] := by
  have hnone : table.pageOffsets[page + 1]? = none := by
    unfold pageCount at h
    exact Array.getElem?_eq_none (by omega)
  rw [pageRecords, pageSlice, hnone]
  cases table.pageOffsets[page]? <;> rfl

/-- The offsets of a table cut its records into a number of pages. -/
structure Cut (table : FixupTable) (count : Nat) : Prop where
  size : table.pageOffsets.size = count + 1
  ascending : table.pageOffsets.toList.Pairwise (· ≤ ·)
  last : ∀ offset, table.pageOffsets.toList.getLast? = some offset →
    offset.toNat = table.records.size

namespace Cut

variable {count : Nat}

theorem pageCount_eq (h : table.Cut count) : table.pageCount = count := by
  rw [pageCount, h.size, Nat.add_sub_cancel]

/-- No page goes over the end of the records. -/
theorem le_size (h : table.Cut count) (hstart : table.pageOffsets[page]? = some start) :
    start.toNat ≤ table.records.size := by
  have hoffset : start ∈ table.pageOffsets.toList :=
    Array.mem_toList_iff.mpr (Array.mem_of_getElem? hstart)
  have hnil := List.ne_nil_of_mem hoffset
  have hlast := h.last _ (List.getLast?_eq_some_getLast hnil)
  have hascending := h.ascending
  rw [← List.dropLast_concat_getLast hnil] at hoffset hascending
  suffices hle : start ≤ table.pageOffsets.toList.getLast hnil by
    exact hlast ▸ UInt32.le_iff_toNat_le.mp hle
  rcases List.mem_append.mp hoffset with hfront | hend
  · exact (List.pairwise_append.mp hascending).2.2 start hfront _ List.mem_cons_self
  · rw [List.mem_singleton.mp hend]
    exact UInt32.le_refl _

/-- The length of the records is an offset. -/
theorem size_lt (h : table.Cut count) : table.records.size < UInt32.size := by
  have hnil : table.pageOffsets.toList ≠ [] := by
    rw [← List.length_pos_iff, Array.length_toList, h.size]
    exact Nat.succ_pos count
  rw [← h.last _ (List.getLast?_eq_some_getLast hnil)]
  exact UInt32.toNat_lt _

/-- Later pages start later. -/
theorem start_le_stop {later : Nat} (h : table.Cut count) (hlater : page ≤ later)
    (hstart : table.pageOffsets[page]? = some start) (hstop : table.pageOffsets[later]? = some stop) :
    start ≤ stop := by
  rcases Nat.eq_or_lt_of_le hlater with rfl | hlt
  · rw [Option.some.inj (hstart.symm.trans hstop)]
    exact UInt32.le_refl _
  · rw [← Array.getElem?_toList] at hstart hstop
    obtain ⟨hpage, rfl⟩ := List.getElem?_eq_some_iff.mp hstart
    obtain ⟨hnext, rfl⟩ := List.getElem?_eq_some_iff.mp hstop
    exact List.pairwise_iff_getElem.mp h.ascending page later hpage hnext hlt

/-- The pages up to some one are the records from the start of the first to the end of that one. -/
theorem flatMap_pageRecords (h : table.Cut count) (hstart : table.pageOffsets[0]? = some start)
    (hpage : page ≤ count) (hstop : table.pageOffsets[page]? = some stop) :
    (List.range page).flatMap table.pageRecords =
      (table.records.extract start.toNat stop.toNat).toList := by
  induction page generalizing stop with
  | zero =>
    obtain rfl := Option.some.inj (hstart.symm.trans hstop)
    simp
  | succ page ih =>
    obtain ⟨between, hbetween⟩ : ∃ between, table.pageOffsets[page]? = some between :=
      ⟨_, Array.getElem?_eq_getElem (by rw [h.size]; omega)⟩
    have hfront := ih (by omega) hbetween
    -- The last page starts where the pages in front of it end.
    rw [List.range_succ, List.flatMap_append, hfront, List.flatMap_singleton,
      pageRecords_eq hbetween hstop,
      ← Array.toList_append, Array.extract_append_extract]
    have hfirst := UInt32.le_iff_toNat_le.mp (h.start_le_stop (Nat.zero_le page) hstart hbetween)
    have hsecond := UInt32.le_iff_toNat_le.mp (h.start_le_stop (Nat.le_succ page) hbetween hstop)
    rw [Nat.min_eq_left hfirst, Nat.max_eq_right hsecond]

end Cut

variable {file : Array UInt8} {headerOffset : UInt32} {header : LinearHeader}

def pageTableStart (headerOffset : UInt32) (header : LinearHeader) : Nat :=
  headerOffset.toNat + header.tables.fixupPages.toNat

def recordTableStart (headerOffset : UInt32) (header : LinearHeader) : Nat :=
  headerOffset.toNat + header.tables.fixupRecords.toNat

/-- A table is read as a row of entries, and as many bytes of records as the last one says. -/
theorem read_eq_ok_iff : read file headerOffset header = .ok table ↔
    ∃ (offsets : List UInt32) (records : List UInt8),
      offsets.length = header.identity.pageCount.toNat + 1 ∧
      Bytes.range? file (pageTableStart headerOffset header)
        (4 * (header.identity.pageCount.toNat + 1)) = some (offsets.flatMap Bytes.encode) ∧
      Module.ascending offsets = true ∧
      Bytes.range? file (recordTableStart headerOffset header) (offsets.getLast?.getD 0).toNat =
        some records ∧
      table = ⟨offsets.toArray, records.toArray, header.start.pageSize⟩ := by
  unfold read
  simp only [bind, Except.bind, pure, Except.pure, throw, throwThe, MonadExceptOf.throw]
  constructor
  · intro h
    split at h
    · cases h
    split at h
    case h_2 => cases h
    rename_i offsets hoffsets
    split at h
    · cases h
    rename_i hascending
    split at h
    case h_2 => cases h
    rename_i records hrecords
    obtain ⟨hlength, hrow⟩ := Bytes.bind_repeat_eq_some_iff.mp hoffsets
    rw [Bool.not_eq_true', Bool.not_eq_false] at hascending
    exact ⟨offsets, records, hlength, hrow, hascending, hrecords, (Except.ok.inj h).symm⟩
  · rintro ⟨offsets, records, hlength, hrow, hascending, hrecords, rfl⟩
    have hfit := (Bytes.range?_eq_some_iff.mp hrow).1
    have hstart : ¬file.size < headerOffset.toNat + header.tables.fixupPages.toNat := by
      unfold pageTableStart at hfit
      omega
    have hoffsets := Bytes.bind_repeat_eq_some_iff.mpr ⟨hlength, hrow⟩
    unfold pageTableStart at hoffsets
    unfold recordTableStart at hrecords
    rw [if_neg hstart]
    change (Option.bind (Bytes.range? file _ (4 * _)) _) = _ at hoffsets
    simp only [hoffsets, hascending, hrecords, Bool.not_true, Bool.false_eq_true, if_false]

/-- Success has one cause: the offsets are in the file and never go down, and the file has as many bytes of
records as the last one says. -/
theorem read_eq_ok (h : read file headerOffset header = .ok table) :
    table.Cut header.identity.pageCount.toNat ∧ table.pageSize = header.start.pageSize := by
  obtain ⟨offsets, records, hlength, -, hascending, hrecords, rfl⟩ := read_eq_ok_iff.mp h
  refine ⟨⟨List.size_toArray.trans hlength, pairwise_of_ascending hascending, fun offset hlast => ?_⟩,
    rfl⟩
  rw [hlast] at hrecords
  exact (Bytes.length_of_range? hrecords).symm

/-! ## Counting -/

theorem length_recordsFrom_le (page position : Nat) (written : List WrittenRecord) :
    (WrittenRecord.recordsFrom position written).length +
      ((WrittenRecord.recordsFrom position written).flatMap (referencesOf page)).length ≤
        (WrittenRecord.stream written).length := by
  induction written generalizing position with
  | nil => exact Nat.le_refl 0
  | cons first rest ih =>
    have hfirst := first.length_places_lt
    have hrest := ih (position + first.bytes.length)
    simp only [WrittenRecord.recordsFrom, WrittenRecord.stream, List.flatMap_cons, List.length_cons,
      List.length_append, referencesOf, List.length_map, WrittenRecord.record] at hrest ⊢
    omega

/-- A page has no more records and references than bytes. -/
theorem length_fixups_le (table : FixupTable) (page : Nat) :
    (table.fixups page).length + ((table.fixups page).flatMap (referencesOf page)).length ≤
      (table.pageRecords page).length := by
  unfold fixups
  cases hrecords : table.recordsOf page with
  | error error => exact Nat.zero_le _
  | ok records =>
    obtain ⟨written, hstream, rfl⟩ :=
      ((FixupRecord.readAll_exact (UInt32.ofNat page) (table.pageRecords page)).1 records).mp hrecords
    rw [hstream]
    exact length_recordsFrom_le page 0 written

/-- A table has no more records and references than bytes. -/
theorem Cut.length_le {count : Nat} (h : table.Cut count) :
    table.stats.records + table.references.length ≤ table.records.size := by
  obtain ⟨start, hstart⟩ : ∃ start, table.pageOffsets[0]? = some start :=
    ⟨_, Array.getElem?_eq_getElem (by rw [h.size]; omega)⟩
  obtain ⟨stop, hstop⟩ : ∃ stop, table.pageOffsets[count]? = some stop :=
    ⟨_, Array.getElem?_eq_getElem (by rw [h.size]; omega)⟩
  have hpages := congrArg List.length (h.flatMap_pageRecords hstart (Nat.le_refl count) hstop)
  have hsum := List.sum_le_sum (fun page (_ : page ∈ List.range count) => table.length_fixups_le page)
  rw [List.sum_map_add] at hsum
  simp only [stats, references, h.pageCount_eq, List.length_flatMap, Array.length_toList,
    Array.size_extract] at hpages hsum ⊢
  omega

/-- The counters of a relocation are 32-bit numbers. -/
theorem Cut.stats_lt {count : Nat} (h : table.Cut count) (hcount : count < UInt32.size) :
    table.stats.pages < UInt32.size ∧ table.stats.records < UInt32.size ∧
      table.stats.patched < UInt32.size ∧ table.stats.relative < UInt32.size ∧
      table.stats.crossPage < UInt32.size := by
  have hlength := h.length_le
  have hsize := h.size_lt
  have hreferences (counted : Reference → Bool) :
      table.references.countP counted < UInt32.size :=
    Nat.lt_of_le_of_lt List.countP_le_length (by omega)
  have hpages : table.stats.pages ≤ count := by
    refine List.countP_le_length.trans ?_
    rw [List.length_range, h.pageCount_eq]
  exact ⟨Nat.lt_of_le_of_lt hpages hcount, by omega, hreferences _, hreferences _, hreferences _⟩

end FixupTable

end FlowDisasm.Module
