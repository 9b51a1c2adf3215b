import FlowDisasm.Proofs.Bytes.Words
import FlowDisasm.Proofs.Module.Guarded

/-!
# The record table of a file

The entries of a page table say where the records of each page start in the record table, counted from its first
byte. A table is read from a file if and only if all its entries are there, never go down and stay inside the
file; then its pages are the parts of the record table between one entry and the next.
-/
namespace FlowDisasm.Module

theorem ascending_iff {offsets : List UInt32} : ascending offsets = true ↔
    ∀ index first second, offsets[index]? = some first → offsets[index + 1]? = some second →
      first ≤ second := by
  induction offsets with
  | nil => simp [ascending]
  | cons first rest ih =>
    cases rest with
    | nil => simp [ascending]
    | cons second rest =>
      rw [ascending, Bool.and_eq_true, decide_eq_true_eq, ih]
      constructor
      · rintro ⟨hle, hrest⟩ index low high hlow hhigh
        cases index with
        | zero =>
          obtain rfl := Option.some.inj hlow
          obtain rfl := Option.some.inj hhigh
          exact hle
        | succ index => exact hrest index low high hlow hhigh
      · intro h
        exact ⟨h 0 first second rfl rfl, fun index => h (index + 1)⟩

namespace FixupTable

def entryAt? (file : Array UInt8) (headerOffset : UInt32) (header : LinearHeader) (index : Nat) :
    Option UInt32 :=
  Bytes.read? file (pageTableStart headerOffset header + 4 * index)

def recordBytes (file : Array UInt8) (headerOffset : UInt32) (header : LinearHeader)
    (start stop : UInt32) : List UInt8 :=
  (file.extract (recordTableStart headerOffset header + start.toNat)
    (recordTableStart headerOffset header + stop.toNat)).toList

/-- A file has the fixup tables that a header describes. There is one entry more than there are pages. -/
structure Present (file : Array UInt8) (headerOffset : UInt32) (header : LinearHeader) : Prop where
  entries : ∀ index ≤ header.identity.pageCount.toNat, ∃ entry,
    entryAt? file headerOffset header index = some entry
  ascending : ∀ index < header.identity.pageCount.toNat, ∀ entry next,
    entryAt? file headerOffset header index = some entry →
    entryAt? file headerOffset header (index + 1) = some next → entry ≤ next
  records : ∀ last, entryAt? file headerOffset header header.identity.pageCount.toNat = some last →
    recordTableStart headerOffset header + last.toNat ≤ file.size

variable {file : Array UInt8} {headerOffset : UInt32} {header : LinearHeader} {table : FixupTable}

/-- A row of offsets holds the entries of the page table. -/
theorem getElem?_offsets {offsets : List UInt32} {count : Nat} (hlength : offsets.length = count)
    (hrow : Bytes.range? file (pageTableStart headerOffset header) (4 * count) =
      some (offsets.flatMap Bytes.encode)) {index : Nat} (hindex : index < count) :
    offsets[index]? = entryAt? file headerOffset header index := by
  subst hlength
  rw [List.getElem?_eq_getElem hindex]
  exact ((Bytes.range?_words_iff.mp hrow).2 index _ (List.getElem?_eq_getElem hindex)).symm

/-- The offsets and the records of a table are those of its file. -/
theorem parts_of_read (h : read file headerOffset header = .ok table) :
    (∀ index ≤ header.identity.pageCount.toNat,
      table.pageOffsets[index]? = entryAt? file headerOffset header index) ∧
    ∃ last, entryAt? file headerOffset header header.identity.pageCount.toNat = some last ∧
      Bytes.range? file (recordTableStart headerOffset header) last.toNat =
        some table.records.toList := by
  obtain ⟨offsets, records, hlength, hrow, -, hrecords, rfl⟩ := read_eq_ok_iff.mp h
  have hentries {index : Nat} (hindex : index ≤ header.identity.pageCount.toNat) :
      offsets[index]? = entryAt? file headerOffset header index :=
    getElem?_offsets hlength hrow (Nat.lt_succ_of_le hindex)
  refine ⟨fun index hindex => ?_, ?_⟩
  · rw [← hentries hindex, List.getElem?_toArray]
  · have hlast := hentries (Nat.le_refl _)
    rw [List.getElem?_eq_getElem (by omega)] at hlast
    refine ⟨_, hlast.symm, ?_⟩
    rw [List.getLast?_eq_getElem?, hlength, Nat.add_sub_cancel, List.getElem?_eq_getElem (by omega)]
      at hrecords
    exact hrecords

theorem present_of_read (h : read file headerOffset header = .ok table) :
    Present file headerOffset header := by
  obtain ⟨offsets, records, hlength, hrow, hascending, -, rfl⟩ := read_eq_ok_iff.mp h
  obtain ⟨hentries, last, hlast, hrecords⟩ := parts_of_read h
  refine ⟨fun index hindex => ?_, fun index hindex entry next hentry hnext => ?_,
    fun found hfound => ?_⟩
  · rw [← hentries index hindex, List.getElem?_toArray]
    exact ⟨_, List.getElem?_eq_getElem (by omega)⟩
  · rw [← hentries index (Nat.le_of_lt hindex), List.getElem?_toArray] at hentry
    rw [← hentries (index + 1) hindex, List.getElem?_toArray] at hnext
    exact ascending_iff.mp hascending index entry next hentry hnext
  · obtain rfl := Option.some.inj (hlast.symm.trans hfound)
    exact (Bytes.range?_eq_some_iff.mp hrecords).1

theorem read_of_present (h : Present file headerOffset header) :
    ∃ table, read file headerOffset header = .ok table := by
  obtain ⟨offsets, hlength, hwords⟩ : ∃ offsets : List UInt32,
      offsets.length = header.identity.pageCount.toNat + 1 ∧
        ∀ index word, offsets[index]? = some word →
          Bytes.read? file (pageTableStart headerOffset header + 4 * index) = some word :=
    Bytes.exists_words fun index hindex => h.entries index (Nat.le_of_lt_succ hindex)
  obtain ⟨first, hfirst⟩ := h.entries 0 (Nat.zero_le _)
  have hstart : pageTableStart headerOffset header ≤ file.size := by
    have hfit := Bytes.fits_of_read? hfirst
    omega
  have hrow : Bytes.range? file (pageTableStart headerOffset header)
      (4 * (header.identity.pageCount.toNat + 1)) = some (offsets.flatMap Bytes.encode) :=
    hlength ▸ Bytes.range?_words_iff.mpr ⟨hstart, hwords⟩
  have hascending : Module.ascending offsets = true := by
    refine ascending_iff.mpr fun index entry next hentry hnext => ?_
    obtain ⟨hindex, -⟩ := List.getElem?_eq_some_iff.mp hnext
    exact h.ascending index (by omega) entry next (hwords index entry hentry)
      (hwords (index + 1) next hnext)
  obtain ⟨last, hlast⟩ : ∃ last, offsets[header.identity.pageCount.toNat]? = some last :=
    ⟨_, List.getElem?_eq_getElem (by omega)⟩
  obtain ⟨records, hrecords⟩ := Bytes.range?_isSome (h.records last (hwords _ last hlast))
  refine ⟨_, read_eq_ok_iff.mpr ⟨offsets, records, hlength, hrow, hascending, ?_, rfl⟩⟩
  rw [List.getLast?_eq_getElem?, hlength, Nat.add_sub_cancel, hlast]
  exact hrecords

/-- The records end in the file. -/
theorem end_in_file {stop : UInt32} (h : read file headerOffset header = .ok table)
    (hstop : stop.toNat ≤ table.records.size) :
    recordTableStart headerOffset header + stop.toNat ≤ file.size := by
  obtain ⟨-, last, -, hrecords⟩ := parts_of_read h
  obtain ⟨hfit, hlength, -⟩ := Bytes.range?_eq_some_iff.mp hrecords
  rw [Array.length_toList] at hlength
  omega

/-- The records from one entry up to another one are that part of the record table. -/
theorem extract_records {start stop : UInt32} (h : read file headerOffset header = .ok table)
    (hstop : stop.toNat ≤ table.records.size) :
    (table.records.extract start.toNat stop.toNat).toList =
      recordBytes file headerOffset header start stop := by
  obtain ⟨-, last, -, hrecords⟩ := parts_of_read h
  obtain ⟨hfit, hlength, -⟩ := Bytes.range?_eq_some_iff.mp hrecords
  rw [Array.length_toList] at hlength
  rw [Bytes.range?, if_pos hfit, Option.some.injEq, Array.toList_inj] at hrecords
  rw [recordBytes, ← hrecords, Array.extract_extract]
  congr 2
  omega

/-- A table cuts the records of its file into pages. Reading one succeeds exactly if the file has its entries and
its records; it has the pages that its header counts, the records of any page are a valid part of its records,
pages that do not exist have none, each page has the records from its entry up to the next one, and all pages one
after the other are the records from the first entry up to the last one. -/
theorem records_partitioned (file : Array UInt8) (headerOffset : UInt32) (header : LinearHeader) :
    ((∃ table, read file headerOffset header = .ok table) ↔ Present file headerOffset header) ∧
    ∀ table, read file headerOffset header = .ok table →
      table.pageCount = header.identity.pageCount.toNat ∧
      (∀ page, Keeps (Guarded.pageRecords table page) (.ok (table.pageRecords page).toArray)) ∧
      (∀ page, table.pageCount ≤ page → table.pageRecords page = []) ∧
      (∀ page < table.pageCount, ∃ start stop,
        entryAt? file headerOffset header page = some start ∧
        entryAt? file headerOffset header (page + 1) = some stop ∧ start ≤ stop ∧
        recordTableStart headerOffset header + stop.toNat ≤ file.size ∧
        table.pageRecords page = recordBytes file headerOffset header start stop) ∧
      ∃ first last,
        entryAt? file headerOffset header 0 = some first ∧
        entryAt? file headerOffset header table.pageCount = some last ∧ first ≤ last ∧
        recordTableStart headerOffset header + last.toNat ≤ file.size ∧
        (List.range table.pageCount).flatMap table.pageRecords =
          recordBytes file headerOffset header first last := by
  refine ⟨⟨fun ⟨table, h⟩ => present_of_read h, read_of_present⟩, fun table h => ?_⟩
  obtain ⟨hcut, -⟩ := read_eq_ok h
  obtain ⟨hentries, -⟩ := parts_of_read h
  have hpresent := present_of_read h
  have hcount := hcut.pageCount_eq
  have hoffset {index : Nat} (hindex : index ≤ table.pageCount) :
      ∃ entry, table.pageOffsets[index]? = some entry ∧
        entryAt? file headerOffset header index = some entry := by
    rw [hcount] at hindex
    obtain ⟨entry, hentry⟩ := hpresent.entries index hindex
    exact ⟨entry, (hentries index hindex).trans hentry, hentry⟩
  refine ⟨hcount, Guarded.keeps_pageRecords hcut, fun page => pageRecords_of_le, ?_, ?_⟩
  · intro page hpage
    obtain ⟨start, hstart, hentry⟩ := hoffset (Nat.le_of_lt hpage)
    obtain ⟨stop, hstop, hnext⟩ := hoffset hpage
    have hin := hcut.le_size hstop
    exact ⟨start, stop, hentry, hnext, hcut.start_le_stop (Nat.le_succ page) hstart hstop,
      end_in_file h hin, (pageRecords_eq hstart hstop).trans (extract_records h hin)⟩
  · obtain ⟨first, hfirst, hentry⟩ := hoffset (Nat.zero_le _)
    obtain ⟨last, hlast, hend⟩ := hoffset (Nat.le_refl _)
    have hin := hcut.le_size hlast
    exact ⟨first, last, hentry, hend, hcut.start_le_stop (Nat.zero_le _) hfirst hlast,
      end_in_file h hin,
      (hcut.flatMap_pageRecords hfirst (Nat.le_of_eq hcount) hlast).trans (extract_records h hin)⟩

end FixupTable

end FlowDisasm.Module
