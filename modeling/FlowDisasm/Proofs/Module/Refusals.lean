import FlowDisasm.Proofs.Module.RecordTable
import FlowDisasm.Proofs.Module.RefusedRelocation

/-!
# Why loading fails

A file is refused for the first thing that does not fit: its own size, its headers, the place of its pages and of its
start object, its object table, its fixup tables, and last its fixups. All but the fixups are looked at before anything
is relocated. A fixup table that starts outside of the file is damage, and so is one whose entries go down. An object
table that is not wholly in the file is read out of bounds, and so is a fixup page table that starts in the file and is
cut off by its end. There is no other error.
-/
namespace FlowDisasm

open FlowDisasm.Module

namespace Module

open Bytes (Layout)
open Bytes.Layout (Accepts)

variable {file : Array UInt8} {headerOffset : UInt32} {header : LinearHeader}

theorem DosHeader.layout_accepts : DosHeader.layout.Accepts DosHeader.size := by
  unfold layout
  repeat refine Accepts.field_bind (by decide) fun _ => ?_
  exact .pure _

theorem ObjectEntry.layout_accepts : ObjectEntry.layout.Accepts ObjectEntry.size := by
  unfold layout
  repeat refine Accepts.field_bind (by decide) fun _ => ?_
  exact .pure _

/-- The parts of a linear header take 24, 24, 16, 64, 44 and 24 bytes. -/
theorem LinearHeader.layout_accepts : LinearHeader.layout.Accepts LinearHeader.size := by
  have hidentity : Identity.layout.Accepts 24 := by
    unfold Identity.layout
    repeat refine Accepts.field_bind (by decide) fun _ => ?_
    exact .pure _
  have hstart : Start.layout.Accepts 24 := by
    unfold Start.layout
    repeat refine Accepts.field_bind (by decide) fun _ => ?_
    exact .pure _
  have hsections : Sections.layout.Accepts 16 := by
    unfold Sections.layout
    repeat refine Accepts.field_bind (by decide) fun _ => ?_
    exact .pure _
  have htables : Tables.layout.Accepts 64 := by
    unfold Tables.layout
    repeat refine Accepts.field_bind (by decide) fun _ => ?_
    exact .pure _
  have hcontents : Contents.layout.Accepts 44 := by
    unfold Contents.layout
    repeat refine Accepts.field_bind (by decide) fun _ => ?_
    exact .pure _
  have hdevice : Device.layout.Accepts 24 := by
    unfold Device.layout
    repeat refine Accepts.field_bind (by decide) fun _ => ?_
    exact .pure _
  exact hidentity.bind fun _ => hstart.bind fun _ => hsections.bind fun _ => htables.bind fun _ =>
    hcontents.bind fun _ => hdevice.bind fun _ => .pure _

/-! ## Reading headers and tables -/

/-- A header starts with its signature. -/
theorem DosHeader.layout_magic {bytes rest : List UInt8} {header : DosHeader}
    (h : layout bytes = some (header, rest)) :
    ∃ behind, bytes = Bytes.encode header.magic ++ behind := by
  simp only [layout, Layout.bind_eq_some_iff, Layout.pure_eq_some_iff, Bytes.field_eq_some_iff] at h
  grind

/-- A file that is large enough fails to give a DOS header only for its signature. -/
theorem DosHeader.read_eq_error_iff {error : Error} (hlarge : Executable.minFileSize ≤ file.size) :
    DosHeader.read file = .error error ↔
      ∃ magic, Bytes.read? file 0 = some magic ∧ magic ≠ signature ∧
        error = .malformed (.dosSignature magic) := by
  have hfits : 0 + size ≤ file.size := by
    unfold Executable.minFileSize at hlarge
    unfold size
    omega
  obtain ⟨header, hheader⟩ := layout_accepts.read?_isSome_iff.mpr hfits
  have hmagic : Bytes.read? file 0 = some header.magic := by
    obtain ⟨bytes, hbytes, hread⟩ := Option.bind_eq_some_iff.mp hheader
    obtain ⟨⟨_, rest⟩, hlayout, rfl⟩ := Option.map_eq_some_iff.mp hread
    obtain ⟨behind, rfl⟩ := layout_magic hlayout
    have hparts : Bytes.range? file 0 (Bytes.Word.width UInt16 + 26) = _ := hbytes
    exact Bytes.read?_eq_some_iff.mpr ((Bytes.range?_append (Bytes.length_encode _)).mp hparts).1
  rw [read, hheader, hmagic]
  by_cases hsignature : header.magic = signature
  · simp [hsignature]
  · simp only [hsignature, if_false, Except.error.injEq, Option.some.injEq]
    constructor
    · rintro rfl
      exact ⟨header.magic, rfl, hsignature, rfl⟩
    · rintro ⟨magic, rfl, -, rfl⟩
      rfl

theorem DosHeader.nextHeader_eq_ok (hlarge : Executable.minFileSize ≤ file.size) :
    ∃ offset, DosHeader.nextHeader file = .ok offset := by
  have hfits : nextHeaderField + Bytes.Word.width UInt32 ≤ file.size := Nat.le_trans (by decide) hlarge
  obtain ⟨bytes, hbytes⟩ := Bytes.range?_isSome hfits
  rw [nextHeader, Bytes.read?, hbytes]
  exact ⟨_, rfl⟩

/-- A linear header whose signature was found is read. -/
theorem LinearHeader.read_eq_ok {offset : Nat} (h : Executable.hasLinearHeader file offset = true) :
    ∃ header, LinearHeader.read file offset = .ok header := by
  rw [Executable.hasLinearHeader, Bool.and_eq_true, decide_eq_true_eq, beq_iff_eq] at h
  obtain ⟨hfits, hsignature⟩ := h
  obtain ⟨bytes, hbytes⟩ := Bytes.range?_isSome hfits.le
  obtain ⟨header, hheader⟩ := layout_accepts.read?_isSome_iff.mpr hfits.le
  rw [hbytes, Option.bind_some] at hheader
  rw [read, hbytes, hsignature]
  simp only [if_true, hheader]
  exact ⟨header, rfl⟩

/-- Reading an object table has one cause to fail. -/
theorem ObjectEntry.readTable_eq_error_iff {offset count : Nat} {error : Error} :
    readTable file offset count = .error error ↔
      file.size < offset + size * count ∧ error = .outOfBounds := by
  have hsome : (∃ entries, (Bytes.range? file offset (size * count)).bind
      (layout.repeat count).read? = some entries) ↔ offset + size * count ≤ file.size :=
    (layout_accepts.entries count).read?_isSome_iff
  unfold readTable
  dsimp only
  split
  · rename_i entries hentries
    have hfits := hsome.mp ⟨entries, hentries⟩
    simp only [reduceCtorEq, false_iff]
    omega
  · rename_i hnone
    have hnot : ¬offset + size * count ≤ file.size := by
      rw [← hsome]
      rintro ⟨entries, hentries⟩
      rw [hnone] at hentries
      cases hentries
    rw [Except.error.injEq]
    exact ⟨fun h => ⟨by omega, h.symm⟩, fun h => h.2.symm⟩

namespace FixupTable

/-- Where the page table ends: there is one entry more than there are pages. -/
def pageTableEnd (headerOffset : UInt32) (header : LinearHeader) : Nat :=
  pageTableStart headerOffset header + 4 * (header.identity.pageCount.toNat + 1)

/-- What is wrong with the fixup tables that a header describes. -/
inductive Damaged (file : Array UInt8) (headerOffset : UInt32) (header : LinearHeader) : Damage → Prop
  | pageTable (behind : file.size < pageTableStart headerOffset header) :
      Damaged file headerOffset header (.pageTable (pageTableStart headerOffset header))
  | pageTableOrder {page : Nat} {entry next : UInt32}
      (fits : pageTableEnd headerOffset header ≤ file.size)
      (isPage : page < header.identity.pageCount.toNat)
      (entry_eq : entryAt? file headerOffset header page = some entry)
      (next_eq : entryAt? file headerOffset header (page + 1) = some next) (down : next < entry) :
      Damaged file headerOffset header .pageTableOrder
  | recordTable {last : UInt32}
      (ascending : ∀ page < header.identity.pageCount.toNat, ∀ entry next,
        entryAt? file headerOffset header page = some entry →
        entryAt? file headerOffset header (page + 1) = some next → entry ≤ next)
      (last_eq : entryAt? file headerOffset header header.identity.pageCount.toNat = some last)
      (behind : file.size < recordTableStart headerOffset header + last.toNat) :
      Damaged file headerOffset header
        (.recordTable (recordTableStart headerOffset header) last.toNat)

/-- A page table starts in the file and runs past its end. -/
def PageTableCut (file : Array UInt8) (headerOffset : UInt32) (header : LinearHeader) : Prop :=
  pageTableStart headerOffset header ≤ file.size ∧ file.size < pageTableEnd headerOffset header

/-- The entries of a page table that is wholly in the file. -/
theorem exists_row (h : pageTableEnd headerOffset header ≤ file.size) :
    ∃ offsets : List UInt32, offsets.length = header.identity.pageCount.toNat + 1 ∧
      Bytes.range? file (pageTableStart headerOffset header)
        (4 * (header.identity.pageCount.toNat + 1)) = some (offsets.flatMap Bytes.encode) := by
  have hfits : pageTableStart headerOffset header +
      Bytes.Word.width UInt32 * (header.identity.pageCount.toNat + 1) ≤ file.size := h
  obtain ⟨offsets, hoffsets⟩ := (Accepts.field.entries _).read?_isSome_iff.mpr hfits
  exact ⟨offsets, Bytes.bind_repeat_eq_some_iff.mp hoffsets⟩

theorem read_of_row {offsets : List UInt32}
    (hlength : offsets.length = header.identity.pageCount.toNat + 1)
    (hrow : Bytes.range? file (pageTableStart headerOffset header)
      (4 * (header.identity.pageCount.toNat + 1)) = some (offsets.flatMap Bytes.encode)) :
    read file headerOffset header =
      if ascending offsets = true then
        match Bytes.range? file (recordTableStart headerOffset header)
            (offsets.getLast?.getD 0).toNat with
        | some records => .ok ⟨offsets.toArray, records.toArray, header.start.pageSize⟩
        | none => .error (.malformed (.recordTable (recordTableStart headerOffset header)
            (offsets.getLast?.getD 0).toNat))
      else .error (.malformed .pageTableOrder) := by
  have hfits := (Bytes.range?_eq_some_iff.mp hrow).1
  have hstart : ¬file.size < headerOffset.toNat + header.tables.fixupPages.toNat := by
    unfold pageTableStart at hfits
    omega
  have hoffsets := Bytes.bind_repeat_eq_some_iff.mpr ⟨hlength, hrow⟩
  unfold pageTableStart at hoffsets
  change (Option.bind (Bytes.range? file _ (4 * _)) _) = _ at hoffsets
  unfold read
  simp only [hstart, hoffsets, if_false, ok_bind, pure_eq_ok, throw_eq_error]
  by_cases hascending : ascending offsets = true
  · simp only [hascending, Bool.not_true, Bool.false_eq_true, if_false, if_true]
    rfl
  · simp only [hascending, Bool.not_false, if_true]
    rfl

theorem read_of_behind (h : file.size < pageTableStart headerOffset header) :
    read file headerOffset header =
      .error (.malformed (.pageTable (pageTableStart headerOffset header))) := by
  unfold pageTableStart at h ⊢
  unfold read
  simp only [h, if_true, throw_eq_error, error_bind]

theorem read_of_cut (h : PageTableCut file headerOffset header) :
    read file headerOffset header = .error .outOfBounds := by
  obtain ⟨hstarts, hends⟩ := h
  have hnone : Bytes.range? file (headerOffset.toNat + header.tables.fixupPages.toNat)
      (4 * (header.identity.pageCount.toNat + 1)) = none :=
    (Bytes.range?_eq_none_iff _ _ _).mpr hends
  unfold pageTableStart at hstarts
  unfold read
  simp only [Nat.not_lt.mpr hstarts, hnone, if_false, Option.bind_none, throw_eq_error, pure_eq_ok,
    error_bind]

/-- The last entry stands at the end of the page table. -/
theorem end_le_of_entryAt? {last : UInt32}
    (h : entryAt? file headerOffset header header.identity.pageCount.toNat = some last) :
    pageTableEnd headerOffset header ≤ file.size := by
  have hfits : _ + 4 ≤ file.size := Bytes.fits_of_read? h
  unfold pageTableEnd
  omega

theorem read_of_damaged {damage : Damage} (h : Damaged file headerOffset header damage) :
    read file headerOffset header = .error (.malformed damage) := by
  cases h with
  | pageTable behind => exact read_of_behind behind
  | @pageTableOrder page entry next fits isPage entry_eq next_eq down =>
    obtain ⟨offsets, hlength, hrow⟩ := exists_row fits
    have hnot : ¬ascending offsets = true := by
      rw [ascending_iff]
      intro hascending
      have hle := hascending page entry next
        ((getElem?_offsets hlength hrow (by omega)).trans entry_eq)
        ((getElem?_offsets hlength hrow (by omega)).trans next_eq)
      exact UInt32.not_lt.mpr hle down
    rw [read_of_row hlength hrow, if_neg hnot]
  | @recordTable last ascending last_eq behind =>
    obtain ⟨offsets, hlength, hrow⟩ := exists_row (end_le_of_entryAt? last_eq)
    have hentries {index : Nat} (hindex : index ≤ header.identity.pageCount.toNat) :
        offsets[index]? = entryAt? file headerOffset header index :=
      getElem?_offsets hlength hrow (by omega)
    have hascending : Module.ascending offsets = true := by
      refine ascending_iff.mpr fun index entry next hentry hnext => ?_
      obtain ⟨hindex, -⟩ := List.getElem?_eq_some_iff.mp hnext
      exact ascending index (by omega) entry next ((hentries (by omega)).symm.trans hentry)
        ((hentries (by omega)).symm.trans hnext)
    have hlast : offsets.getLast?.getD 0 = last := by
      rw [List.getLast?_eq_getElem?, hlength, Nat.add_sub_cancel, hentries (Nat.le_refl _), last_eq]
      rfl
    rw [read_of_row hlength hrow, if_pos hascending, hlast,
      (Bytes.range?_eq_none_iff _ _ _).mpr behind]

/-- Fixup tables are refused for a damage, or for a page table that the file cuts off. -/
theorem read_eq_error {error : Error} (h : read file headerOffset header = .error error) :
    (∃ damage, Damaged file headerOffset header damage ∧ error = .malformed damage) ∨
      (PageTableCut file headerOffset header ∧ error = .outOfBounds) := by
  rcases Nat.lt_or_ge file.size (pageTableStart headerOffset header) with hbehind | hstarts
  · obtain rfl := Except.error.inj ((read_of_behind hbehind).symm.trans h)
    exact .inl ⟨_, .pageTable hbehind, rfl⟩
  rcases Nat.lt_or_ge file.size (pageTableEnd headerOffset header) with hends | hfits
  · obtain rfl := Except.error.inj ((read_of_cut ⟨hstarts, hends⟩).symm.trans h)
    exact .inr ⟨⟨hstarts, hends⟩, rfl⟩
  obtain ⟨offsets, hlength, hrow⟩ := exists_row hfits
  have hentries {index : Nat} (hindex : index ≤ header.identity.pageCount.toNat) :
      offsets[index]? = entryAt? file headerOffset header index :=
    getElem?_offsets hlength hrow (by omega)
  rw [read_of_row hlength hrow] at h
  split at h
  · rename_i hascending
    obtain ⟨last, hlast⟩ : ∃ last, offsets[header.identity.pageCount.toNat]? = some last :=
      ⟨_, List.getElem?_eq_getElem (by omega)⟩
    rw [List.getLast?_eq_getElem?, hlength, Nat.add_sub_cancel, hlast, Option.getD_some] at h
    split at h
    · cases h
    · rename_i hnone
      obtain rfl := Except.error.inj h
      refine .inl ⟨_, .recordTable (fun page hpage entry next hentry hnext => ?_) ?_ ?_, rfl⟩
      · rw [← hentries (by omega)] at hentry hnext
        exact ascending_iff.mp hascending page entry next hentry hnext
      · rw [← hentries (Nat.le_refl _), hlast]
      · exact (Bytes.range?_eq_none_iff _ _ _).mp hnone
  · rename_i hnot
    obtain rfl := Except.error.inj h
    simp only [ascending_iff, not_forall] at hnot
    obtain ⟨page, entry, next, hentry, hnext, hdown⟩ := hnot
    obtain ⟨hpage, -⟩ := List.getElem?_eq_some_iff.mp hnext
    exact .inl ⟨_, .pageTableOrder hfits (by omega) ((hentries (by omega)).symm.trans hentry)
      ((hentries (by omega)).symm.trans hnext) (UInt32.not_le.mp hdown), rfl⟩

end FixupTable

/-- A file that is large enough and has a DOS header which leads to a linear header. -/
structure Headed (file : Array UInt8) (headerOffset : UInt32) (header : LinearHeader) : Prop where
  large : Executable.minFileSize ≤ file.size
  dos : ∃ dos, DosHeader.read file = .ok dos ∧ DosHeader.size + dos.headerSize < file.size
  headerOffset_eq : DosHeader.nextHeader file = .ok headerOffset
  present : Executable.hasLinearHeader file headerOffset.toNat = true
  header_eq : LinearHeader.read file headerOffset.toNat = .ok header

def objectTableEnd (headerOffset : UInt32) (header : LinearHeader) : Nat :=
  headerOffset.toNat + header.tables.objects.toNat
    + ObjectEntry.size * header.tables.objectCount.toNat

/-- A file with headers whose pages start in the file and whose start object is one of its objects. -/
structure Placed (file : Array UInt8) (headerOffset : UInt32) (header : LinearHeader) : Prop
    extends Headed file headerOffset header where
  dataPages : header.contents.dataPages.toNat ≤ file.size
  startObject : ¬(header.start.codeObject = 0 ∨ header.tables.objectCount < header.start.codeObject)

end Module

namespace Executable

/-- What is wrong with a file that no executable is made of: the first thing that does not fit. -/
inductive Damaged (file : Array UInt8) : Damage → Prop
  | fileTooSmall (small : file.size < minFileSize) : Damaged file (.fileTooSmall file.size)
  | dosSignature {magic : UInt16} (large : minFileSize ≤ file.size)
      (magic_eq : Bytes.read? file 0 = some magic) (other : magic ≠ DosHeader.signature) :
      Damaged file (.dosSignature magic)
  | dosHeader {dos : DosHeader} (large : minFileSize ≤ file.size)
      (dos_eq : DosHeader.read file = .ok dos)
      (nothing : file.size ≤ DosHeader.size + dos.headerSize) : Damaged file .dosHeader
  | dataPages {headerOffset : UInt32} {header : LinearHeader}
      (headed : Headed file headerOffset header)
      (behind : file.size < header.contents.dataPages.toNat) :
      Damaged file (.dataPages header.contents.dataPages)
  | startObject {headerOffset : UInt32} {header : LinearHeader}
      (headed : Headed file headerOffset header)
      (pages : header.contents.dataPages.toNat ≤ file.size)
      (missing : header.start.codeObject = 0 ∨ header.tables.objectCount < header.start.codeObject) :
      Damaged file (.startObject header.start.codeObject header.tables.objectCount)
  | fixupTables {headerOffset : UInt32} {header : LinearHeader} {damage : Damage}
      (placed : Placed file headerOffset header)
      (objects : objectTableEnd headerOffset header ≤ file.size)
      (damaged : FixupTable.Damaged file headerOffset header damage) : Damaged file damage

/-- A table runs past the end of its file: that of the objects, wherever it starts, or that of the fixup pages, which
starts in the file. -/
inductive TableCut (file : Array UInt8) : Prop
  | objects {headerOffset : UInt32} {header : LinearHeader} (placed : Placed file headerOffset header)
      (cut : file.size < objectTableEnd headerOffset header)
  | fixupPages {headerOffset : UInt32} {header : LinearHeader}
      (placed : Placed file headerOffset header)
      (objects : objectTableEnd headerOffset header ≤ file.size)
      (cut : FixupTable.PageTableCut file headerOffset header)

end Executable

variable {file : Array UInt8} {headerOffset : UInt32} {header : LinearHeader} {error : Error}

/-- A file with a linear header tells what is read there. -/
theorem Module.Headed.read_eq (h : Headed file headerOffset header) :
    ∃ dos, Outline.read file = (LinearOutline.read file dos headerOffset).map .linear := by
  obtain ⟨dos, hdos, hbehind⟩ := h.dos
  refine ⟨dos, ?_⟩
  unfold Outline.read Outline.find
  simp only [Nat.not_lt.mpr h.large, hdos, Nat.not_le.mpr hbehind, h.headerOffset_eq, h.present,
    require_eq_ok, sum_eq_ok, ofExcept_eq, LinearOutline.find_eq, if_false, if_true, ok_bind, pure_eq_ok]
  cases LinearOutline.read file dos headerOffset <;> rfl

theorem Module.Headed.readLinear_of_behind (h : Headed file headerOffset header) {dos : DosHeader}
    (behind : file.size < header.contents.dataPages.toNat) :
    LinearOutline.read file dos headerOffset =
      .error (.malformed (.dataPages header.contents.dataPages)) := by
  unfold LinearOutline.read LinearOutline.find
  simp [h.header_eq, behind]

theorem Module.Headed.readLinear_of_missing (h : Headed file headerOffset header) {dos : DosHeader}
    (pages : header.contents.dataPages.toNat ≤ file.size)
    (missing : header.start.codeObject = 0 ∨ header.tables.objectCount < header.start.codeObject) :
    LinearOutline.read file dos headerOffset =
      .error (.malformed (.startObject header.start.codeObject header.tables.objectCount)) := by
  unfold LinearOutline.read LinearOutline.find
  simp [h.header_eq, Nat.not_lt.mpr pages, missing]

theorem Module.Placed.readLinear_eq (h : Placed file headerOffset header) (dos : DosHeader) :
    LinearOutline.read file dos headerOffset =
      (ObjectEntry.readTable file (headerOffset.toNat + header.tables.objects.toNat)
          header.tables.objectCount.toNat >>= fun objects =>
        FixupTable.read file headerOffset header >>= fun fixups =>
        .ok { dos, headerOffset, header, objects, fixups }) := by
  unfold LinearOutline.read LinearOutline.find
  simp [h.header_eq, Nat.not_lt.mpr h.dataPages, h.startObject]

theorem Module.Placed.objects_of_fits (h : objectTableEnd headerOffset header ≤ file.size) :
    ∃ objects, ObjectEntry.readTable file (headerOffset.toNat + header.tables.objects.toNat)
      header.tables.objectCount.toNat = .ok objects := by
  cases hobjects : ObjectEntry.readTable file (headerOffset.toNat + header.tables.objects.toNat)
      header.tables.objectCount.toNat with
  | ok objects => exact ⟨objects, rfl⟩
  | error error =>
    obtain ⟨hcut, -⟩ := ObjectEntry.readTable_eq_error_iff.mp hobjects
    unfold objectTableEnd at h
    omega

namespace Outline

theorem read_of_damaged {damage : Damage} (h : Executable.Damaged file damage) :
    Outline.read file = .error (.malformed damage) := by
  cases h with
  | fileTooSmall small =>
    unfold Outline.read Outline.find
    simp [small]
  | dosSignature large magic_eq other =>
    have hdos := (DosHeader.read_eq_error_iff large).mpr ⟨_, magic_eq, other, rfl⟩
    unfold Outline.read Outline.find
    simp [Nat.not_lt.mpr large, hdos]
  | dosHeader large dos_eq nothing =>
    unfold Outline.read Outline.find
    simp [Nat.not_lt.mpr large, dos_eq, nothing]
  | dataPages headed behind =>
    obtain ⟨dos, hread⟩ := headed.read_eq
    rw [hread, headed.readLinear_of_behind behind]
    rfl
  | startObject headed pages missing =>
    obtain ⟨dos, hread⟩ := headed.read_eq
    rw [hread, headed.readLinear_of_missing pages missing]
    rfl
  | fixupTables placed objects damaged =>
    obtain ⟨dos, hread⟩ := placed.read_eq
    obtain ⟨entries, hentries⟩ := Placed.objects_of_fits objects
    rw [hread, placed.readLinear_eq, hentries, ok_bind, FixupTable.read_of_damaged damaged]
    rfl

theorem read_of_cut (h : Executable.TableCut file) : Outline.read file = .error .outOfBounds := by
  cases h with
  | objects placed cut =>
    obtain ⟨dos, hread⟩ := placed.read_eq
    rw [hread, placed.readLinear_eq, ObjectEntry.readTable_eq_error_iff.mpr ⟨cut, rfl⟩]
    rfl
  | fixupPages placed objects cut =>
    obtain ⟨dos, hread⟩ := placed.read_eq
    obtain ⟨entries, hentries⟩ := Placed.objects_of_fits objects
    rw [hread, placed.readLinear_eq, hentries, ok_bind, FixupTable.read_of_cut cut]
    rfl

/-- A linear header is read for a module unless something is damaged or cut off. -/
theorem readLinear_eq_error {dos : DosHeader} (headed : Headed file headerOffset header)
    (h : LinearOutline.read file dos headerOffset = .error error) :
    (∃ damage, Executable.Damaged file damage ∧ error = .malformed damage) ∨
      (Executable.TableCut file ∧ error = .outOfBounds) := by
  rcases Nat.lt_or_ge file.size header.contents.dataPages.toNat with hbehind | hpages
  · rw [headed.readLinear_of_behind hbehind] at h
    exact .inl ⟨_, .dataPages headed hbehind, (Except.error.inj h).symm⟩
  by_cases hmissing :
      header.start.codeObject = 0 ∨ header.tables.objectCount < header.start.codeObject
  · rw [headed.readLinear_of_missing hpages hmissing] at h
    exact .inl ⟨_, .startObject headed hpages hmissing, (Except.error.inj h).symm⟩
  have placed : Placed file headerOffset header := ⟨headed, hpages, hmissing⟩
  rw [placed.readLinear_eq] at h
  rcases Nat.lt_or_ge file.size (objectTableEnd headerOffset header) with hcut | hobjects
  · rw [ObjectEntry.readTable_eq_error_iff.mpr ⟨hcut, rfl⟩] at h
    exact .inr ⟨.objects placed hcut, (Except.error.inj h).symm⟩
  obtain ⟨entries, hentries⟩ := Placed.objects_of_fits hobjects
  rw [hentries, ok_bind] at h
  cases hfixups : FixupTable.read file headerOffset header with
  | ok fixups =>
    rw [hfixups] at h
    cases h
  | error failure =>
    rw [hfixups] at h
    obtain rfl := Except.error.inj h
    rcases FixupTable.read_eq_error hfixups with ⟨damage, hdamaged, rfl⟩ | ⟨hcut, rfl⟩
    · exact .inl ⟨damage, .fixupTables placed hobjects hdamaged, rfl⟩
    · exact .inr ⟨.fixupPages placed hobjects hcut, rfl⟩

/-- A file tells nothing if something is damaged or cut off, and only then. -/
theorem read_eq_error (h : Outline.read file = .error error) :
    (∃ damage, Executable.Damaged file damage ∧ error = .malformed damage) ∨
      (Executable.TableCut file ∧ error = .outOfBounds) := by
  rcases Nat.lt_or_ge file.size Executable.minFileSize with hsmall | hlarge
  · obtain rfl := Except.error.inj ((read_of_damaged (.fileTooSmall hsmall)).symm.trans h)
    exact .inl ⟨_, .fileTooSmall hsmall, rfl⟩
  cases hdos : DosHeader.read file with
  | error failure =>
    obtain ⟨magic, hmagic, hother, rfl⟩ := (DosHeader.read_eq_error_iff hlarge).mp hdos
    have hdamaged : Executable.Damaged file (.dosSignature magic) := .dosSignature hlarge hmagic hother
    exact .inl ⟨_, hdamaged, (Except.error.inj ((read_of_damaged hdamaged).symm.trans h)).symm⟩
  | ok dos =>
    rcases Nat.lt_or_ge (DosHeader.size + dos.headerSize) file.size with hbehind | hnothing
    · obtain ⟨headerOffset, hnext⟩ := DosHeader.nextHeader_eq_ok hlarge
      by_cases hlinear : Executable.hasLinearHeader file headerOffset.toNat = true
      · obtain ⟨header, hheader⟩ := LinearHeader.read_eq_ok hlinear
        have headed : Headed file headerOffset header :=
          ⟨hlarge, ⟨dos, hdos, hbehind⟩, hnext, hlinear, hheader⟩
        obtain ⟨other, hread⟩ := headed.read_eq
        rw [hread] at h
        cases hfound : LinearOutline.read file other headerOffset with
        | ok found =>
          rw [hfound] at h
          cases h
        | error failure =>
          rw [hfound] at h
          obtain rfl := Except.error.inj h
          exact readLinear_eq_error headed hfound
      · unfold Outline.read Outline.find at h
        simp [Nat.not_lt.mpr hlarge, hdos, Nat.not_le.mpr hbehind, hnext, hlinear] at h
    · have hdamaged : Executable.Damaged file .dosHeader := .dosHeader hlarge hdos hnothing
      exact .inl ⟨_, hdamaged, (Except.error.inj ((read_of_damaged hdamaged).symm.trans h)).symm⟩

end Outline

/-- How the fixups of a module fail: at a page and a record of it, behind pages that are all well formed. -/
def LinearOutline.FailsWith (found : LinearOutline) (file : Array UInt8) (error : Error) : Prop :=
  ∃ (page : UInt32) (position : Nat) (fault : FixupFault) (gone : List Reference),
    error = .fixup page position fault
      (((found.fixups.pageRecords page.toNat).drop position).take 16) ∧
    page.toNat < found.fixups.pageCount ∧
    (∀ earlier < page.toNat, ∃ records, found.fixups.recordsOf earlier = .ok records) ∧
    found.fixups.StopsAt (found.pages file).size page.toNat position fault gone

theorem LinearOutline.load_eq_error {found : LinearOutline} {base : UInt32}
    (hsound : found.Sound file) (h : found.load file base = .error error) :
    found.FailsWith file error := by
  have hfailed : (found.fixups.relocate (found.pages file) base).value.1 = .error error := by
    cases hresult : (found.fixups.relocate (found.pages file) base).value.1 with
    | error failure => rw [Except.error.inj ((load_of_error hresult).symm.trans h)]
    | ok relocation =>
      simp only [load, hresult, Except.map] at h
      cases h
  rw [FixupTable.relocate_value] at hfailed
  rcases hended : Relocation.outcome (Relocation.applyAll found.fixups base)
    { image := found.pages file } with ⟨result, after⟩
  rw [hended] at hfailed
  obtain rfl : result = .error error := hfailed
  obtain ⟨page, hpage, position, fault, gone, rfl, hearlier, hstops, -⟩ :=
    FixupTable.outcome_applyAll_error hended
  have hnumber : (UInt32.ofNat page).toNat = page := by
    obtain ⟨hcut, -⟩ := FixupTable.read_eq_ok hsound.fixups
    rw [hcut.pageCount_eq] at hpage
    exact UInt32.toNat_ofNat_of_lt (hpage.trans (UInt32.toNat_lt _))
  refine ⟨UInt32.ofNat page, position, fault, gone, ?_⟩
  rw [hnumber]
  exact ⟨rfl, hpage, hearlier, hstops⟩

namespace Executable

variable {base : UInt32}

theorem parse_of_read_error (h : Outline.read file = .error error) :
    (parse file base).value = .error error := by
  rw [value_parse, h, error_bind]

theorem parse_eq_error (h : (parse file base).value = .error error) :
    (∃ damage, Damaged file damage ∧ error = .malformed damage) ∨
      (TableCut file ∧ error = .outOfBounds) ∨
      ∃ found, Outline.read file = .ok (.linear found) ∧ found.FailsWith file error := by
  rw [value_parse] at h
  cases hread : Outline.read file with
  | error failure =>
    rw [hread, error_bind] at h
    obtain rfl := Except.error.inj h
    rcases Outline.read_eq_error hread with hdamaged | hcut
    · exact .inl hdamaged
    · exact .inr (.inl hcut)
  | ok outline =>
    rw [hread, ok_bind] at h
    rcases Outline.read_eq_ok hread with ⟨found, rfl, hsound⟩ | ⟨dos, -, rfl, -⟩
    · exact .inr (.inr ⟨found, rfl, LinearOutline.load_eq_error hsound h⟩)
    · cases h

/-- Every error of loading has its cause in the file. Loading fails for a damage exactly if the file has it, for an
access out of bounds exactly if one of two tables is cut off by the end of the file, and otherwise only for the fixups of
a module of which all headers and tables were read: then it tells the page and the position of a record that cannot be
read or applied, and it does so whenever not all fixups can be. -/
theorem parse_refusals (file : Array UInt8) (base : UInt32) :
    (∀ damage, (parse file base).value = .error (.malformed damage) ↔ Damaged file damage) ∧
    ((parse file base).value = .error .outOfBounds ↔ TableCut file) ∧
    (∀ found, Outline.read file = .ok (.linear found) →
      ¬found.fixups.Relocatable (found.pages file).size →
      ∃ error, (parse file base).value = .error error ∧ found.FailsWith file error) ∧
    ∀ error, (parse file base).value = .error error →
      (∃ damage, error = .malformed damage) ∨ error = .outOfBounds ∨
      ∃ found, Outline.read file = .ok (.linear found) ∧ found.FailsWith file error := by
  refine ⟨fun damage => ⟨fun h => ?_, fun h => parse_of_read_error (Outline.read_of_damaged h)⟩,
    ⟨fun h => ?_, fun h => parse_of_read_error (Outline.read_of_cut h)⟩, fun found hread hnot => ?_,
    fun error h => ?_⟩
  · rcases parse_eq_error h with ⟨found, hdamaged, hsame⟩ | ⟨-, hsame⟩ | ⟨_, -, _, _, _, _, hsame, -⟩
    · rwa [Error.malformed.inj hsame]
    · cases hsame
    · cases hsame
  · rcases parse_eq_error h with ⟨_, -, hsame⟩ | ⟨hcut, -⟩ | ⟨_, -, _, _, _, _, hsame, -⟩
    · cases hsame
    · exact hcut
    · cases hsame
  · obtain ⟨error, herror⟩ := FixupTable.relocate_of_not_relocatable base hnot
    have hparse : (parse file base).value = .error error := by
      rw [value_parse, hread, ok_bind]
      exact LinearOutline.load_of_error herror
    rcases Outline.read_eq_ok hread with ⟨other, hsame, hsound⟩ | ⟨dos, -, hsame, -⟩
    · obtain rfl := Outline.linear.inj hsame
      exact ⟨error, hparse, LinearOutline.load_eq_error hsound (LinearOutline.load_of_error herror)⟩
    · cases hsame
  · rcases parse_eq_error h with ⟨damage, -, rfl⟩ | ⟨-, rfl⟩ | hfails
    · exact .inl ⟨damage, rfl⟩
    · exact .inr (.inl rfl)
    · exact .inr (.inr hfails)

/-- A module of two pages whose fixup page table starts eight bytes in front of the end of its file, where only two of
its three entries fit. -/
def cutModule : Array UInt8 :=
  let fields : List (Nat × List UInt8) := [
    (0, [0x4D, 0x5A]), (0x3C, [0x40]), (0x40, [0x4C, 0x45]), (0x54, [2]), (0x58, [1]), (0x68, [8]),
    (0x80, [196]), (0x84, [1]), (0xA8, [220]), (0xAC, [220])]
  fields.foldl (fun file field => Bytes.overlay file field.1 field.2) (Array.replicate 0x124 0)

/-- A table that runs past the end of its file is neither damage nor a fault of a fixup. -/
theorem parse_cutModule : ¬∀ (file : Array UInt8) (base : UInt32) (error : Error),
    (parse file base).value = .error error →
      (∃ damage, error = .malformed damage) ∨
        ∃ page position fault excerpt, error = .fixup page position fault excerpt := by
  intro hall
  have hcut : ((parse cutModule standardBase).value.map fun _ => ()) = .error .outOfBounds := by
    decide +kernel
  have hparse : (parse cutModule standardBase).value = .error .outOfBounds := by
    cases hvalue : (parse cutModule standardBase).value with
    | ok executable =>
      rw [hvalue] at hcut
      cases hcut
    | error error =>
      rw [hvalue] at hcut
      rw [Except.error.inj hcut]
  rcases hall _ _ _ hparse with ⟨damage, hsame⟩ | ⟨page, position, fault, excerpt, hsame⟩
  · cases hsame
  · cases hsame

end Executable

end FlowDisasm
