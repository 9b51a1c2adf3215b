import FlowDisasm.Proofs.Bytes.Overlay
import FlowDisasm.Proofs.Guarded
import FlowDisasm.Proofs.Module.FixupPages
import FlowDisasm.Proofs.Module.Outline
import FlowDisasm.Proofs.Module.Relocation

/-!
# Loading within bounds

Loading takes the rest of a file from an offset on, the records of a page, the object that execution starts in, and
places that are sums of numbers from the file. Some of this is checked right there and answered with an error, or cut
to what there is; the rest relies on checks that came before and is taken for granted. Here loading is done by a host
that comes to nothing at all where such a place is not there, a sum is no 64-bit number or a counter no 32-bit one. It
never comes to nothing, and what it comes to is what loading does.
-/
namespace FlowDisasm

open FlowDisasm.Module

/-! ## The guarded loader -/

namespace Guarded

def pageRecords (table : FixupTable) (page : Nat) : Guarded (Array UInt8) :=
  table.pageSlice page

/-- The end of the word that a reference may patch. -/
def siteEnd (table : FixupTable) (reference : Reference) : Guarded Nat := do
  let site ← Host.sum (reference.page * table.pageSize.toNat) reference.source.toInt.toNat
  Host.sum site 4

/-- Relocates an image, with counters of 32 bits. All pages and references are looked at in advance, also those
behind one that fails. -/
def relocate (table : FixupTable) (image : Array UInt8) (base : UInt32) :
    Guarded (RelocationStats × Array UInt8) := do
  let count ← Host.difference table.pageOffsets.size 1
  (List.range count).forM fun page => discard (pageRecords table page)
  table.references.forM fun reference => discard (siteEnd table reference)
  let { pages, records, patched, relative, crossPage } := table.stats
  Host.require (pages < UInt32.size ∧ records < UInt32.size ∧ patched < UInt32.size ∧
    relative < UInt32.size ∧ crossPage < UInt32.size)
  let (result, bytes) := (table.relocate image base).value
  MonadExcept.ofExcept (result.map fun relocation => (relocation, bytes))

/-- Loads a file with headers. -/
def load (file : Array UInt8) (base : UInt32) : Guarded (Executable × Option EntryPoint) := do
  Outline.finish relocate file base (← Outline.find file)

end Guarded

/-! ## The guarded loader keeps to its bounds -/

namespace Guarded

variable {file image : Array UInt8} {dos : DosHeader} {headerOffset base : UInt32}
  {table : FixupTable} {count : Nat}

/-- The end of a 32-bit number behind another one is a 64-bit number. -/
theorem toNat_add_toNat_lt (first second : UInt32) : first.toNat + second.toNat < UInt64.size := by
  have hfirst := first.toNat_lt
  have hsecond := second.toNat_lt
  unfold UInt64.size
  omega

theorem keeps_pageRecords (h : table.Cut count) (page : Nat) :
    Keeps (pageRecords table page) (.ok (table.pageRecords page).toArray) := by
  unfold pageRecords FixupTable.pageRecords FixupTable.pageSlice
  split
  · rename_i start stop hstart hstop
    have hpage := UInt32.le_iff_toNat_le.mp (h.start_le_stop (Nat.le_succ page) hstart hstop)
    exact .slice hpage (h.le_size hstop)
  · exact .pure _

/-- The place of a reference is a sum of a page's place, which is a product of 32-bit numbers, and a number
of 15 bits. -/
theorem keeps_siteEnd (h : table.Cut count) (hcount : count < UInt32.size) {reference : Reference}
    (hmem : reference ∈ table.references) : ∃ stop, Keeps (siteEnd table reference) (.ok stop) := by
  have hpage : reference.page < count := by
    obtain ⟨page, hpage, hreference⟩ := List.mem_flatMap.mp hmem
    obtain ⟨record, -, hsource⟩ := List.mem_flatMap.mp hreference
    obtain ⟨source, -, rfl⟩ := List.mem_map.mp hsource
    rw [h.pageCount_eq] at hpage
    exact List.mem_range.mp hpage
  have hproduct : reference.page * table.pageSize.toNat ≤ (UInt32.size - 2) * (UInt32.size - 1) := by
    have hsize := table.pageSize.toNat_lt
    apply Nat.mul_le_mul
    · omega
    · unfold UInt32.size
      omega
  have hsource : reference.source.toInt.toNat < 32768 := by
    have hlt := reference.source.toInt_lt
    omega
  have hsite : reference.page * table.pageSize.toNat + reference.source.toInt.toNat + 4 <
      UInt64.size := by
    unfold UInt32.size at hproduct
    unfold UInt64.size
    omega
  exact ⟨_, (Keeps.sum (Nat.lt_of_le_of_lt (Nat.le_add_right _ 4) hsite)).step (.sum hsite)⟩

theorem keeps_relocate (h : table.Cut count) (hcount : count < UInt32.size) (image : Array UInt8)
    (base : UInt32) :
    Keeps (relocate table image base) ((table.relocate image base).value.1.map
      fun relocation => (relocation, (table.relocate image base).value.2)) := by
  have hsize : 1 ≤ table.pageOffsets.size := by
    rw [h.size]
    exact Nat.le_add_left 1 count
  refine (Keeps.difference hsize).step ((Keeps.each fun page _ => ?_).step
    ((Keeps.each fun reference hmem => ?_).step ((Keeps.require (h.stats_lt hcount)).step (.ofExcept _))))
  · exact (keeps_pageRecords h page).discard
  · obtain ⟨stop, hstop⟩ := keeps_siteEnd h hcount hmem
    exact hstop.discard

theorem keeps_findLinear (hstart : headerOffset.toNat ≤ file.size) :
    Keeps (LinearOutline.find file dos headerOffset) (LinearOutline.read file dos headerOffset) := by
  unfold LinearOutline.read LinearOutline.find
  simp only [require_eq_ok, sum_eq_ok, discard_eq_ok, ofExcept_eq, ok_bind]
  refine (Keeps.require hstart).step ((Keeps.ofExcept _).bind fun header _ => ?_)
  by_cases hpages : file.size < header.contents.dataPages.toNat
  · simp only [hpages, if_true]
    exact .throw _
  by_cases hfirst : (decide (header.start.codeObject = 0) ||
      decide (header.tables.objectCount < header.start.codeObject)) = true
  · simp only [hpages, hfirst, if_true, if_false]
    exact .throw _
  simp only [hpages, hfirst, if_false]
  have hlength := toNat_add_toNat_lt headerOffset header.tables.fixupRecords
  refine (Keeps.sum (toNat_add_toNat_lt headerOffset header.tables.objects)).step
    ((Keeps.ofExcept _).bind fun objects _ => ?_)
  refine (Keeps.require (Nat.le_of_not_lt hpages)).step ?_
  refine (Keeps.sum (toNat_add_toNat_lt headerOffset header.tables.fixupPages)).discard.step
    ((Keeps.sum hlength).step ((Keeps.sum ?_).discard.step
    ((Keeps.ofExcept _).bind fun fixups _ => .pure _)))
  have hoffset := headerOffset.toNat_lt
  have hrecords := header.tables.fixupRecords.toNat_lt
  unfold UInt32.size UInt64.size
  omega

theorem keeps_find (file : Array UInt8) : Keeps (Outline.find file) (Outline.read file) := by
  unfold Outline.read Outline.find
  simp only [require_eq_ok, sum_eq_ok, note_eq_ok, ofExcept_eq, LinearOutline.find_eq, ok_bind]
  by_cases hsize : file.size < Executable.minFileSize
  · simp only [hsize, if_true]
    exact .throw _
  simp only [hsize, if_false]
  refine (Keeps.ofExcept _).bind fun dos _ => ?_
  have hheader : DosHeader.size + dos.headerSize < UInt64.size := by
    have hparagraphs := dos.headerParagraphs.toNat_lt
    unfold DosHeader.headerSize DosHeader.size paragraphSize UInt64.size
    omega
  refine (Keeps.sum hheader).step ?_
  by_cases hbehind : file.size ≤ DosHeader.size + dos.headerSize
  · simp only [hbehind, if_true]
    exact .throw _
  simp only [hbehind, if_false]
  refine (Keeps.ofExcept _).bind fun headerOffset _ => ?_
  have hplace : headerOffset.toNat + LinearHeader.size < UInt64.size := by
    have hoffset := headerOffset.toNat_lt
    unfold LinearHeader.size UInt64.size
    omega
  refine (Keeps.sum hplace).step ((Keeps.require fun hfits => ?_).step ?_)
  · omega
  by_cases hlinear : Executable.hasLinearHeader file headerOffset.toNat = true
  · have hstart : headerOffset.toNat ≤ file.size := by
      rw [Executable.hasLinearHeader, Bool.and_eq_true, decide_eq_true_eq] at hlinear
      omega
    simp only [hlinear, if_true]
    exact (keeps_findLinear hstart).bind fun found _ => .pure _
  · simp only [hlinear]
    exact (Keeps.note _ _).step (.pure _)

/-- What is finished was read before, so the pages and the start object are there. -/
theorem keeps_finish {outline : Outline} (hread : Outline.read file = .ok outline) :
    Keeps (outline.finish relocate file base)
      ((outline.load file base).map fun executable => (executable, executable.entry?)) := by
  rcases Outline.read_eq_ok hread with ⟨found, rfl, hsound⟩ | ⟨dos, -, rfl, -, hheader, -⟩
  · obtain ⟨hcut, -⟩ := FixupTable.read_eq_ok hsound.fixups
    have hplace : found.header.start.codeObject.toNat - 1 < found.objects.length := by
      rw [ObjectEntry.length_of_readTable hsound.objects]
      have hpositive := hsound.startPositive
      have hpresent := hsound.startPresent
      omega
    rw [Outline.load, LinearOutline.map_load]
    refine (Keeps.slice hsound.dataPages (Nat.le_refl _)).step
      ((keeps_relocate hcut (UInt32.toNat_lt _) _ base).bind fun relocated _ => ?_)
    refine (Keeps.difference hsound.startPositive).step ((Keeps.item ?_).step
      ((Keeps.note _ _).step (.pure _)))
    rwa [LinearOutline.segmentStarts_executable, List.length_map]
  · have hstart : dos.headerSize ≤ file.size := by omega
    exact (Keeps.slice hstart (Nat.le_refl _)).step ((Keeps.note _ _).step (.pure _))

/-- The loader that guards all it takes for granted does what loading does, on every file. -/
theorem run_load (file : Array UInt8) (base : UInt32) :
    (load file base).run =
      some ((Executable.parse file base).value.map fun executable => (executable, executable.entry?)) := by
  have hkeeps : Keeps (load file base) (Outline.read file >>= fun outline =>
      (outline.load file base).map fun executable => (executable, executable.entry?)) :=
    (keeps_find file).bind fun _ => keeps_finish
  rw [hkeeps, Executable.value_parse]
  cases Outline.read file <;> rfl

end Guarded

end FlowDisasm
