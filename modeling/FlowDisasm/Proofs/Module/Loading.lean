import FlowDisasm.Proofs.Module.Guarded

/-!
# What loading gives

Loading answers every file, with an executable or an error, and never looks outside of what it looks at. A loaded
module is what its headers and tables tell, with all of its fixups applied; a loaded DOS program is the file behind
its header.
-/
namespace FlowDisasm

open FlowDisasm.Module

/-- What is known of a module that was loaded to a base. -/
structure LinearLoaded (file : Array UInt8) (base : UInt32) (source : LinearModule)
    (executable : Executable) : Prop where
  header : LinearHeader.read file source.headerOffset.toNat = .ok source.header
  dataPages : source.header.contents.dataPages.toNat ≤ file.size
  startPositive : 1 ≤ source.header.start.codeObject.toNat
  startPresent : source.header.start.codeObject.toNat ≤ source.header.tables.objectCount.toNat
  objectCount : source.objects.length = source.header.tables.objectCount.toNat
  segmentCount : executable.segmentStarts.length = source.header.tables.objectCount.toNat
  segmentStarts : executable.segmentStarts = source.objects.map fun entry => entry.loadOffset + base
  imageBase : executable.image.base = base
  imageSize : executable.image.bytes.size = file.size - source.header.contents.dataPages.toNat
  /-- All references of all pages fit into the image, and the base was added at the site of each. -/
  relocated : ∃ table, FixupTable.read file source.headerOffset source.header = .ok table ∧
    table.Relocatable (file.size - source.header.contents.dataPages.toNat) ∧
    executable.image.bytes.data = Bytes.addAll base
      (file.extract source.header.contents.dataPages.toNat file.size) table.sites ∧
    source.relocation = table.stats
  entry : ∃ start,
    executable.segmentStarts[source.header.start.codeObject.toNat - 1]? = some start ∧
    executable.entry? = some {
      offset := start + source.header.start.instructionPointer, mode := .protected32, name := "Entry" }
  symbolAddress : ∀ symbol : Symbol, 1 ≤ symbol.segment.toNat →
    symbol.segment.toNat ≤ source.header.tables.objectCount.toNat →
    ∃ start, executable.segmentStarts[symbol.segment.toNat - 1]? = some start ∧
      executable.symbolAddress symbol = .ok (start + symbol.offset)
  noSymbolAddress : ∀ symbol : Symbol,
    ¬(1 ≤ symbol.segment.toNat ∧
      symbol.segment.toNat ≤ source.header.tables.objectCount.toNat) →
    executable.symbolAddress symbol =
      .error (.symbol (.segmentNumber symbol.name symbol.segment source.objects.length))

/-- What is known of a DOS program that was loaded. -/
structure DosLoaded (file : Array UInt8) (header : DosHeader) (executable : Executable) : Prop where
  read : DosHeader.read file = .ok header
  image : executable.image = ⟨0, ⟨file.extract header.headerSize file.size⟩⟩
  imageSize : executable.image.bytes.size = file.size - header.headerSize
  nonempty : 0 < executable.image.bytes.size
  symbolAddress : ∀ symbol, executable.symbolAddress symbol = .error (.noObjects "MZ")

variable {file : Array UInt8} {base : UInt32} {found : LinearOutline} {executable : Executable}

/-- A module is loaded if all of its fixups can be applied, and not before all of them are. -/
theorem LinearOutline.load_of_relocatable (h : found.fixups.Relocatable (found.pages file).size)
    (base : UInt32) : found.load file base = .ok (found.executable found.fixups.stats
      ⟨base, ⟨Bytes.addAll base (found.pages file) found.fixups.sites⟩⟩) := by
  rw [load, FixupTable.relocate_of_relocatable h]
  rfl

theorem LinearOutline.load_of_error {error : Error}
    (h : (found.fixups.relocate (found.pages file) base).value.1 = .error error) :
    found.load file base = .error error := by
  simp only [load, h, Except.map]

theorem LinearOutline.relocatable_of_load (h : found.load file base = .ok executable) :
    found.fixups.Relocatable (found.pages file).size := by
  by_contra hnot
  obtain ⟨error, herror⟩ := FixupTable.relocate_of_not_relocatable base hnot
  cases h.symm.trans (load_of_error herror)

namespace LinearOutline

variable {relocation : RelocationStats} {image : Image} {symbol : Symbol}

theorem symbolAddress_of_le (hpositive : 1 ≤ symbol.segment.toNat)
    (hle : symbol.segment.toNat ≤ found.objects.length) :
    ∃ start, (found.executable relocation image).segmentStarts[symbol.segment.toNat - 1]? = some start ∧
      (found.executable relocation image).symbolAddress symbol = .ok (start + symbol.offset) := by
  have hplace : symbol.segment.toNat - 1 < found.objects.length := by omega
  have hnonzero : symbol.segment ≠ 0 := fun hzero => by simp [hzero] at hpositive
  refine ⟨_, getElem?_segmentStarts hplace, ?_⟩
  rw [symbolAddress_executable, if_neg hnonzero, List.getElem?_eq_getElem hplace]

theorem symbolAddress_of_not_le
    (h : ¬(1 ≤ symbol.segment.toNat ∧ symbol.segment.toNat ≤ found.objects.length)) :
    (found.executable relocation image).symbolAddress symbol =
      .error (.symbol (.segmentNumber symbol.name symbol.segment found.objects.length)) := by
  rw [symbolAddress_executable]
  by_cases hzero : symbol.segment = 0
  · simp [hzero]
  · have hpositive : symbol.segment.toNat ≠ 0 := fun hnone => hzero (UInt16.toNat_inj.mp hnone)
    rw [if_neg hzero, List.getElem?_eq_none (by omega)]

theorem entry?_of_le (hpositive : 1 ≤ found.header.start.codeObject.toNat)
    (hle : found.header.start.codeObject.toNat ≤ found.objects.length) :
    ∃ start, (found.executable relocation image).segmentStarts[
        found.header.start.codeObject.toNat - 1]? = some start ∧
      Executable.entry? (found.executable relocation image) = some {
        offset := start + found.header.start.instructionPointer, mode := .protected32
        name := "Entry" } := by
  have hplace : found.header.start.codeObject.toNat - 1 < found.objects.length := by omega
  refine ⟨_, getElem?_segmentStarts hplace, ?_⟩
  rw [entry?_executable, List.getElem?_eq_getElem hplace]
  rfl

theorem Sound.linearLoaded (hsound : found.Sound file) (h : found.load file base = .ok executable) :
    ∃ source, executable.format = .linear source ∧ LinearLoaded file base source executable := by
  have hrelocatable := relocatable_of_load h
  rw [load_of_relocatable hrelocatable] at h
  obtain rfl := Except.ok.inj h
  have hcount := ObjectEntry.length_of_readTable hsound.objects
  refine ⟨_, rfl, ?_⟩
  exact {
    header := hsound.header
    dataPages := hsound.dataPages
    startPositive := hsound.startPositive
    startPresent := hsound.startPresent
    objectCount := hcount
    segmentCount := by rw [segmentStarts_executable, List.length_map, hcount]
    segmentStarts := segmentStarts_executable
    imageBase := rfl
    imageSize := Bytes.size_addAll.trans (found.size_pages file)
    relocated := ⟨found.fixups, hsound.fixups, found.size_pages file ▸ hrelocatable, rfl, rfl⟩
    entry := entry?_of_le hsound.startPositive (hcount ▸ hsound.startPresent)
    symbolAddress := fun symbol hpositive hle => symbolAddress_of_le hpositive (hcount ▸ hle)
    noSymbolAddress := fun symbol hnone => symbolAddress_of_not_le (hcount ▸ hnone) }

end LinearOutline

namespace Executable

/-- Loading is safe on every file: the guarded loader, which comes to nothing where an index or a slice is out of
range, comes to the result of loading and the entry point that it tells. A module is loaded with all that its
headers and tables tell, relocated to the base; a DOS program is the nonempty rest of its file. -/
theorem parse_safe (file : Array UInt8) (base : UInt32) :
    (Guarded.load file base).run =
      some ((parse file base).value.map fun executable => (executable, executable.entry?)) ∧
    ∀ executable, (parse file base).value = .ok executable →
      match executable.format with
      | .linear source => LinearLoaded file base source executable
      | .dos header => DosLoaded file header executable
      | .raw => False := by
  refine ⟨Guarded.run_load file base, fun executable h => ?_⟩
  rw [value_parse] at h
  cases hread : Outline.read file with
  | error error => simp [hread] at h
  | ok outline =>
    rw [hread, ok_bind] at h
    rcases Outline.read_eq_ok hread with ⟨found, rfl, hsound⟩ | ⟨dos, -, rfl, hdos, hsize, -⟩
    · obtain ⟨source, hformat, hloaded⟩ := hsound.linearLoaded h
      rw [hformat]
      exact hloaded
    · obtain rfl := Except.ok.inj h
      have hbytes : (file.extract dos.headerSize file.size).size = file.size - dos.headerSize := by
        rw [Array.size_extract, Nat.min_self]
      exact {
        read := hdos, image := rfl, imageSize := hbytes
        nonempty := by
          change 0 < (file.extract dos.headerSize file.size).size
          omega
        symbolAddress := fun _ => rfl }

end Executable

end FlowDisasm
