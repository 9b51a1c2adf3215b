import FlowDisasm.Command.Files
import FlowDisasm.Command.Report

/-!
# What the headers of an executable tell

The report shows the format, the image and the entry point, then the headers that there are, the objects
and what the relocation did.
-/
namespace FlowDisasm.Command.Info

open Module
open Text (Json Table hexLiteral hexPadded)

def dosFacts (header : DosHeader) : List Fact :=
  let pointer (segment offset : UInt16) : String :=
    hexPadded 4 segment.toNat ++ ":" ++ hexPadded 4 offset.toNat
  [countFact "Last page bytes" "bytes_in_last_page" header.bytesInLastPage.toNat,
    countFact "Pages" "pages" header.pages.toNat,
    countFact "Relocations" "relocations" header.relocationCount.toNat,
    countFact "Header paragraphs" "header_paragraphs" header.headerParagraphs.toNat,
    countFact "Min alloc" "min_alloc" header.minAlloc.toNat,
    countFact "Max alloc" "max_alloc" header.maxAlloc.toNat,
    textFact "SS:SP" "ss_sp" (pointer header.stackSegment header.stackPointer),
    textFact "CS:IP" "cs_ip" (pointer header.codeSegment header.instructionPointer),
    textFact "Relocation table" "relocation_table" (hexField 4 header.relocationTable.toNat),
    countFact "Overlay" "overlay" header.overlay.toNat]

def kitVersion (version : UInt16) : String :=
  let minor := toString (version.toNat % 256)
  toString (version.toNat / 256) ++ "." ++ (if minor.length < 2 then "0" ++ minor else minor)

def linearFacts (source : LinearModule) : List Fact :=
  let { identity, start, tables, contents, device, .. } := source.header
  [textFact "Offset" "lfanew" (hexLiteral source.headerOffset.toNat),
    { title := "CPU / OS"
      values := [("cpu", .number identity.cpu.toNat), ("os", .number identity.os.toNat)] },
    textFact "Module flags" "module_flags" (hexField 8 identity.moduleFlags.toNat),
    countFact "Pages" "pages" identity.pageCount.toNat,
    textFact "Page size" "page_size" (hexLiteral start.pageSize.toNat),
    textFact "Last page size" "last_page_size" (hexLiteral start.lastPageSize.toNat),
    countFact "Start object" "start_object" start.codeObject.toNat,
    textFact "EIP" "eip" (hexField 8 start.instructionPointer.toNat),
    textFact "Object table" "object_table" (hexLiteral tables.objects.toNat),
    textFact "Fixup page table" "fixup_page_table" (hexLiteral tables.fixupPages.toNat),
    textFact "Fixup records" "fixup_record_table" (hexLiteral tables.fixupRecords.toNat),
    textFact "Data pages" "data_pages" (hexLiteral contents.dataPages.toNat),
    textFact "Device id" "device_id" (hexField 4 device.deviceId.toNat),
    textFact "DDK version" "ddk_version" (kitVersion device.kitVersion)]

def relocationFacts (stats : RelocationStats) : List Fact :=
  [countFact "Pages" "pages" stats.pages,
    countFact "Records" "records" stats.records,
    countFact "Patched" "patched" stats.patched,
    countFact "Relative" "relative" stats.relative,
    countFact "Cross page" "cross_page" stats.crossPage]

/-- An object with its number and the address that it is loaded at. -/
structure LoadedObject where
  number : Nat
  entry : ObjectEntry
  address : UInt32

def loadedObjects (executable : Executable) : List LoadedObject :=
  (executable.objects.zip executable.segmentStarts).mapIdx fun index (entry, address) =>
    { number := index + 1, entry, address }

namespace LoadedObject

def flags (object : LoadedObject) : String :=
  let number := hexField 4 object.entry.flags.toNat
  match object.entry.flagNames with
  | [] => number
  | names => number ++ " " ++ "|".intercalate names

def cells (object : LoadedObject) : List String :=
  [toString object.number, hexLiteral object.entry.virtualSize.toNat,
    hexField 8 object.entry.loadOffset.toNat, hexField 8 object.address.toNat,
    s!"{object.entry.firstPage}+{object.entry.pageCount}", object.flags]

/-- An object for programs. -/
def json (object : LoadedObject) : Json :=
  .object [
    ("index", .number object.number),
    ("virtual_size", .text (hexLiteral object.entry.virtualSize.toNat)),
    ("relocation_base", .text (hexField 8 object.entry.loadOffset.toNat)),
    ("address", .text (hexField 8 object.address.toNat)),
    ("flags", .text object.flags),
    ("first_page", .number object.entry.firstPage.toNat),
    ("page_count", .number object.entry.pageCount.toNat)]

end LoadedObject

def objectTable (objects : List LoadedObject) : Table where
  columns := [⟨"#", .right⟩, ⟨"Size", .right⟩, ⟨"Base", .left⟩, ⟨"Address", .left⟩,
    ⟨"Pages", .left⟩, ⟨"Flags", .left⟩]
  rows := objects.map LoadedObject.cells

def dosHeader? (executable : Executable) : Option DosHeader :=
  match executable.format with
  | .linear source => some source.dos
  | .dos header => some header
  | .raw => none

/-- What only a module has. -/
def linear? (executable : Executable) : Option LinearModule :=
  match executable.format with
  | .linear source => some source
  | _ => none

def overview (name : String) (executable : Executable) : List (String × String) :=
  let { image, .. } := executable
  let size := hexLiteral image.bytes.size
  let entry := match executable.entry? with
    | some entry =>
      [("Entry", entry.name ++ " " ++ hexField 8 entry.offset.toNat ++ " (" ++ entry.mode.text
        ++ ")")]
    | none => []
  [("File", name), ("Format", executable.format.name),
    ("Image", hexField 8 image.base.toNat ++ " (" ++ size ++ " bytes)")] ++ entry

def shown (name : String) (executable : Executable) : String :=
  let linear := (linear? executable).toList
  let objects := loadedObjects executable
  let sections : List String :=
    [Text.fieldList "Executable" (overview name executable)]
      ++ (dosHeader? executable).toList.map (shownFacts "DOS header" <| dosFacts ·)
      ++ linear.map (shownFacts "LE header" <| linearFacts ·)
      ++ (if objects.isEmpty then [] else ["Objects\n" ++ (objectTable objects).render "  "])
      ++ linear.map (shownFacts "Relocation" <| relocationFacts ·.relocation)
  "\n".intercalate sections

def entryJson (entry : EntryPoint) : Json :=
  .object [("name", .text entry.name), ("address", .text (hexField 8 entry.offset.toNat)),
    ("mode", .text entry.mode.text)]

/-- The report for programs, without members that there is nothing for. -/
def json (name : String) (executable : Executable) : Json :=
  let linear := (linear? executable).toList
  let objects := loadedObjects executable
  .object (
    [("file", .text name), ("kind", .text executable.format.name),
      ("image_base", .text (hexField 8 executable.image.base.toNat)),
      ("image_size", .number executable.image.bytes.size)]
    ++ executable.entry?.toList.map (fun entry => ("entry", entryJson entry))
    ++ (dosHeader? executable).toList.map (fun header => ("dos", jsonFacts (dosFacts header)))
    ++ linear.map (fun source => ("le", jsonFacts (linearFacts source)))
    ++ (if objects.isEmpty then [] else [("objects", .list (objects.map LoadedObject.json))])
    ++ linear.map (fun source =>
      ("relocation", jsonFacts (relocationFacts source.relocation))))

def run (files : Files) (asJson : Bool) (path : String) : Running String := do
  let executable ← loading .executable path (loadExecutable files path Executable.standardBase)
  let name := displayName path
  return if asJson then (json name executable).document else shown name executable

end FlowDisasm.Command.Info
