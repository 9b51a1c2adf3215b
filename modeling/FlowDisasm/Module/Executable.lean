import FlowDisasm.Image
import FlowDisasm.Mode
import FlowDisasm.Module.DosHeader
import FlowDisasm.Module.FixupTable
import FlowDisasm.SymbolMap

/-!
# Executables

An executable is an image with what its file tells about it. A file with a linear header becomes a module
that is relocated to a base; any other file with a DOS header becomes a DOS program at address zero. Bytes
without any header can be taken as they are.
-/
namespace FlowDisasm

open MonadExcept (ofExcept)
open Module

/-- Where execution starts. -/
structure EntryPoint where
  offset : UInt32
  mode : Mode
  name : String

namespace EntryPoint

/-- Where a module starts: at the instruction pointer in a segment. -/
def ofModule (start pointer : UInt32) : EntryPoint where
  offset := start + pointer
  mode := .protected32
  name := "Entry"

def ofProgram (header : DosHeader) : EntryPoint where
  offset := header.entryOffset
  mode := .real16
  name := "Start"

end EntryPoint

/-- What the headers of a linear executable tell. -/
structure LinearModule where
  dos : DosHeader
  /-- Where the linear header is in the file. -/
  headerOffset : UInt32
  header : LinearHeader
  objects : List ObjectEntry
  relocation : RelocationStats

/-- Where an image comes from. -/
inductive Format where
  | linear (source : LinearModule)
  | dos (header : DosHeader)
  | raw

def Format.name : Format → String
  | .linear _ => "LE"
  | .dos _ => "MZ"
  | .raw => "RAW"

/-- An image with what its file tells about it. -/
structure Executable where
  format : Format
  image : Image

namespace Executable

/-- The base that modules are relocated to unless another one is asked for. -/
def standardBase : UInt32 := 0x80001000

def minFileSize : Nat := 0x100

def raw (bytes : ByteArray) (base : UInt32) : Executable :=
  { format := .raw, image := ⟨base, bytes⟩ }

def objects (executable : Executable) : List ObjectEntry :=
  match executable.format with
  | .linear source => source.objects
  | _ => []

def segmentStarts (executable : Executable) : List UInt32 :=
  executable.objects.map fun entry => entry.loadOffset + executable.image.base

def entry? (executable : Executable) : Option EntryPoint :=
  match executable.format with
  | .linear source =>
    executable.segmentStarts[source.header.start.codeObject.toNat - 1]?.map
      (EntryPoint.ofModule · source.header.start.instructionPointer)
  | .dos header => some (.ofProgram header)
  | .raw => none

/-- The address of a symbol; only modules have segments that symbols can be in. -/
def symbolAddress (executable : Executable) (symbol : Symbol) : Except Error UInt32 :=
  match executable.format with
  | .linear source =>
    let start :=
      if symbol.segment = 0 then none
      else executable.segmentStarts[symbol.segment.toNat - 1]?
    match start with
    | some start => .ok (start + symbol.offset)
    | none => .error (.symbol (.segmentNumber symbol.name symbol.segment source.objects.length))
  | format => .error (.noObjects format.name)

/-- Whether a file has a linear header at an offset and something behind it. -/
def hasLinearHeader (file : Array UInt8) (offset : Nat) : Bool :=
  offset + LinearHeader.size < file.size
    && Bytes.read? file offset == some LinearHeader.signature

end Executable

/-! ## Loading -/

/-- What the file of a module tells, before anything is relocated. -/
structure LinearOutline where
  dos : DosHeader
  headerOffset : UInt32
  header : LinearHeader
  objects : List ObjectEntry
  fixups : FixupTable

/-- What a file tells, before anything is relocated. -/
inductive Outline where
  | linear (found : LinearOutline)
  | dos (header : DosHeader)

def LinearOutline.executable (found : LinearOutline) (relocation : RelocationStats) (image : Image) :
    Executable where
  format := .linear {
    dos := found.dos, headerOffset := found.headerOffset, header := found.header
    objects := found.objects, relocation }
  image := image

section Loading

variable {m : Type → Type} [Monad m] [MonadExceptOf Error m] [Host m]

/-- Finds what belongs to a linear header at an offset of a file. -/
def LinearOutline.find (file : Array UInt8) (dos : DosHeader) (headerOffset : UInt32) :
    m LinearOutline := do
  Host.require (headerOffset.toNat ≤ file.size)
  let header ← ofExcept (LinearHeader.read file headerOffset.toNat)
  let { start, tables, contents, .. } := header
  if file.size < contents.dataPages.toNat then
    throw (.malformed (.dataPages contents.dataPages))
  if start.codeObject = 0 || tables.objectCount < start.codeObject then
    throw (.malformed (.startObject start.codeObject tables.objectCount))
  let objectTable ← Host.sum headerOffset.toNat tables.objects.toNat
  let objects ← ofExcept (ObjectEntry.readTable file objectTable tables.objectCount.toNat)
  -- The pages are taken in front of the fixups.
  Host.require (contents.dataPages.toNat ≤ file.size)
  discard (Host.sum headerOffset.toNat tables.fixupPages.toNat)
  let recordTable ← Host.sum headerOffset.toNat tables.fixupRecords.toNat
  -- The length of the records is a 32-bit number, however large.
  discard (Host.sum recordTable (UInt32.size - 1))
  let fixups ← ofExcept (FixupTable.read file headerOffset header)
  return { dos, headerOffset, header, objects, fixups }

/-- Finds what a file tells. -/
def Outline.find (file : Array UInt8) : m Outline := do
  if file.size < Executable.minFileSize then throw (.malformed (.fileTooSmall file.size))
  let dos ← ofExcept (DosHeader.read file)
  let first ← Host.sum DosHeader.size dos.headerSize
  if file.size ≤ first then throw (.malformed .dosHeader)
  let headerOffset ← ofExcept (DosHeader.nextHeader file)
  let stop ← Host.sum headerOffset.toNat LinearHeader.size
  -- The letters of the header are looked at only where the header fits.
  Host.require (stop < file.size → headerOffset.toNat ≤ file.size)
  if Executable.hasLinearHeader file headerOffset.toNat then
    return .linear (← LinearOutline.find file dos headerOffset)
  else
    Host.note .debug ("no LE header at " ++ Text.hexLiteral headerOffset.toNat
      ++ ", loading as a DOS executable")
    return .dos dos

/-- Makes an executable of what a file tells, with the place where it starts. How the pages of a module are relocated
is left open. -/
def Outline.finish
    (relocate : FixupTable → Array UInt8 → UInt32 → m (RelocationStats × Array UInt8))
    (file : Array UInt8) (base : UInt32) : Outline → m (Executable × Option EntryPoint)
  | .linear found => do
    let { start, tables, contents, identity, .. } := found.header
    let pages ← Host.slice file contents.dataPages.toNat file.size
    let (relocation, bytes) ← relocate found.fixups pages base
    let executable := found.executable relocation ⟨base, ⟨bytes⟩⟩
    let place ← Host.difference start.codeObject.toNat 1
    let segment ← Host.item executable.segmentStarts place
    let entry := segment.map (EntryPoint.ofModule · start.instructionPointer)
    Host.note .info (s!"LE module: {tables.objectCount} objects, {identity.pageCount} pages, entry "
      ++ Text.hexPadded 8 (entry.elim 0 EntryPoint.offset).toNat ++ ", image "
      ++ Text.hexLiteral bytes.size ++ " bytes at " ++ Text.hexPadded 8 base.toNat)
    return (executable, entry)
  | .dos header => do
    let bytes ← Host.slice file header.headerSize file.size
    Host.note .info ("DOS executable: " ++ Text.hexLiteral bytes.size ++ " byte image, entry "
      ++ Text.hexPadded 4 header.codeSegment.toNat ++ ":"
      ++ Text.hexPadded 4 header.instructionPointer.toNat)
    return ({ format := .dos header, image := ⟨0, ⟨bytes⟩⟩ }, some (.ofProgram header))

end Loading

namespace Executable

/-- Loading: errors and a log. -/
abbrev Loading (α : Type) := ExceptT Error Logged α

def relocate (table : FixupTable) (pages : Array UInt8) (base : UInt32) :
    Loading (RelocationStats × Array UInt8) := do
  let (result, bytes) ← ExceptT.lift (table.relocate pages base)
  let relocation ← ofExcept result
  return (relocation, bytes)

def load (file : Array UInt8) (base : UInt32) : Loading (Executable × Option EntryPoint) := do
  Outline.finish relocate file base (← Outline.find file)

/-- The executable in the bytes of a file, relocated to a base if it can be. -/
def parse (file : Array UInt8) (base : UInt32) : Logged (Except Error Executable) := do
  let result ← (load file base).run
  return result.map Prod.fst

end Executable

end FlowDisasm
