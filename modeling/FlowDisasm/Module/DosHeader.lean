import FlowDisasm.Bytes.Buffer
import FlowDisasm.Bytes.Fields

/-!
# The DOS header

Every executable starts with this header. It alone describes a plain DOS program; in front of a linear
executable it only tells where the linear header is. Reading and writing its fields are inverse.
-/
namespace FlowDisasm.Module

open Bytes (Layout field encode)

def paragraphSize : Nat := 16

/-- The fields of a DOS header in their order. -/
structure DosHeader where
  magic : UInt16
  bytesInLastPage : UInt16
  pages : UInt16
  relocationCount : UInt16
  headerParagraphs : UInt16
  minAlloc : UInt16
  maxAlloc : UInt16
  stackSegment : UInt16
  stackPointer : UInt16
  checksum : UInt16
  instructionPointer : UInt16
  codeSegment : UInt16
  relocationTable : UInt16
  overlay : UInt16
  deriving DecidableEq

/-- An entry of the DOS relocation table. -/
structure DosRelocation where
  offset : UInt16
  segment : UInt16
  deriving DecidableEq

namespace DosRelocation

def layout : Layout DosRelocation := do
  let offset ← field
  let segment ← field
  return { offset, segment }

def bytes (relocation : DosRelocation) : List UInt8 :=
  encode relocation.offset ++ encode relocation.segment

end DosRelocation

namespace DosHeader

def size : Nat := 28

/-- The letters MZ as a word. -/
def signature : UInt16 := 0x5A4D

/-- Where the offset of another header is kept. -/
def nextHeaderField : Nat := 0x3C

def layout : Layout DosHeader := do
  let magic ← field
  let bytesInLastPage ← field
  let pages ← field
  let relocationCount ← field
  let headerParagraphs ← field
  let minAlloc ← field
  let maxAlloc ← field
  let stackSegment ← field
  let stackPointer ← field
  let checksum ← field
  let instructionPointer ← field
  let codeSegment ← field
  let relocationTable ← field
  let overlay ← field
  return {
    magic, bytesInLastPage, pages, relocationCount, headerParagraphs, minAlloc, maxAlloc,
    stackSegment, stackPointer, checksum, instructionPointer, codeSegment, relocationTable,
    overlay }

def bytes (header : DosHeader) : List UInt8 :=
  encode header.magic ++ encode header.bytesInLastPage ++ encode header.pages
    ++ encode header.relocationCount ++ encode header.headerParagraphs
    ++ encode header.minAlloc ++ encode header.maxAlloc
    ++ encode header.stackSegment ++ encode header.stackPointer ++ encode header.checksum
    ++ encode header.instructionPointer ++ encode header.codeSegment
    ++ encode header.relocationTable ++ encode header.overlay

/-- Bytes that the header and what belongs to it take in the file. -/
def headerSize (header : DosHeader) : Nat :=
  header.headerParagraphs.toNat * paragraphSize

def entryOffset (header : DosHeader) : UInt32 :=
  header.codeSegment.toUInt32 * 16 + header.instructionPointer.toUInt32

/-- The header at the start of a file. -/
def read (file : Array UInt8) : Except Error DosHeader :=
  match (Bytes.range? file 0 size).bind layout.read? with
  | none => .error .outOfBounds
  | some header =>
    if header.magic = signature then .ok header
    else .error (.malformed (.dosSignature header.magic))

/-- The offset of the header behind this one. -/
def nextHeader (file : Array UInt8) : Except Error UInt32 :=
  match Bytes.read? file nextHeaderField with
  | some offset => .ok offset
  | none => .error .outOfBounds

/-- The relocation table that a header describes. -/
def relocations (header : DosHeader) (file : Array UInt8) : Except Error (List DosRelocation) :=
  let count := header.relocationCount.toNat
  let table := Bytes.range? file header.relocationTable.toNat (4 * count)
  match table.bind (DosRelocation.layout.repeat count).read? with
  | some entries => .ok entries
  | none => .error (.malformed .dosRelocations)

theorem layout_bytes (header : DosHeader) (rest : List UInt8) :
    layout (header.bytes ++ rest) = some (header, rest) := by
  simp only [layout, bytes, List.append_assoc, Bytes.field_bind_encode]
  rfl

theorem length_bytes (header : DosHeader) : header.bytes.length = size := by
  simp [bytes, size, Bytes.Word.width]

end DosHeader

end FlowDisasm.Module
