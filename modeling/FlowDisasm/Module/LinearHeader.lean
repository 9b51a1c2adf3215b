import FlowDisasm.Bytes.Buffer
import FlowDisasm.Bytes.Fields

/-!
# The linear header and its objects

The header of a linear executable tells where its tables are and where execution starts. It is kept in
the six parts that stand one after the other in the file. The offsets of most tables count from the
start of this header; the data pages count from the start of the file.
-/
namespace FlowDisasm.Module

open Bytes (Layout field encode)

namespace LinearHeader

/-- What kind of module the file holds. -/
structure Identity where
  magic : UInt16
  byteOrder : UInt8
  wordOrder : UInt8
  level : UInt32
  cpu : UInt16
  os : UInt16
  version : UInt32
  moduleFlags : UInt32
  pageCount : UInt32
  deriving DecidableEq

/-- Where execution starts, and the size of pages. -/
structure Start where
  codeObject : UInt32
  instructionPointer : UInt32
  stackObject : UInt32
  stackPointer : UInt32
  pageSize : UInt32
  lastPageSize : UInt32
  deriving DecidableEq

/-- Sizes and checksums of the two sections. -/
structure Sections where
  fixupSize : UInt32
  fixupSum : UInt32
  loaderSize : UInt32
  loaderSum : UInt32
  deriving DecidableEq

/-- The places of the tables. -/
structure Tables where
  objects : UInt32
  objectCount : UInt32
  pageMap : UInt32
  iteratedMap : UInt32
  resources : UInt32
  resourceCount : UInt32
  residentNames : UInt32
  entries : UInt32
  directives : UInt32
  directiveCount : UInt32
  fixupPages : UInt32
  fixupRecords : UInt32
  importModules : UInt32
  importModuleCount : UInt32
  importProcedures : UInt32
  pageSums : UInt32
  deriving DecidableEq

/-- The pages and what is loaded beside them. -/
structure Contents where
  dataPages : UInt32
  preloadPages : UInt32
  nonresidentNames : UInt32
  nonresidentSize : UInt32
  nonresidentSum : UInt32
  automaticData : UInt32
  debugInfo : UInt32
  debugSize : UInt32
  preloadInstances : UInt32
  demandInstances : UInt32
  heapSize : UInt32
  deriving DecidableEq

/-- What only device drivers have, behind twelve reserved bytes. -/
structure Device where
  reserved1 : UInt32
  reserved2 : UInt32
  reserved3 : UInt32
  resourceOffset : UInt32
  resourceSize : UInt32
  deviceId : UInt16
  kitVersion : UInt16
  deriving DecidableEq

def Identity.layout : Layout Identity := do
  let magic ← field
  let byteOrder ← field
  let wordOrder ← field
  let level ← field
  let cpu ← field
  let os ← field
  let version ← field
  let moduleFlags ← field
  let pageCount ← field
  return { magic, byteOrder, wordOrder, level, cpu, os, version, moduleFlags, pageCount }

def Identity.bytes (part : Identity) : List UInt8 :=
  encode part.magic ++ encode part.byteOrder ++ encode part.wordOrder ++ encode part.level
    ++ encode part.cpu ++ encode part.os ++ encode part.version ++ encode part.moduleFlags
    ++ encode part.pageCount

def Start.layout : Layout Start := do
  let codeObject ← field
  let instructionPointer ← field
  let stackObject ← field
  let stackPointer ← field
  let pageSize ← field
  let lastPageSize ← field
  return { codeObject, instructionPointer, stackObject, stackPointer, pageSize, lastPageSize }

def Start.bytes (part : Start) : List UInt8 :=
  encode part.codeObject ++ encode part.instructionPointer ++ encode part.stackObject
    ++ encode part.stackPointer ++ encode part.pageSize ++ encode part.lastPageSize

def Sections.layout : Layout Sections := do
  let fixupSize ← field
  let fixupSum ← field
  let loaderSize ← field
  let loaderSum ← field
  return { fixupSize, fixupSum, loaderSize, loaderSum }

def Sections.bytes (part : Sections) : List UInt8 :=
  encode part.fixupSize ++ encode part.fixupSum ++ encode part.loaderSize
    ++ encode part.loaderSum

def Tables.layout : Layout Tables := do
  let objects ← field
  let objectCount ← field
  let pageMap ← field
  let iteratedMap ← field
  let resources ← field
  let resourceCount ← field
  let residentNames ← field
  let entries ← field
  let directives ← field
  let directiveCount ← field
  let fixupPages ← field
  let fixupRecords ← field
  let importModules ← field
  let importModuleCount ← field
  let importProcedures ← field
  let pageSums ← field
  return {
    objects, objectCount, pageMap, iteratedMap, resources, resourceCount, residentNames, entries,
    directives, directiveCount, fixupPages, fixupRecords, importModules, importModuleCount,
    importProcedures, pageSums }

def Tables.bytes (part : Tables) : List UInt8 :=
  encode part.objects ++ encode part.objectCount ++ encode part.pageMap
    ++ encode part.iteratedMap ++ encode part.resources ++ encode part.resourceCount
    ++ encode part.residentNames ++ encode part.entries ++ encode part.directives
    ++ encode part.directiveCount ++ encode part.fixupPages ++ encode part.fixupRecords
    ++ encode part.importModules ++ encode part.importModuleCount
    ++ encode part.importProcedures ++ encode part.pageSums

def Contents.layout : Layout Contents := do
  let dataPages ← field
  let preloadPages ← field
  let nonresidentNames ← field
  let nonresidentSize ← field
  let nonresidentSum ← field
  let automaticData ← field
  let debugInfo ← field
  let debugSize ← field
  let preloadInstances ← field
  let demandInstances ← field
  let heapSize ← field
  return {
    dataPages, preloadPages, nonresidentNames, nonresidentSize, nonresidentSum, automaticData,
    debugInfo, debugSize, preloadInstances, demandInstances, heapSize }

def Contents.bytes (part : Contents) : List UInt8 :=
  encode part.dataPages ++ encode part.preloadPages ++ encode part.nonresidentNames
    ++ encode part.nonresidentSize ++ encode part.nonresidentSum ++ encode part.automaticData
    ++ encode part.debugInfo ++ encode part.debugSize ++ encode part.preloadInstances
    ++ encode part.demandInstances ++ encode part.heapSize

def Device.layout : Layout Device := do
  let reserved1 ← field
  let reserved2 ← field
  let reserved3 ← field
  let resourceOffset ← field
  let resourceSize ← field
  let deviceId ← field
  let kitVersion ← field
  return {
    reserved1, reserved2, reserved3, resourceOffset, resourceSize, deviceId, kitVersion }

def Device.bytes (part : Device) : List UInt8 :=
  encode part.reserved1 ++ encode part.reserved2 ++ encode part.reserved3
    ++ encode part.resourceOffset ++ encode part.resourceSize ++ encode part.deviceId
    ++ encode part.kitVersion

/-- The reserved bytes in front of a device's own fields. -/
def Device.reserved (part : Device) : List UInt8 :=
  encode part.reserved1 ++ encode part.reserved2 ++ encode part.reserved3

end LinearHeader

/-- The header of a linear executable. -/
structure LinearHeader where
  identity : LinearHeader.Identity
  start : LinearHeader.Start
  sections : LinearHeader.Sections
  tables : LinearHeader.Tables
  contents : LinearHeader.Contents
  device : LinearHeader.Device
  deriving DecidableEq

namespace LinearHeader

def size : Nat := 196

/-- The letters LE and the two order bytes as a word. -/
def signature : UInt32 := 0x454C

def layout : Layout LinearHeader := do
  let identity ← Identity.layout
  let start ← Start.layout
  let sections ← Sections.layout
  let tables ← Tables.layout
  let contents ← Contents.layout
  let device ← Device.layout
  return { identity, start, sections, tables, contents, device }

def bytes (header : LinearHeader) : List UInt8 :=
  header.identity.bytes ++ header.start.bytes ++ header.sections.bytes ++ header.tables.bytes
    ++ header.contents.bytes ++ header.device.bytes

def read (file : Array UInt8) (offset : Nat) : Except Error LinearHeader :=
  match Bytes.range? file offset size, Bytes.read? file offset with
  | some bytes, some found =>
    if found = signature then
      match layout.read? bytes with
      | some header => .ok header
      | none => .error .outOfBounds
    else .error (.malformed (.linearSignature found))
  | _, _ => .error .outOfBounds

theorem Identity.layout_bytes (part : Identity) (rest : List UInt8) :
    Identity.layout (part.bytes ++ rest) = some (part, rest) := by
  simp only [Identity.layout, Identity.bytes, List.append_assoc, Bytes.field_bind_encode]
  rfl

theorem Start.layout_bytes (part : Start) (rest : List UInt8) :
    Start.layout (part.bytes ++ rest) = some (part, rest) := by
  simp only [Start.layout, Start.bytes, List.append_assoc, Bytes.field_bind_encode]
  rfl

theorem Sections.layout_bytes (part : Sections) (rest : List UInt8) :
    Sections.layout (part.bytes ++ rest) = some (part, rest) := by
  simp only [Sections.layout, Sections.bytes, List.append_assoc, Bytes.field_bind_encode]
  rfl

theorem Tables.layout_bytes (part : Tables) (rest : List UInt8) :
    Tables.layout (part.bytes ++ rest) = some (part, rest) := by
  simp only [Tables.layout, Tables.bytes, List.append_assoc, Bytes.field_bind_encode]
  rfl

theorem Contents.layout_bytes (part : Contents) (rest : List UInt8) :
    Contents.layout (part.bytes ++ rest) = some (part, rest) := by
  simp only [Contents.layout, Contents.bytes, List.append_assoc, Bytes.field_bind_encode]
  rfl

theorem Device.layout_bytes (part : Device) (rest : List UInt8) :
    Device.layout (part.bytes ++ rest) = some (part, rest) := by
  simp only [Device.layout, Device.bytes, List.append_assoc, Bytes.field_bind_encode]
  rfl

theorem layout_bytes (header : LinearHeader) (rest : List UInt8) :
    layout (header.bytes ++ rest) = some (header, rest) := by
  simp only [layout, bytes, Identity.layout_bytes, Start.layout_bytes, Sections.layout_bytes,
    Tables.layout_bytes, Contents.layout_bytes, Device.layout_bytes, List.append_assoc, bind,
    StateT.bind, Option.bind_some]
  rfl

end LinearHeader

/-- An entry of the object table: a segment of the module. -/
structure ObjectEntry where
  virtualSize : UInt32
  /-- The load address, which counts from the base of the module. -/
  loadOffset : UInt32
  flags : UInt32
  firstPage : UInt32
  pageCount : UInt32
  reserved : UInt32
  deriving DecidableEq

namespace ObjectEntry

def size : Nat := 24

def layout : Layout ObjectEntry := do
  let virtualSize ← field
  let loadOffset ← field
  let flags ← field
  let firstPage ← field
  let pageCount ← field
  let reserved ← field
  return { virtualSize, loadOffset, flags, firstPage, pageCount, reserved }

def bytes (entry : ObjectEntry) : List UInt8 :=
  encode entry.virtualSize ++ encode entry.loadOffset ++ encode entry.flags
    ++ encode entry.firstPage ++ encode entry.pageCount ++ encode entry.reserved

/-- The flags that have a name, from the lowest bit up. -/
def namedFlags : List (String × UInt32) :=
  [("READABLE", 0x1), ("WRITABLE", 0x2), ("EXECUTABLE", 0x4), ("RESOURCE", 0x8),
    ("DISCARDABLE", 0x10), ("SHARED", 0x20), ("PRELOAD", 0x40), ("INVALID", 0x80),
    ("ZERO_FILLED", 0x100), ("RESIDENT", 0x200), ("LONG_LOCKABLE", 0x400),
    ("ALIAS_16_16", 0x1000), ("BIG", 0x2000), ("CONFORMING", 0x4000),
    ("IO_PRIVILEGE", 0x8000)]

def setFlags (entry : ObjectEntry) : List (String × UInt32) :=
  namedFlags.filter fun (_, bit) => entry.flags &&& bit != 0

def flagNames (entry : ObjectEntry) : List String :=
  entry.setFlags.map (·.1)

/-- The flags without the bits that have no name. -/
def knownFlags (entry : ObjectEntry) : UInt32 :=
  entry.setFlags.foldl (fun bits flag => bits ||| flag.2) 0

def read (file : Array UInt8) (offset : Nat) : Except Error ObjectEntry :=
  match (Bytes.range? file offset size).bind layout.read? with
  | some entry => .ok entry
  | none => .error .outOfBounds

/-- The table of a number of entries at a place in a file. -/
def readTable (file : Array UInt8) (offset count : Nat) : Except Error (List ObjectEntry) :=
  let table := Bytes.range? file offset (size * count)
  match table.bind (layout.repeat count).read? with
  | some entries => .ok entries
  | none => .error .outOfBounds

theorem layout_bytes (entry : ObjectEntry) (rest : List UInt8) :
    layout (entry.bytes ++ rest) = some (entry, rest) := by
  simp only [layout, bytes, List.append_assoc, Bytes.field_bind_encode]
  rfl

end ObjectEntry

end FlowDisasm.Module
