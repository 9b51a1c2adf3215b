import FlowDisasm.Host
import FlowDisasm.Module.FixupRecord
import FlowDisasm.Module.LinearHeader

/-!
# Fixup tables and relocation

The page table cuts the stream of fixup records into one piece per page. Relocating adds the base of the
module to every word that an absolute reference of some page names. A reference that cannot be applied
stops the relocation where it is, and the image keeps what was added so far.
-/
namespace FlowDisasm.Module

/-- The fixup records of a module, cut into pages. -/
structure FixupTable where
  /-- Where the records of each page start, and where those of the last page end. -/
  pageOffsets : Array UInt32
  records : Array UInt8
  pageSize : UInt32

def ascending : List UInt32 → Bool
  | first :: second :: rest => first ≤ second && ascending (second :: rest)
  | _ => true

namespace FixupTable

/-- The table that a header describes. -/
def read (file : Array UInt8) (headerOffset : UInt32) (header : LinearHeader) :
    Except Error FixupTable := do
  let pageTable := headerOffset.toNat + header.tables.fixupPages.toNat
  let recordTable := headerOffset.toNat + header.tables.fixupRecords.toNat
  if file.size < pageTable then throw (.malformed (.pageTable pageTable))
  let count := header.identity.pageCount.toNat + 1
  let offsets ← match (Bytes.range? file pageTable (4 * count)).bind
      (Bytes.Layout.repeat Bytes.field count).read? with
    | some offsets => pure offsets
    | none => throw .outOfBounds
  if !ascending offsets then throw (.malformed .pageTableOrder)
  let length := (offsets.getLast?.getD 0).toNat
  match Bytes.range? file recordTable length with
  | some records =>
    return {
      pageOffsets := offsets.toArray, records := records.toArray,
      pageSize := header.start.pageSize }
  | none => throw (.malformed (.recordTable recordTable length))

def pageCount (table : FixupTable) : Nat :=
  table.pageOffsets.size - 1

/-- The record bytes of a page, which the page table tells the ends of; a page that does not exist has none. -/
def pageSlice {m : Type → Type} [Monad m] [Host m] (table : FixupTable) (page : Nat) :
    m (Array UInt8) :=
  match table.pageOffsets[page]?, table.pageOffsets[page + 1]? with
  | some start, some stop => Host.slice table.records start.toNat stop.toNat
  | _, _ => return #[]

def pageRecords (table : FixupTable) (page : Nat) : List UInt8 :=
  (pageSlice table page : Logged (Array UInt8)).value.toList

def recordsOf (table : FixupTable) (page : Nat) : Except Error (List FixupRecord) :=
  FixupRecord.readAll (UInt32.ofNat page) (table.pageRecords page)

end FixupTable

/-- What a relocation did. -/
structure RelocationStats where
  /-- Pages that have records. -/
  pages : Nat := 0
  records : Nat := 0
  /-- Absolute references that the base was added to. -/
  patched : Nat := 0
  /-- Relative references, which stay as they are. -/
  relative : Nat := 0
  /-- References that begin on the page before and are counted there. -/
  crossPage : Nat := 0
  deriving DecidableEq

/-- An image under relocation. -/
structure Relocation where
  image : Array UInt8
  stats : RelocationStats := {}

namespace Relocation

/-- A step of a relocation: it may fail, and leaves the image and a log in any case. -/
abbrev Step (α : Type) := ExceptT Error (StateT Relocation Logged) α

def count (change : RelocationStats → RelocationStats) : Step Unit :=
  modify fun relocation => { relocation with stats := change relocation.stats }

def note (level : Level) (text : String) : Step Unit :=
  ExceptT.lift (StateT.lift (Logged.record level text))

def recordText (page : Nat) (record : FixupRecord) : String :=
  let sources := ", ".intercalate (record.sources.map fun source => toString source.toInt)
  "page " ++ Text.hex page ++ " +" ++ Text.hexPadded 4 record.position ++ ": " ++ record.kind.name
    ++ " -> " ++ Text.hexByte record.object ++ ":" ++ Text.hexPadded 8 record.offset.toNat
    ++ " [" ++ sources ++ "]"

/-- Applies one reference of a page. -/
def applySource (base pageSize : UInt32) (page : Nat) (stream : List UInt8) (record : FixupRecord)
    (source : Int16) : Step Unit := do
  let fail (fault : FixupFault) : Step Unit :=
    throw (FixupRecord.failure (UInt32.ofNat page) stream record.position fault)
  if source < 0 then
    count fun stats => { stats with crossPage := stats.crossPage + 1 }
  else
    let place := source.toInt.toNat
    if pageSize.toNat ≤ place then fail (.outsidePage place pageSize.toNat)
    else
      match record.kind with
      | .relative32 => count fun stats => { stats with relative := stats.relative + 1 }
      | .offset32 =>
        let site := page * pageSize.toNat + place
        let { image, stats } ← get
        let patched := do
          let word : UInt32 ← Bytes.read? image site
          Bytes.write? image site (word + base)
        match patched with
        | some image => set { image, stats := { stats with patched := stats.patched + 1 } : Relocation }
        | none => fail (.outsideImage site)

def applyRecord (base pageSize : UInt32) (page : Nat) (stream : List UInt8)
    (record : FixupRecord) : Step Unit := do
  count fun stats => { stats with records := stats.records + 1 }
  note .trace (recordText page record)
  record.sources.forM (applySource base pageSize page stream record)

/-- Applies the records of a page, once all of them are known to be well formed. -/
def applyPage (table : FixupTable) (base : UInt32) (page : Nat) : Step Unit := do
  let stream := table.pageRecords page
  if !stream.isEmpty then
    count fun stats => { stats with pages := stats.pages + 1 }
    let records ← liftExcept (FixupRecord.readAll (UInt32.ofNat page) stream)
    records.forM (applyRecord base table.pageSize page stream)
where
  liftExcept {α : Type} : Except Error α → Step α
    | .ok value => return value
    | .error error => throw error

def summary (stats : RelocationStats) : String :=
  s!"relocated {stats.records} records on {stats.pages} pages ({stats.patched} patched, "
    ++ s!"{stats.relative} relative, {stats.crossPage} cross-page)"

def applyAll (table : FixupTable) (base : UInt32) : Step RelocationStats := do
  (List.range table.pageCount).forM (applyPage table base)
  let { stats, .. } ← get
  note .debug (summary stats)
  return stats

end Relocation

/-- Relocates an image to a base. The image is returned in any case, as far as it was changed. -/
def FixupTable.relocate (table : FixupTable) (image : Array UInt8) (base : UInt32) :
    Logged (Except Error RelocationStats × Array UInt8) := do
  let (result, relocation) ← (Relocation.applyAll table base).run.run { image }
  return (result, relocation.image)

end FlowDisasm.Module
