import FlowDisasm.Bytes.Cursor
import FlowDisasm.Host

/-!
# Symbol maps

A symbol map names offsets in the segments of a module. Its segments form a chain of blocks, each of
which tells the paragraph of the next; the chain ends at a pointer that leads back or where the file has
no room for another block. The header tells how many blocks there have to be.
-/
namespace FlowDisasm

open Bytes (Cursor)

/-- A named offset in a numbered segment. -/
structure Symbol where
  name : String
  segment : UInt16
  offset : UInt32
  deriving DecidableEq

/-- A segment with its symbols. -/
structure SymbolSegment where
  number : UInt16
  name : String
  symbols : List Symbol
  deriving DecidableEq

/-- A symbol map. -/
structure SymbolMap where
  moduleName : String
  entrySegment : UInt16
  segments : List SymbolSegment
  deriving DecidableEq

namespace SymbolMap

def symbols (map : SymbolMap) : List Symbol :=
  map.segments.flatMap SymbolSegment.symbols

def symbolCount (map : SymbolMap) : Nat :=
  map.segments.foldr (fun segment count => segment.symbols.length + count) 0

/-- Reading a symbol map: a cursor and errors, in a host. -/
abbrev Reader (m : Type → Type) (α : Type) := StateT Cursor (ExceptT Error m) α

/-- Bytes in the unit that block pointers count. -/
def paragraphSize : Nat := 16

/-- A block takes more than so many bytes. -/
def minBlockSize : Nat := 32

def segmentType : UInt8 := 1

/-- What the header of a map tells. -/
structure Header where
  entrySegment : UInt16
  looseSymbols : UInt16
  segmentCount : UInt16
  /-- Where the first block is. -/
  firstBlock : Nat
  moduleName : String

/-- What the front of a block tells. -/
structure BlockHeader where
  /-- Where the next block is. -/
  next : Nat
  symbolCount : UInt16
  number : UInt16
  type : UInt8
  name : String

section Reading

variable {m : Type → Type} [Monad m] [Host m]

def act {α : Type} (action : Cursor.Action α) : Reader m α := fun cursor =>
  match action.run cursor with
  | (.ok value, cursor) => pure (value, cursor)
  | (.error error, _) => throw error

/-- Takes for granted that the end of the next bytes can be told, and that there is a slice of them if the file does
not end before. -/
def expect (count : Nat) : Reader m Unit := do
  let { data, position } ← get
  let stop ← Host.sum position count
  if stop ≤ data.size then discard (Host.slice data position stop)

def word {α : Type} [Bytes.Word α] : Reader m α := do
  expect (Bytes.Word.width α)
  act Cursor.word

def skip (count : Nat) : Reader m Unit := do
  expect count
  act (Cursor.skip count)

/-- Takes a text. Its length is looked at before. -/
def text : Reader m String := do
  expect 1
  let length : UInt8 ← act Cursor.peek
  expect (1 + length.toNat)
  act Cursor.text

/-- Takes a pointer to a block. -/
def blockPointer : Reader m Nat := do
  let paragraphs : UInt16 ← word
  return paragraphs.toNat * paragraphSize

/-- Takes the header behind the size field. -/
def header : Reader m Header := do
  let entrySegment ← word
  let looseSymbols ← word
  let _ : UInt16 ← word
  let segmentCount ← word
  let firstBlock ← blockPointer
  skip 1
  let moduleName ← text
  return { entrySegment, looseSymbols, segmentCount, firstBlock, moduleName }

/-- Takes the front of a block. -/
def blockHeader : Reader m BlockHeader := do
  let next ← blockPointer
  let symbolCount ← word
  let _ : UInt16 ← word
  let number ← word
  skip 6
  let type ← word
  skip 5
  let name ← text
  return { next, symbolCount, number, type, name }

def symbol (segment : UInt16) : Reader m Symbol := do
  let offset : UInt32 ← word
  let name ← text
  Host.note .trace ("  " ++ Text.hexPadded 8 offset.toNat ++ " " ++ name)
  return { name, segment, offset }

def symbolList (segment : UInt16) : Nat → Reader m (List Symbol)
  | 0 => return []
  | count + 1 => do
    let first ← symbol segment
    let rest ← symbolList segment count
    return first :: rest

/-- Takes a block, and tells where the next one is. -/
def block : Reader m (SymbolSegment × Nat) := do
  let { next, symbolCount, number, type, name } ← blockHeader
  Host.note .debug (s!"SYM segment {number} " ++ Text.quoted name
    ++ s!": type {type}, {symbolCount} symbols, next " ++ Text.hexLiteral next)
  if type ≠ segmentType then throw (.symbol (.segmentType name type))
  let symbols ← symbolList number symbolCount.toNat
  return ({ number, name, symbols }, next)

/-- Whether there is room for another block. -/
def hasRoom : Reader m Bool := do
  let { data, position } ← get
  let least ← Host.sum position minBlockSize
  return least < data.size

/-- Takes the chain of blocks that starts at the cursor. It is taken for granted that the chain ends before the rounds
are used up. -/
def blocks : Nat → Reader m (List SymbolSegment)
  | 0 => do
    let room ← hasRoom
    Host.require (room = false)
    return []
  | rounds + 1 => do
    if ← hasRoom then
      let (segment, next) ← block
      let { position, .. } ← get
      if next < position then return [segment]
      act (Cursor.seek next)
      let rest ← blocks rounds
      return segment :: rest
    else return []

/-- Takes a whole map of at most so many blocks. -/
def whole (most : Nat) : Reader m SymbolMap := do
  let paragraphs : UInt32 ← word
  let size := (← get).data.size
  let declared := paragraphs.toNat * paragraphSize
  let told ← Host.sum declared 4
  if told ≠ size then throw (.symbol (.size declared (size - 4)))
  let { entrySegment, looseSymbols, segmentCount, firstBlock, moduleName } ← header
  Host.note .debug ("SYM module " ++ Text.quoted moduleName
    ++ s!": entry segment {entrySegment}, {segmentCount} segments, first block at "
    ++ Text.hexLiteral firstBlock)
  if looseSymbols ≠ 0 then throw (.symbol (.looseSymbols looseSymbols))
  act (Cursor.seek firstBlock)
  let segments ← blocks most
  if segments.length ≠ segmentCount.toNat then
    throw (.symbol (.segmentCount segments.length segmentCount))
  return { moduleName, entrySegment, segments }

end Reading

/-- The symbol map in the bytes of a file. A block moves the cursor forward and the next one is not before it, so
there are no more blocks than bytes. -/
def parse (file : Array UInt8) : Logged (Except Error SymbolMap) := do
  let result ← ((whole file.size).run { data := file }).run
  return result.map Prod.fst

end SymbolMap

end FlowDisasm
