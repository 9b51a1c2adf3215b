import FlowDisasm.Command.Files
import FlowDisasm.Command.Number
import FlowDisasm.Command.Report

/-!
# What a symbol map tells

The report lists the symbols of each segment. With the module that the map belongs to, every symbol has
its address in the relocated module.
-/
namespace FlowDisasm.Command.SymbolReport

open Text (Json Table)

/-- A symbol with its address, if there is a module. -/
structure Located where
  symbol : Symbol
  address : Option UInt32

/-- A segment of a map with its located symbols. -/
structure Part where
  segment : SymbolSegment
  symbols : List Located

def locate (executable : Option Executable) (symbol : Symbol) : Except Failure Located :=
  match executable with
  | none => .ok { symbol, address := none }
  | some executable => do
    let address ← plainly (executable.symbolAddress symbol)
    return { symbol, address := some address }

def locateAll (executable : Option Executable) (segment : SymbolSegment) : Except Failure Part := do
  let symbols ← segment.symbols.mapM (locate executable)
  return { segment, symbols }

def table (withAddress : Bool) (symbols : List Located) : Table where
  columns := [⟨"Offset", .left⟩] ++ (if withAddress then [⟨"Address", .left⟩] else [])
    ++ [⟨"Name", .left⟩]
  rows := symbols.map fun { symbol, address } =>
    [hexField 8 symbol.offset.toNat] ++ (address.map fun found => hexField 8 found.toNat).toList
      ++ [symbol.name]

def shownPart (part : Part) : String :=
  let head := s!"\nSegment {part.segment.number} {part.segment.name} "
    ++ s!"({part.symbols.length} symbols)\n"
  if part.symbols.isEmpty then head
  else head ++ (table (part.symbols.any (·.address.isSome)) part.symbols).render "  "

def shown (name : String) (map : SymbolMap) (parts : List Part) : String :=
  "Module " ++ map.moduleName ++ " (" ++ name ++ ")\n" ++ String.join (parts.map shownPart)

def symbolJson (located : Located) : Json :=
  .object (
    [("offset", .text (hexField 8 located.symbol.offset.toNat))]
    ++ (located.address.map fun address => ("address", .text (hexField 8 address.toNat))).toList
    ++ [("name", .text located.symbol.name)])

def partJson (part : Part) : Json :=
  .object [
    ("number", .number part.segment.number.toNat), ("name", .text part.segment.name),
    ("symbols", .list (part.symbols.map symbolJson))]

def json (name : String) (map : SymbolMap) (parts : List Part) : Json :=
  .object [
    ("file", .text name), ("module", .text map.moduleName),
    ("entry_segment", .number map.entrySegment.toNat), ("segments", .list (parts.map partJson))]

/-- Reports on the symbol map at a path, and on its module if there is one. -/
def run (files : Files) (asJson : Bool) (path : String) (exe base : Option String) :
    Running String := do
  let map ← loading .symbols path (loadSymbols files path)
  let base ← check (base.mapM readNumber)
  let executable ← match exe with
    | none => pure none
    | some exe =>
      let loaded := loadExecutable files exe (base.getD Executable.standardBase)
      some <$> loading .executable exe loaded
  let parts ← check (map.segments.mapM (locateAll executable))
  let name := displayName path
  return if asJson then (json name map parts).document else shown name map parts

end FlowDisasm.Command.SymbolReport
