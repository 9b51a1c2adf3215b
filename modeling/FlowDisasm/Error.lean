import FlowDisasm.Text.Hex
import FlowDisasm.Text.HexDump
import FlowDisasm.Text.Quoted
import FlowDisasm.X86.Cpu

/-!
# Errors

Each way in which loading, decoding or exploring can fail is a cause with the values that explain it. The
wording is kept apart from the causes, in one function.
-/
namespace FlowDisasm

open Text

/-- What is wrong with the structure of an executable. -/
inductive Damage where
  /-- The file is shorter than any executable. -/
  | fileTooSmall (size : Nat)
  /-- The first two bytes are not those of a DOS header. -/
  | dosSignature (magic : UInt16)
  /-- The DOS relocation table runs past the end of the file. -/
  | dosRelocations
  /-- The DOS header claims the whole file. -/
  | dosHeader
  /-- The linear header starts with other bytes than its signature. -/
  | linearSignature (signature : UInt32)
  /-- The data pages start behind the end of the file. -/
  | dataPages (offset : UInt32)
  /-- The object that execution starts in does not exist. -/
  | startObject (number count : UInt32)
  /-- The fixup page table starts behind the end of the file. -/
  | pageTable (offset : Nat)
  /-- The fixup page table goes down somewhere. -/
  | pageTableOrder
  /-- The fixup record table is not wholly inside the file. -/
  | recordTable (offset size : Nat)
  deriving DecidableEq

def Damage.message : Damage → String
  | .fileTooSmall size => s!"File is too small ({size} bytes)"
  | .dosSignature magic =>
    let low := magic.toNat % 256
    let high := magic.toNat / 256
    "Unknown signature " ++ hexPadded 4 magic.toNat ++ " '"
      ++ String.ofList [Char.ofNat low, Char.ofNat high] ++ "'"
  | .dosRelocations => "Relocation table out of range"
  | .dosHeader => "Invalid header"
  | .linearSignature signature =>
    "Expected VxD file, found signature " ++ hexPadded 8 signature.toNat
  | .dataPages offset => "Invalid data page offset " ++ hexLiteral offset.toNat
  | .startObject number count => s!"Bad start object {number} ({count} objects)"
  | .pageTable offset => "Fixup page table at " ++ hexLiteral offset ++ " is outside of the file"
  | .pageTableOrder => "Fixup page table is not ascending"
  | .recordTable offset size =>
    "Fixup record table at " ++ hexLiteral offset ++ " (+" ++ hexLiteral size
      ++ ") is outside of the file"

/-- What is wrong with a fixup record. -/
inductive FixupFault where
  /-- The record runs past the end of its page's stream. -/
  | truncated
  /-- The source byte names an address type that is not a plain 32-bit one. -/
  | addressType (source : UInt8)
  /-- The source byte asks for a 16:16 alias. -/
  | alias (source : UInt8)
  /-- The target byte names a relocation that is not internal. -/
  | targetType (target : UInt8)
  /-- A patch site lies behind the end of its page. -/
  | outsidePage (source pageSize : Nat)
  /-- A patch site lies behind the end of the image. -/
  | outsideImage (site : Nat)
  deriving DecidableEq

def bitGroups (byte : UInt8) : String :=
  nibbleBits (byte.toNat / 16) ++ "\x60" ++ nibbleBits (byte.toNat % 16)

def FixupFault.message : FixupFault → String
  | .truncated => "record runs past the end of the fixup record stream"
  | .addressType source =>
    "Unsupported addressType " ++ hexByte source ++ " (" ++ bitGroups source ++ ")"
  | .alias source =>
    "Unsupported addressType " ++ hexByte source ++ ", 16:16 alias fixups are not supported"
  | .targetType target =>
    "Unsupported relocationType " ++ hexByte target ++ " (" ++ bitGroups target ++ ")"
  | .outsidePage source pageSize =>
    "source offset " ++ hexLiteral source ++ " is outside of the " ++ hexLiteral pageSize
      ++ " byte page"
  | .outsideImage site => "patch site " ++ hexLiteral site ++ " is outside of the image"

/-- What is wrong with a symbol map or one of its symbols. -/
inductive SymbolFault where
  /-- The size field does not tell the size of the file. -/
  | size (declared found : Nat)
  /-- There are symbols outside of any segment. -/
  | looseSymbols (count : UInt16)
  /-- A segment is not a 32-bit one. -/
  | segmentType (name : String) (type : UInt8)
  /-- The header declares another number of segments. -/
  | segmentCount (found : Nat) (declared : UInt16)
  /-- A symbol belongs to a segment that the module does not have. -/
  | segmentNumber (name : String) (number : UInt16) (count : Nat)
  deriving DecidableEq

def SymbolFault.message : SymbolFault → String
  | .size declared found =>
    "Invalid SYM file: length " ++ hexLiteral declared ++ ", expected " ++ hexLiteral found
  | .looseSymbols count => s!"{count} symbols in segment 0 are not supported"
  | .segmentType name type =>
    "Segment " ++ quoted name ++ s!" has unsupported type {type}"
  | .segmentCount found declared => s!"Found {found} segment blocks, header declares {declared}"
  | .segmentNumber name number count =>
    s!"Bad symbol {name} in segment {number} ({count} objects)"

/-- Why a file cannot be opened. -/
inductive FileFault where
  /-- There is nothing of that name. -/
  | missing
  /-- The path goes on behind a plain file. -/
  | notDirectory
  deriving DecidableEq

def FileFault.message : FileFault → String
  | .missing => "No such file or directory (os error 2)"
  | .notDirectory => "Not a directory (os error 20)"

/-- Every way in which loading, decoding or exploring fails. -/
inductive Error where
  /-- A structure ends behind the end of its data. -/
  | outOfBounds
  /-- An address that has to be read is not in the image. -/
  | addressOutOfRange (address : Nat)
  /-- The file has no bytes. -/
  | empty
  /-- A file cannot be opened. -/
  | file (fault : FileFault)
  /-- What was opened is no plain file. -/
  | notMappable
  | malformed (damage : Damage)
  /-- Symbols were asked for in an executable without objects, of which the format is named. -/
  | noObjects (format : String)
  /-- A fixup record of a page cannot be read or applied. -/
  | fixup (page : UInt32) (position : Nat) (fault : FixupFault) (excerpt : List UInt8)
  | symbol (fault : SymbolFault)
  /-- The bytes are no instruction. -/
  | invalidInstruction (offset : UInt32) (bytes : List UInt8)
  /-- The instruction is newer than the processor. -/
  | unsupportedInstruction (offset : UInt32) (cpu : X86.Cpu) (text : String)
  /-- A far branch has no destination that could be followed or put aside. -/
  | farTarget (address text : String)
  /-- A conditional branch has no destination. -/
  | looseBranch (address text : String)
  deriving DecidableEq

def Error.message : Error → String
  | .outOfBounds => "Out of Bound read would have occurred!"
  | .addressOutOfRange address =>
    "offset " ++ hexLiteral address ++ " is out of range during disassembly"
  | .empty => "Provided input was empty"
  | .file fault => fault.message
  | .notMappable => "No such device (os error 19)"
  | .malformed damage => "Malformed - " ++ damage.message
  | .noObjects format =>
    s!"Not supported - symbols can only be mapped onto LE modules, not {format} files"
  | .fixup page position fault excerpt =>
    s!"Fixup error on page {page} at record offset " ++ hexLiteral position ++ ": " ++ fault.message
      ++ "\n" ++ hexDump 0 excerpt
  | .symbol fault => "Invalid SYM file: " ++ fault.message
  | .invalidInstruction offset bytes =>
    "Invalid instruction at offset " ++ hexLiteral offset.toNat ++ ": " ++ spacedBytes bytes
  | .unsupportedInstruction offset cpu text =>
    text ++ " at offset " ++ hexLiteral offset.toNat ++ " is not available on the " ++ cpu.name
  | .farTarget address text => address ++ " " ++ text ++ " -- unsupported far branch target"
  | .looseBranch address text =>
    address ++ " " ++ text ++ " -- conditional branch without relative target"

end FlowDisasm
