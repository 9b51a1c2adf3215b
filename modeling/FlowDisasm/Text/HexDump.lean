import FlowDisasm.Text.Hex
import FlowDisasm.Bytes.Rows

/-!
# Hex dumps

Sixteen bytes a line: the address, the bytes in small digits, and the same bytes as characters. A short
last line is padded, so the characters start at one distance from the address on every line.
-/
namespace FlowDisasm.Text

def dumpWidth : Nat := 16

/-- The character that stands for a byte in a dump: a dot unless the byte is printable ASCII. -/
def dumpChar (byte : UInt8) : Char :=
  if 0x20 ≤ byte && byte ≤ 0x7E then Char.ofNat byte.toNat else '.'

/-- One line of a dump, for at most sixteen bytes. -/
def dumpLine (address : Nat) (bytes : List UInt8) : String :=
  hexPadded 4 address ++ " "
    ++ String.join (bytes.map fun byte => " " ++ hexByteSmall byte)
    ++ String.join (List.replicate (dumpWidth - bytes.length) "   ")
    ++ "  " ++ String.ofList (bytes.map dumpChar) ++ "\n"

/-- The lines of a dump whose first byte has the given address. -/
def dumpLines (address : Nat) : List (List UInt8) → List String
  | [] => []
  | row :: rows => dumpLine address row :: dumpLines (address + dumpWidth) rows

/-- The hex dump of bytes from an address on. -/
def hexDump (address : Nat) (bytes : List UInt8) : String :=
  String.join (dumpLines address (Bytes.rows dumpWidth bytes))

end FlowDisasm.Text
