import FlowDisasm.X86.Operation

/-!
# Distances of near branches

The operands of a near branch tell where it goes in its segment, but code of 16 bits also lies above the first
segment. So the distance is taken out of the bytes of the instruction once more. It is what they end with, and
the first byte that is no mark tells how many of them it is.
-/
namespace FlowDisasm.X86

/-- The bytes that can stand in front of an opcode. -/
def marks : List UInt8 :=
  [0x26, 0x2E, 0x36, 0x3E, 0x64, 0x65, 0x66, 0x67, 0xF0, 0xF2, 0xF3]

/-- The first byte that is no mark. -/
def opcodeOf? (bytes : List UInt8) : Option UInt8 :=
  bytes.find? fun byte => !marks.contains byte

def isShortBranch (opcode : UInt8) : Bool :=
  opcode = 0xEB || (0x70 ≤ opcode && opcode ≤ 0x7F) || (0xE0 ≤ opcode && opcode ≤ 0xE3)

/-- How many bytes the distance of a branch takes. -/
def distanceSize (bytes : List UInt8) (targetWidth : Width) : Nat :=
  if (opcodeOf? bytes).any isShortBranch then 1 else targetWidth.bytes

/-- The distance that bytes spell, extended with its sign. Others than one, two or four spell none. -/
def spelledDistance (bytes : List UInt8) : Int32 :=
  match bytes.length with
  | 1 => (Bytes.decode bytes : Int8).toInt32
  | 2 => (Bytes.decode bytes : Int16).toInt32
  | 4 => Bytes.decode bytes
  | _ => 0

/-- The distance that so many bytes at the end spell. -/
def trailingDistance (bytes : List UInt8) (size : Nat) : Int32 :=
  spelledDistance (bytes.drop (bytes.length - size))

/-- An operand with the distance that the bytes of its instruction end with, if it is one. -/
def Operand.recovered (bytes : List UInt8) (targetWidth : Width) : Operand → Operand
  | .relative _ _ =>
    let size := distanceSize bytes targetWidth
    .relative (trailingDistance bytes size) size
  | operand => operand

/-- An operation with the distances that its bytes end with. Text shows the operands as they were. -/
def Operation.recovered (operation : Operation) (bytes : List UInt8) : Operation :=
  { operation with
    operands := operation.operands.map (Operand.recovered bytes operation.targetWidth) }

end FlowDisasm.X86
