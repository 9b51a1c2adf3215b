import FlowDisasm.Image
import FlowDisasm.X86.Displacement
import FlowDisasm.X86.Opcode

/-!
# Instructions in an image

An instruction is an operation at an address. Branches tell their destination relative to the address
behind them, so the destination and its text are known only here. Decoding sees at most fifteen bytes;
when the image ends inside an instruction, the first address behind the image is what is missing.
-/
namespace FlowDisasm.X86

/-- An operation with the place and the bytes that it was decoded from. -/
structure Instruction where
  offset : UInt32
  /-- The width of the code around it. -/
  width : Width
  bytes : List UInt8
  operation : Operation

namespace Instruction

def next (instruction : Instruction) : UInt32 :=
  instruction.offset + UInt32.ofNat instruction.bytes.length

def first? (instruction : Instruction) : Option Operand :=
  instruction.operation.operands.head?

/-- The destination of a relative branch, without regard to segments. -/
def target? (instruction : Instruction) : Option UInt32 :=
  match instruction.first? with
  | some (.relative displacement _) => some (instruction.next + displacement.toUInt32)
  | _ => none

/-- Whether the instruction is a move to the control register that switches modes. -/
def writesModeRegister (instruction : Instruction) : Bool :=
  instruction.operation.flow = .mov && instruction.first? = some (.control 0)

def vector? (instruction : Instruction) : Option UInt8 :=
  match instruction.operation.flow, instruction.first? with
  | .int, some (.immediate value _) => some value.toUInt8
  | _, _ => none

/-- The instruction pointer as the code sees it: 16-bit code knows only the low half. -/
def pointer (instruction : Instruction) : Nat :=
  match instruction.width with
  | .bits16 => instruction.offset.toNat % UInt16.size
  | .bits32 => instruction.offset.toNat

/-- Where the processor would go: the destination inside its segment. -/
def segmentTarget (instruction : Instruction) (displacement : Int32) : Nat :=
  let sum : Int := instruction.pointer + instruction.bytes.length + displacement.toInt
  (sum % (1 <<< instruction.operation.targetWidth.bits : Nat)).toNat

/-- The destination inside its segment, as the operands of the encoding tell it. -/
def nearTarget? (instruction : Instruction) : Option Nat :=
  match instruction.operation.shown.head? with
  | some (.relative displacement _) => some (instruction.segmentTarget displacement)
  | _ => none

/-- The text of a branch destination. A destination in the first ten bytes of its segment is a digit;
any other is the flat address. -/
def destinationText (instruction : Instruction) (label : Option String) : String :=
  match label, instruction.first? with
  | some name, _ => name
  | none, some (.relative displacement _) =>
    let flat := Text.hexLiteral (instruction.next + displacement.toUInt32).toNat
    match instruction.nearTarget? with
    | some near => if near < 10 then toString near else flat
    | none => flat
  | none, some (.far16 _ offset) => numeral offset.toNat
  | none, some (.far32 _ offset) => numeral offset.toNat
  | none, _ => ""

/-- The text of an instruction, with a label in place of a branch destination if there is one. -/
def text (instruction : Instruction) (label : Option String) : String :=
  instruction.operation.text (instruction.destinationText label)

end Instruction

/-- Decodes the instruction at an address as a processor model would. -/
def decode (cpu : Cpu) (image : Image) (offset : UInt32) (width : Width) :
    Except Error Instruction :=
  let window := image.window offset.toNat maxLength
  match (operation width).run window with
  | .found operation taken =>
    let bytes := window.take taken
    let instruction := { offset, width, bytes, operation := operation.recovered bytes }
    if cpu.runs operation.era then .ok instruction
    else .error (.unsupportedInstruction offset cpu (instruction.text none))
  | .undefined => .error (.invalidInstruction offset window)
  | .truncated =>
    if window.length < maxLength then
      .error (.addressOutOfRange (offset.toNat + window.length))
    else .error (.invalidInstruction offset window)

end FlowDisasm.X86
