import FlowDisasm.X86.Table.Float
import FlowDisasm.X86.Table.ThreeByte
import FlowDisasm.X86.Table.TwoByte

/-!
# From bytes to operations

Any number of marks stands in front of an opcode; of two that exclude each other the last one counts.
The opcode then selects an entry of one of the tables. No instruction is longer than fifteen bytes, so
no more marks than that are looked at.
-/
namespace FlowDisasm.X86

/-- The longest instruction in bytes. -/
def maxLength : Nat := 15

def readEscaped (setting : Setting) : Decoding Operation := do
  let opcode ← Decoding.byte
  if opcode = 0x38 then do
    let opcode ← Decoding.byte
    (ThreeByte.entry setting opcode.toNat).read setting opcode
  else if opcode = 0x3A then do
    let opcode ← Decoding.byte
    (ThreeByte.immediateEntry setting opcode.toNat).read setting opcode
  else (TwoByte.entry setting opcode.toNat).read setting opcode

def readOpcode (setting : Setting) (opcode : UInt8) : Decoding Operation :=
  if opcode = 0x0F then readEscaped setting
  else if 0xD8 ≤ opcode ∧ opcode ≤ 0xDF then
    (Float.entry opcode.toNat).read setting opcode
  else (OneByte.entry setting opcode.toNat).read setting opcode

/-- The operation at the front of bytes, with at most so many marks before it. -/
def readOperation (setting : Setting) : Nat → Decoding Operation
  | 0 => .undefined
  | marks + 1 => do
    let byte ← Decoding.byte
    match setting.marked? byte with
    | some setting => readOperation setting marks
    | none => readOpcode setting byte

/-- The operation that code of a width starts with. -/
def operation (width : Width) : Decoding Operation :=
  readOperation { width } maxLength

end FlowDisasm.X86
