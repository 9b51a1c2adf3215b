import FlowDisasm.Bytes.Word
import FlowDisasm.Text.Hex
import FlowDisasm.X86.Register

/-!
# Operands

An operand is what an instruction works on, with all that its text needs. Numbers up to nine are written
in decimal and all others in hexadecimal, memory as the sum that gives its address.
-/
namespace FlowDisasm.X86

open Text

/-- A number as assembly text writes it. -/
def numeral (value : Nat) : String :=
  if value < 10 then toString value else hexLiteral value

/-- A memory operand: the sum of a base, an index and a displacement. -/
structure Reference where
  /-- The segment, when it has to be written. -/
  segment : Option Register := none
  base : Option Register := none
  /-- The index, with the factor when it has to be written. -/
  index : Option (Register × Option Nat) := none
  /-- The displacement: signed beside a register, else an address. -/
  displacement : Int := 0
  deriving DecidableEq

namespace Reference

def hasRegister (reference : Reference) : Bool :=
  reference.base.isSome || reference.index.isSome

def registersText (reference : Reference) : String :=
  let base := match reference.base with
    | some register => register.text
    | none => ""
  let plus := if reference.base.isSome && reference.index.isSome then "+" else ""
  let index := match reference.index with
    | some (register, some factor) => register.text ++ "*" ++ toString factor
    | some (register, none) => register.text
    | none => ""
  base ++ plus ++ index

def displacementText (reference : Reference) : String :=
  if reference.hasRegister then
    if reference.displacement = 0 then ""
    else if reference.displacement < 0 then "-" ++ numeral reference.displacement.natAbs
    else "+" ++ numeral reference.displacement.natAbs
  else numeral reference.displacement.natAbs

def text (reference : Reference) : String :=
  let segment := match reference.segment with
    | some register => register.text ++ ":"
    | none => ""
  segment ++ "[" ++ reference.registersText ++ reference.displacementText ++ "]"

end Reference

/-- The size of a memory operand, where text has to tell it. -/
inductive Extent where
  | byte
  | word
  | dword
  | fword
  | qword
  | tbyte
  /-- The float environment and the whole float state, by their sizes. -/
  | floatEnvironment (bytes : Nat)
  | floatState (bytes : Nat)
  deriving DecidableEq

def Extent.text : Extent → String
  | byte => "BYTE PTR "
  | word => "WORD PTR "
  | dword => "DWORD PTR "
  | fword => "FWORD PTR "
  | qword => "QWORD PTR "
  | tbyte => "TBYTE PTR "
  | floatEnvironment bytes => s!"FPUENV{bytes} PTR "
  | floatState bytes => s!"FPUSTATE{bytes} PTR "

/-- An operand of an instruction. -/
inductive Operand where
  | register (register : Register)
  | control (number : Fin 8)
  | memory (reference : Reference) (extent : Option Extent)
  /-- A number that is extended with its sign, and the bytes that text shows of it. -/
  | immediate (value : UInt64) (size : Nat)
  /-- A distance from the end of the instruction, and the bytes that encode it. -/
  | relative (displacement : Int32) (size : Nat)
  | far16 (selector offset : UInt16)
  | far32 (selector : UInt16) (offset : UInt32)
  deriving DecidableEq

/-- An operand as text. A branch destination is handed in, as it depends on where the instruction is. -/
def Operand.text (destination : String) : Operand → String
  | .register named => named.text
  | .control number => s!"CR{number}"
  | .memory reference none => reference.text
  | .memory reference (some extent) => extent.text ++ reference.text
  | .immediate value size => numeral (value.toNat % Bytes.span size)
  | .relative _ _ => destination
  | .far16 selector _ => destination ++ ", " ++ numeral selector.toNat
  | .far32 selector _ => destination ++ ", " ++ numeral selector.toNat

end FlowDisasm.X86
