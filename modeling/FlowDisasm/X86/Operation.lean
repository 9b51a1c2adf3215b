import FlowDisasm.X86.Cpu
import FlowDisasm.X86.Operand

/-!
# Operations

An operation is what the bytes of an instruction mean wherever they stand: its operands, its part in
control flow and its text up to the destination of a branch. The operands of the encoding and those that
the text shows are kept apart, because texts leave out some registers and add others.
-/
namespace FlowDisasm.X86

/-- The part of an instruction in control flow. -/
inductive Flow where
  | mov
  | int
  | jmp
  | jmpFar
  | call
  | callFar
  | jcc
  | loop
  | ret
  | retf
  | iret
  | other
  deriving DecidableEq, Repr

/-- The mnemonics that control flow tells apart. -/
inductive Mnemonic where
  | mov
  | int
  | jmp
  | call
  /-- A jump on one of the conditions. -/
  | jcc (condition : Fin 16)
  | jcxz
  | jecxz
  | loop
  | loope
  | loopne
  | ret
  | retf
  | iret
  | other
  deriving DecidableEq, Repr

/-- The part of an instruction in control flow; only jumps and calls have another one when they are far. -/
@[simp]
def classify (mnemonic : Mnemonic) (far : Bool) : Flow :=
  match mnemonic with
  | .mov => .mov
  | .int => .int
  | .jmp => if far then .jmpFar else .jmp
  | .call => if far then .callFar else .call
  | .jcc _ | .jcxz | .jecxz => .jcc
  | .loop | .loope | .loopne => .loop
  | .ret => .ret
  | .retf => .retf
  | .iret => .iret
  | .other => .other

/-- The meaning of an instruction's bytes. -/
structure Operation where
  /-- The words in front of the mnemonic. -/
  words : List String
  mnemonic : String
  /-- Whether the mnemonic has the second word of far branches. -/
  far : Bool
  flow : Flow
  era : Era
  /-- The width of the destinations of near branches. -/
  targetWidth : Width
  /-- The operands of the encoding. -/
  operands : List Operand
  /-- The operands of the text. -/
  shown : List Operand

def Operation.text (operation : Operation) (destination : String) : String :=
  String.join (operation.words.map (· ++ " "))
    ++ operation.mnemonic
    ++ (if operation.far then "\tFAR" else "")
    ++ (if operation.shown.isEmpty then "" else "\t")
    ++ ", ".intercalate (operation.shown.map (Operand.text destination))

end FlowDisasm.X86
