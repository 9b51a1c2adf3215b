import FlowDisasm.X86.Register

/-!
# What stands in front of an opcode

Marks in front of an opcode change the sizes in force, the segment of memory, or how often something is
done. Many later opcodes take one of the marks as a part of themselves, which then chooses between up to
four operations.
-/
namespace FlowDisasm.X86

/-- The two repetition marks. -/
inductive Repetition where
  | whileNotEqual
  | whileEqual
  deriving DecidableEq, Repr

/-- What stands in front of an opcode, together with the width of the code. -/
structure Setting where
  width : Width
  operandMark : Bool := false
  addressMark : Bool := false
  segment : Option (Fin 8) := none
  lock : Bool := false
  repetition : Option Repetition := none

/-- The mark that an opcode takes as a part of itself. -/
inductive Mark where
  | none
  | size
  | equal
  | notEqual
  deriving DecidableEq

namespace Setting

def operandSize (setting : Setting) : Width :=
  if setting.operandMark then setting.width.other else setting.width

def addressSize (setting : Setting) : Width :=
  if setting.addressMark then setting.width.other else setting.width

/-- The segment register that text shows for memory with a base, where the default would be
another one. -/
def segmentOf (setting : Setting) (base : Option Register) (pinned : Option Register) :
    Option Register :=
  let onStack := base = some (.word 5) || base = some (.dword 5) || base = some (.dword 4)
  let standard : Fin 8 := if onStack then 2 else 3
  match setting.segment with
  | some number =>
    if number = standard then none else some (pinned.getD (.segment number))
  | none => none

/-- What a mark in front of an opcode changes; other bytes are no marks. -/
def marked? (setting : Setting) (byte : UInt8) : Option Setting :=
  match byte.toNat with
  | 0x26 => some { setting with segment := some 0 }
  | 0x2E => some { setting with segment := some 1 }
  | 0x36 => some { setting with segment := some 2 }
  | 0x3E => some { setting with segment := some 3 }
  | 0x64 => some { setting with segment := some 4 }
  | 0x65 => some { setting with segment := some 5 }
  | 0x66 => some { setting with operandMark := true }
  | 0x67 => some { setting with addressMark := true }
  | 0xF0 => some { setting with lock := true }
  | 0xF2 => some { setting with repetition := some .whileNotEqual }
  | 0xF3 => some { setting with repetition := some .whileEqual }
  | _ => none

/-- The mark that the opcode takes: repetition marks count before the operand size mark. -/
def mark (setting : Setting) : Mark :=
  match setting.repetition with
  | some .whileEqual => .equal
  | some .whileNotEqual => .notEqual
  | none => if setting.operandMark then .size else .none

end Setting

def Mark.choose {α : Type} (mark : Mark) (plain size equal notEqual : α) : α :=
  match mark with
  | .none => plain
  | .size => size
  | .equal => equal
  | .notEqual => notEqual

end FlowDisasm.X86
