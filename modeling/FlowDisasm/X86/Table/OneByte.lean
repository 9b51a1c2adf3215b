import FlowDisasm.X86.Entry

/-!
# Opcodes of one byte

The table goes by rows of sixteen opcodes. Groups choose their form by the register field of the
addressing byte, and some of them have members for memory only.
-/
namespace FlowDisasm.X86.OneByte

open Entry (always memoryOnly)

def arithmeticName : Fin 8 → String
  | 0 => "ADD"
  | 1 => "OR"
  | 2 => "ADC"
  | 3 => "SBB"
  | 4 => "AND"
  | 5 => "SUB"
  | 6 => "XOR"
  | 7 => "CMP"

/-- Only the comparison leaves its destination alone, so it cannot be locked. -/
def arithmeticTraits (operation : Fin 8) : List Trait :=
  if operation = 7 then [] else [.lockable]

instance neZero_conditions : @NeZero Nat Zero.ofOfNat0 16 := ⟨by decide⟩

def conditionName : Fin 16 → String
  | 0 => "O"
  | 1 => "NO"
  | 2 => "B"
  | 3 => "AE"
  | 4 => "E"
  | 5 => "NE"
  | 6 => "BE"
  | 7 => "A"
  | 8 => "S"
  | 9 => "NS"
  | 10 => "P"
  | 11 => "NP"
  | 12 => "L"
  | 13 => "GE"
  | 14 => "LE"
  | _ => "G"

/-- The shifts and rotations in the order of their opcodes; one has two of them. -/
def shiftName : Fin 8 → String
  | 0 => "ROL"
  | 1 => "ROR"
  | 2 => "RCL"
  | 3 => "RCR"
  | 4 => "SHL"
  | 5 => "SHR"
  | 6 => "SHL"
  | 7 => "SAR"

/-- The forms of a two-operand operation, by the low bits of the opcode. -/
def arithmetic (operation : Fin 8) (low : Nat) : Entry :=
  let name := arithmeticName operation
  let traits := arithmeticTraits operation
  match low with
  | 0 => always { name, slots := [.rm .byte, .reg .byte], traits }
  | 1 => always { name, slots := [.rm .operand, .reg .operand], traits }
  | 2 => always { name, slots := [.reg .byte, .rm .byte] }
  | 3 => always { name, slots := [.reg .operand, .rm .operand] }
  | 4 => .plain { name, slots := [.accumulator .byte, .imm8] }
  | _ => .plain { name, slots := [.accumulator .operand, .immOperand] }

def segmentStack (name : String) (register : Register) : Entry :=
  .plain { name, slots := [.fixed register], traits := [.sizeWord] }

/-- Opcodes below 40: the two-operand operations, and what stands between them. -/
def arithmeticRows (opcode : Nat) : Entry :=
  if opcode % 8 < 6 then arithmetic (Fin.ofNat 8 (opcode / 8)) (opcode % 8)
  else
    match opcode with
    | 0x06 => segmentStack "PUSH" .es
    | 0x07 => segmentStack "POP" .es
    | 0x0E => segmentStack "PUSH" .cs
    | 0x16 => segmentStack "PUSH" .ss
    | 0x17 => segmentStack "POP" .ss
    | 0x1E => segmentStack "PUSH" .ds
    | 0x1F => segmentStack "POP" .ds
    | 0x27 => .plain { name := "DAA" }
    | 0x2F => .plain { name := "DAS" }
    | 0x37 => .plain { name := "AAA" }
    | 0x3F => .plain { name := "AAS" }
    | _ => .undefined 1

/-- Opcodes 40 to 5F: one register in the opcode. -/
def registerRows (opcode : Nat) : Entry :=
  let name := match opcode / 8 with
    | 8 => "INC"
    | 9 => "DEC"
    | 10 => "PUSH"
    | _ => "POP"
  .plain { name, slots := [.low .operand] }

def row6 (low : Nat) : Entry :=
  match low with
  | 0x0 => .plain { name := "PUSHA", wideName := "PUSHAD", feature := .intel186 }
  | 0x1 => .plain { name := "POPA", wideName := "POPAD", feature := .intel186 }
  | 0x3 => always {
      name := "ARPL", slots := [.narrowed (.rm .operand), .narrowed (.reg .operand)],
      feature := .intel286 }
  | 0x8 => .plain {
      name := "PUSH", slots := [.immOperand], feature := .intel186, traits := [.sizeWord] }
  | 0x9 => always {
      name := "IMUL", slots := [.reg .operand, .rm .operand, .immOperand], feature := .intel186,
      traits := [.collapsing] }
  | 0xA => .plain {
      name := "PUSH", slots := [.imm8Signed], feature := .intel186, traits := [.sizeWord] }
  | 0xB => always {
      name := "IMUL", slots := [.reg .operand, .rm .operand, .imm8Signed], feature := .intel186,
      traits := [.collapsing] }
  | 0xC => .plain {
      name := "INSB", slots := [.stringDestination, .fixed .dx], feature := .intel186,
      traits := [.repeated] }
  | 0xD => .plain {
      name := "INSW", wideName := "INSD", slots := [.stringDestination, .fixed .dx],
      feature := .intel186, traits := [.repeated] }
  | 0xE => .plain {
      name := "OUTSB", slots := [.fixed .dx, .stringSource], feature := .intel186,
      traits := [.repeated] }
  | 0xF => .plain {
      name := "OUTSW", wideName := "OUTSD", slots := [.fixed .dx, .stringSource],
      feature := .intel186, traits := [.repeated] }
  | _ => .undefined 1

/-- A form that has to have memory; otherwise the opcode starts a later extension. -/
def memoryOr (remainder : ModRM → Remainder) (form : Form) : Entry :=
  .modRMOr (fun modRM => if modRM.isMemory then some form else none) remainder

/-- The opcode table that the addressing byte of a later extension names. -/
def extensionTable (modRM : ModRM) : Nat :=
  8 * (modRM.reg.val % 4) + modRM.rm.val

/-- What is taken of a later extension that has one of some tables. -/
def extensionOf (tables : List Nat) (known unknown : Remainder) (modRM : ModRM) : Remainder :=
  if extensionTable modRM ∈ tables then known else unknown

def bound : Entry :=
  memoryOr (extensionOf [1, 2, 3, 5, 6, 17, 18, 19, 21, 22] (.addressed 3) (.bytes 4)) {
    name := "BOUND", slots := [.reg .operand, .memoryBySize .dword .qword], feature := .intel186 }

def shortJump (low : Nat) : Entry :=
  .plain {
    name := "J" ++ conditionName (Fin.ofNat 16 low), slots := [.rel8], kind := .jcc (Fin.ofNat 16 low),
    traits := [.sizeWord, .predicted, .bounded] }

def arithmeticGroup (size : Size) (immediate : Slot) : Entry :=
  .modRM fun modRM => some {
    name := arithmeticName modRM.reg, slots := [.sized size, immediate],
    traits := arithmeticTraits modRM.reg }

/-- A pop to memory or a register; most other register fields start a later extension. -/
def popGroup : Entry :=
  .modRMOr
    (fun modRM =>
      if modRM.reg = 0 then some { name := "POP", slots := [.sized .operand] } else none)
    (fun modRM =>
      if modRM.reg.val % 4 = 0 then .bytes 0
      else extensionOf [8, 9, 10] (.addressed 2) (.bytes 1) modRM)

def row8 (low : Nat) : Entry :=
  match low with
  | 0x0 | 0x2 => arithmeticGroup .byte .imm8
  | 0x1 => arithmeticGroup .operand .immOperand
  | 0x3 => arithmeticGroup .operand .imm8Signed
  | 0x4 => always { name := "TEST", slots := [.rm .byte, .reg .byte] }
  | 0x5 => always { name := "TEST", slots := [.rm .operand, .reg .operand] }
  | 0x6 => always {
      name := "XCHG", slots := [.rm .byte, .reg .byte], traits := [.lockable, .exclusive] }
  | 0x7 => always {
      name := "XCHG", slots := [.rm .operand, .reg .operand], traits := [.lockable, .exclusive] }
  | 0x8 => always {
      name := "MOV", slots := [.rm .byte, .reg .byte], kind := .mov, traits := [.releasing] }
  | 0x9 => always {
      name := "MOV", slots := [.rm .operand, .reg .operand], kind := .mov,
      traits := [.releasing] }
  | 0xA => always { name := "MOV", slots := [.reg .byte, .rm .byte], kind := .mov }
  | 0xB => always { name := "MOV", slots := [.reg .operand, .rm .operand], kind := .mov }
  | 0xC => always { name := "MOV", slots := [.rm .operand, .segment], kind := .mov }
  | 0xD => memoryOnly {
      name := "LEA", slots := [.reg .operand, .memory none], traits := [.addressOnly] }
  | 0xE => always {
      name := "MOV", slots := [.segmentTarget, .narrowed (.rm .operand)], kind := .mov }
  | _ => popGroup

/-- The opcode that does nothing, unless a mark in front gives it a meaning. -/
def idle (setting : Setting) : Form :=
  if setting.repetition = some .whileEqual then { name := "PAUSE", feature := .later }
  else if setting.operandMark then
    { name := "XCHG", slots := [.implied .idleRegister, .implied .idleRegister] }
  else { name := "NOP" }

def row9 (setting : Setting) (low : Nat) : Entry :=
  match low with
  | 0x0 => .plain (idle setting)
  | 0x8 => .plain { name := "CBW", wideName := "CWDE" }
  | 0x9 => .plain { name := "CWD", wideName := "CDQ" }
  | 0xA => .plain {
      name := "CALL", slots := [.farPointer], kind := .call, traits := [.sizeWord, .far] }
  | 0xB => .plain { name := "FWAIT" }
  | 0xC => .plain { name := "PUSHF", wideName := "PUSHFD" }
  | 0xD => .plain { name := "POPF", wideName := "POPFD" }
  | 0xE => .plain { name := "SAHF" }
  | 0xF => .plain { name := "LAHF" }
  | _ => .plain { name := "XCHG", slots := [.low .operand, .accumulator .operand] }

def rowA (low : Nat) : Entry :=
  match low with
  | 0x0 => .plain {
      name := "MOV", slots := [.accumulator .byte, .direct], kind := .mov,
      traits := [.addressWord] }
  | 0x1 => .plain {
      name := "MOV", slots := [.accumulator .operand, .direct], kind := .mov,
      traits := [.addressWord] }
  | 0x2 => .plain {
      name := "MOV", slots := [.direct, .accumulator .byte], kind := .mov,
      traits := [.addressWord] }
  | 0x3 => .plain {
      name := "MOV", slots := [.direct, .accumulator .operand], kind := .mov,
      traits := [.addressWord] }
  | 0x4 => .plain {
      name := "MOVSB", slots := [.stringDestination, .stringSource], traits := [.repeated] }
  | 0x5 => .plain {
      name := "MOVSW", wideName := "MOVSD", slots := [.stringDestination, .stringSource],
      traits := [.repeated] }
  | 0x6 => .plain {
      name := "CMPSB", slots := [.stringSource, .stringDestination], traits := [.compared] }
  | 0x7 => .plain {
      name := "CMPSW", wideName := "CMPSD", slots := [.stringSource, .stringDestination],
      traits := [.compared] }
  | 0x8 => .plain { name := "TEST", slots := [.accumulator .byte, .imm8] }
  | 0x9 => .plain { name := "TEST", slots := [.accumulator .operand, .immOperand] }
  | 0xA => .plain {
      name := "STOSB", slots := [.stringDestination, .hidden (.accumulator .byte)],
      traits := [.repeated] }
  | 0xB => .plain {
      name := "STOSW", wideName := "STOSD",
      slots := [.stringDestination, .hidden (.accumulator .operand)], traits := [.repeated] }
  | 0xC => .plain {
      name := "LODSB", slots := [.hidden (.accumulator .byte), .stringSource],
      traits := [.repeated] }
  | 0xD => .plain {
      name := "LODSW", wideName := "LODSD",
      slots := [.hidden (.accumulator .operand), .stringSource], traits := [.repeated] }
  | 0xE => .plain {
      name := "SCASB", slots := [.hidden (.accumulator .byte), .stringDestination],
      traits := [.compared] }
  | _ => .plain {
      name := "SCASW", wideName := "SCASD",
      slots := [.hidden (.accumulator .operand), .stringDestination], traits := [.compared] }

def rowB (low : Nat) : Entry :=
  if low < 8 then .plain { name := "MOV", slots := [.low .byte, .imm8], kind := .mov }
  else .plain { name := "MOV", slots := [.low .operand, .immOperand], kind := .mov }

def shiftGroup (size : Size) (count : Slot) (feature : Feature) : Entry :=
  .modRM fun modRM =>
    some { name := shiftName modRM.reg, slots := [.sized size, count], feature }

/-- An immediate move to memory or a register, and the two transaction opcodes beside it. -/
def immediateMove (size : Size) (immediate : Slot) (beside : Form) : Entry :=
  .modRM fun modRM =>
    if modRM.reg = 0 then
      some { name := "MOV", slots := [.sized size, immediate], kind := .mov,
             traits := [.releasing] }
    else if modRM.reg = 7 && modRM.mode = 3 && modRM.rm = 0 then some beside
    else none

def farLoad (name : String) : Form :=
  { name, slots := [.reg .operand, .memory none] }

def rowC (low : Nat) : Entry :=
  match low with
  | 0x0 => shiftGroup .byte .imm8 .intel186
  | 0x1 => shiftGroup .operand .imm8 .intel186
  | 0x2 => .plain {
      name := "RET", slots := [.imm16], kind := .ret, traits := [.sizeWord, .bounded] }
  | 0x3 => .plain { name := "RET", kind := .ret, traits := [.sizeWord, .bounded, .padded] }
  | 0x4 => memoryOr (extensionOf [1, 2, 3] (.addressed 2) (.bytes 1)) (farLoad "LES")
  | 0x5 => memoryOr (fun _ => .addressed 1) (farLoad "LDS")
  | 0x6 => immediateMove .byte .imm8 { name := "XABORT", slots := [.imm8], feature := .later }
  | 0x7 => immediateMove .operand .immOperand {
      name := "XBEGIN", slots := [.rel], feature := .later, traits := [.sizeWord, .wideTarget] }
  | 0x8 => .plain {
      name := "ENTER", slots := [.imm16, .imm8], feature := .intel186, traits := [.sizeWord] }
  | 0x9 => .plain { name := "LEAVE", feature := .intel186, traits := [.sizeWord] }
  | 0xA => .plain {
      name := "RET", slots := [.imm16], kind := .retf, traits := [.sizeWord, .far] }
  | 0xB => .plain { name := "RET", kind := .retf, traits := [.sizeWord, .far] }
  | 0xC => .plain { name := "INT3" }
  | 0xD => .plain { name := "INT", slots := [.imm8], kind := .int }
  | 0xE => .plain { name := "INTO" }
  | _ => .plain { name := "IRET", wideName := "IRETD", kind := .iret }

def rowD (low : Nat) : Entry :=
  match low with
  | 0x0 => shiftGroup .byte .one .intel8086
  | 0x1 => shiftGroup .operand .one .intel8086
  | 0x2 => shiftGroup .byte (.fixed .cl) .intel8086
  | 0x3 => shiftGroup .operand (.fixed .cl) .intel8086
  | 0x4 => .plain { name := "AAM", slots := [.imm8] }
  | 0x5 => .plain { name := "AAD", slots := [.imm8] }
  | 0x6 => .plain { name := "SALC" }
  | _ => .plain { name := "XLAT", slots := [.lookup] }

/-- A loop with a count in the register of the address size. -/
def counting (name : String) (kind : Mnemonic) : Entry :=
  .plain {
    name, slots := [.rel8], kind, traits := [.sizeWord, .addressWord, .counted] }

def emptied (name : String) (kind : Mnemonic) : Entry :=
  .plain { name, slots := [.rel8], kind, traits := [.sizeWord, .counted] }

def rowE (setting : Setting) (low : Nat) : Entry :=
  match low with
  | 0x0 => counting "LOOPNE" .loopne
  | 0x1 => counting "LOOPE" .loope
  | 0x2 => counting "LOOP" .loop
  | 0x3 =>
    match setting.addressSize with
    | .bits16 => emptied "JCXZ" .jcxz
    | .bits32 => emptied "JECXZ" .jecxz
  | 0x4 => .plain { name := "IN", slots := [.accumulator .byte, .imm8] }
  | 0x5 => .plain { name := "IN", slots := [.accumulator .operand, .imm8] }
  | 0x6 => .plain { name := "OUT", slots := [.imm8, .accumulator .byte] }
  | 0x7 => .plain { name := "OUT", slots := [.imm8, .accumulator .operand] }
  | 0x8 => .plain {
      name := "CALL", slots := [.rel], kind := .call, traits := [.sizeWord, .bounded] }
  | 0x9 => .plain {
      name := "JMP", slots := [.rel], kind := .jmp, traits := [.sizeWord, .bounded] }
  | 0xA => .plain {
      name := "JMP", slots := [.farPointer], kind := .jmp, traits := [.sizeWord, .far] }
  | 0xB => .plain { name := "JMP", slots := [.rel8], kind := .jmp, traits := [.sizeWord] }
  | 0xC => .plain { name := "IN", slots := [.accumulator .byte, .fixed .dx] }
  | 0xD => .plain { name := "IN", slots := [.accumulator .operand, .fixed .dx] }
  | 0xE => .plain { name := "OUT", slots := [.fixed .dx, .accumulator .byte] }
  | _ => .plain { name := "OUT", slots := [.fixed .dx, .accumulator .operand] }

def unaryGroup (size : Size) (immediate : Slot) : Entry :=
  .modRM fun modRM => some <|
    match modRM.reg with
    | 0 | 1 => { name := "TEST", slots := [.sized size, immediate] }
    | 2 => { name := "NOT", slots := [.sized size], traits := [.lockable] }
    | 3 => { name := "NEG", slots := [.sized size], traits := [.lockable] }
    | 4 => { name := "MUL", slots := [.sized size] }
    | 5 => { name := "IMUL", slots := [.sized size] }
    | 6 => { name := "DIV", slots := [.sized size] }
    | 7 => { name := "IDIV", slots := [.sized size] }

def byteStepGroup : Entry :=
  .modRM fun modRM =>
    match modRM.reg with
    | 0 => some { name := "INC", slots := [.sized .byte], traits := [.lockable] }
    | 1 => some { name := "DEC", slots := [.sized .byte], traits := [.lockable] }
    | _ => none

def stepGroup : Entry :=
  .modRM fun modRM =>
    match modRM.reg with
    | 0 => some { name := "INC", slots := [.sized .operand], traits := [.lockable] }
    | 1 => some { name := "DEC", slots := [.sized .operand], traits := [.lockable] }
    | 2 => some {
        name := "CALL", slots := [.sized .operand], kind := .call, traits := [.bounded, .tracked] }
    | 3 =>
      if modRM.isMemory then
        some { name := "CALL", slots := [.memoryBySize .dword .fword], kind := .call,
               traits := [.far] }
      else none
    | 4 => some {
        name := "JMP", slots := [.sized .operand], kind := .jmp, traits := [.bounded, .tracked] }
    | 5 =>
      if modRM.isMemory then
        some { name := "JMP", slots := [.memoryBySize .dword .fword], kind := .jmp,
               traits := [.far] }
      else none
    | 6 => some { name := "PUSH", slots := [.sized .operand] }
    | 7 => none

def rowF (low : Nat) : Entry :=
  match low with
  | 0x1 => .plain { name := "INT1", feature := .intel386 }
  | 0x4 => .plain { name := "HLT" }
  | 0x5 => .plain { name := "CMC" }
  | 0x6 => unaryGroup .byte .imm8
  | 0x7 => unaryGroup .operand .immOperand
  | 0x8 => .plain { name := "CLC" }
  | 0x9 => .plain { name := "STC" }
  | 0xA => .plain { name := "CLI" }
  | 0xB => .plain { name := "STI" }
  | 0xC => .plain { name := "CLD" }
  | 0xD => .plain { name := "STD" }
  | 0xE => byteStepGroup
  | 0xF => stepGroup
  | _ => .undefined 1

/-- What an opcode stands for that is no mark, no escape and no float operation. -/
def entry (setting : Setting) (opcode : Nat) : Entry :=
  match opcode / 16 with
  | 0x4 | 0x5 => registerRows opcode
  | 0x6 => if opcode = 0x62 then bound else row6 (opcode % 16)
  | 0x7 => shortJump (opcode % 16)
  | 0x8 => row8 (opcode % 16)
  | 0x9 => row9 setting (opcode % 16)
  | 0xA => rowA (opcode % 16)
  | 0xB => rowB (opcode % 16)
  | 0xC => rowC (opcode % 16)
  | 0xD => rowD (opcode % 16)
  | 0xE => rowE setting (opcode % 16)
  | 0xF => rowF (opcode % 16)
  | _ => arithmeticRows opcode

end FlowDisasm.X86.OneByte
