import FlowDisasm.X86.Table.Machine
import FlowDisasm.X86.Table.OneByte
import FlowDisasm.X86.Table.Paired
import FlowDisasm.X86.Table.Vector

/-!
# Opcodes behind the escape byte

Most of these came with the 80286 and its successors. What came after the Pentium is listed so that it
can be named when it is refused.
-/
namespace FlowDisasm.X86.TwoByte

open Entry (always memoryOnly)
open OneByte (conditionName)

def isControlRegister (number : Fin 8) : Bool :=
  number = 0 || number = 2 || number = 3 || number = 4

def controlMove (slots : List Slot) : Entry :=
  .registers fun modRM =>
    if isControlRegister modRM.reg then
      some { name := "MOV", slots, kind := .mov, feature := .intel386 }
    else none

def debugMove (slots : List Slot) : Entry :=
  .registers fun _ => some { name := "MOV", slots, kind := .mov, feature := .intel386 }

def bare (name : String) (feature : Feature) : Entry :=
  .plain { name, feature }

def row0 (setting : Setting) (low : Nat) : Entry :=
  match low with
  | 0x0 => Machine.selectorGroup
  | 0x1 => Machine.statusGroup setting
  | 0x2 => always { name := "LAR", slots := [.reg .operand, .rm .operand], feature := .intel286 }
  | 0x3 => always { name := "LSL", slots := [.reg .operand, .rm .operand], feature := .intel286 }
  | 0x5 => bare "SYSCALL" .later
  | 0x6 => bare "CLTS" .intel286
  | 0x7 => bare "SYSRET" .later
  | 0x8 => bare "INVD" .intel486
  | 0x9 =>
    if setting.repetition = some .whileEqual then bare "WBNOINVD" .later
    else bare "WBINVD" .intel486
  | 0xB => bare "UD2" .intel286
  | 0xD => Machine.prefetchGroup
  | 0xE => bare "FEMMS" .later
  | 0xF => Paired.entry
  | _ => .undefined 1

def row1 (setting : Setting) (low : Nat) : Entry :=
  match low with
  | 0x8 => Machine.cacheHintGroup
  | 0x9 | 0xA | 0xB | 0xD => always Machine.hint
  | 0xC => Machine.demotionGroup setting
  | 0xE => Machine.trackingGroup setting
  | 0xF => Machine.idleGroup
  | _ => Vector.entry setting (0x10 + low)

def row2 (setting : Setting) (low : Nat) : Entry :=
  match low with
  | 0x0 => controlMove [.rmDword, .control]
  | 0x1 => debugMove [.rmDword, .debug]
  | 0x2 => controlMove [.control, .rmDword]
  | 0x3 => debugMove [.debug, .rmDword]
  | _ => if low < 8 then .undefined 1 else Vector.entry setting (0x20 + low)

def unmarked (setting : Setting) (name : String) : Entry :=
  if setting.mark = .none then bare name .later else .undefined 0

def row3 (setting : Setting) (low : Nat) : Entry :=
  match low with
  | 0x0 => bare "WRMSR" .msr
  | 0x1 => bare "RDTSC" .tsc
  | 0x2 => bare "RDMSR" .msr
  | 0x3 => bare "RDPMC" .later
  | 0x4 => bare "SYSENTER" .later
  | 0x5 => bare "SYSEXIT" .later
  | 0x7 => unmarked setting "GETSEC"
  | _ => .undefined 1

def conditionalMove (low : Nat) : Entry :=
  always {
    name := "CMOV" ++ conditionName (Fin.ofNat 16 low), slots := [.reg .operand, .rm .operand],
    feature := .later }

def nearJump (low : Nat) : Entry :=
  .plain {
    name := "J" ++ conditionName (Fin.ofNat 16 low), slots := [.rel], kind := .jcc (Fin.ofNat 16 low),
    feature := .intel386, traits := [.sizeWord, .predicted, .bounded] }

def conditionalSet (low : Nat) : Entry :=
  always {
    name := "SET" ++ conditionName (Fin.ofNat 16 low), slots := [.rm .byte], feature := .intel386 }

def bitForm (name : String) (traits : List Trait) : Entry :=
  always { name, slots := [.rm .operand, .reg .operand], feature := .intel386, traits }

def bitGroup : Entry :=
  .modRM fun modRM =>
    let form (name : String) (traits : List Trait) : Option Form :=
      some { name, slots := [.sized .operand, .imm8], feature := .intel386, traits }
    match modRM.reg with
    | 4 => form "BT" []
    | 5 => form "BTS" [.lockable]
    | 6 => form "BTR" [.lockable]
    | 7 => form "BTC" [.lockable]
    | _ => none

def segmentStack (name : String) (register : Register) : Entry :=
  .plain { name, slots := [.fixed register], feature := .intel386, traits := [.sizeWord] }

def doubleShift (name : String) (count : Slot) : Entry :=
  always { name, slots := [.rm .operand, .reg .operand, count], feature := .intel386 }

def rowA (setting : Setting) (low : Nat) : Entry :=
  match low with
  | 0x0 => segmentStack "PUSH" .fs
  | 0x1 => segmentStack "POP" .fs
  | 0x2 => bare "CPUID" .cpuid
  | 0x3 => bitForm "BT" []
  | 0x4 => doubleShift "SHLD" .imm8
  | 0x5 => doubleShift "SHLD" (.fixed .cl)
  | 0x6 => Machine.digestGroup setting
  | 0x7 => Machine.cipherGroup setting
  | 0x8 => segmentStack "PUSH" .gs
  | 0x9 => segmentStack "POP" .gs
  | 0xA => bare "RSM" .smm
  | 0xB => bitForm "BTS" [.lockable]
  | 0xC => doubleShift "SHRD" .imm8
  | 0xD => doubleShift "SHRD" (.fixed .cl)
  | 0xE => Machine.stateGroup setting
  | 0xF => always { name := "IMUL", slots := [.reg .operand, .rm .operand], feature := .intel386 }
  | _ => .undefined 1

def farLoad (name : String) : Entry :=
  memoryOnly { name, slots := [.reg .operand, .memory none], feature := .intel386 }

def widening (name : String) (source : Size) : Entry :=
  always { name, slots := [.reg .operand, .sized source], feature := .intel386 }

/-- A scan for a bit, or the count that took its place behind a repetition mark. -/
def bitScan (setting : Setting) (name counting : String) : Entry :=
  if setting.repetition = some .whileEqual then
    always { name := counting, slots := [.reg .operand, .rm .operand], feature := .later }
  else always { name, slots := [.reg .operand, .rm .operand], feature := .intel386 }

def rowB (setting : Setting) (low : Nat) : Entry :=
  match low with
  | 0x0 => always {
      name := "CMPXCHG", slots := [.rm .byte, .reg .byte], feature := .intel486, traits := [.lockable] }
  | 0x1 => always {
      name := "CMPXCHG", slots := [.rm .operand, .reg .operand], feature := .intel486,
      traits := [.lockable] }
  | 0x2 => farLoad "LSS"
  | 0x3 => bitForm "BTR" [.lockable]
  | 0x4 => farLoad "LFS"
  | 0x5 => farLoad "LGS"
  | 0x6 => widening "MOVZX" .byte
  | 0x7 => widening "MOVZX" .word
  | 0x8 =>
    if setting.repetition = some .whileEqual then
      always { name := "POPCNT", slots := [.reg .operand, .rm .operand], feature := .later }
    else .undefined 1
  | 0x9 => always { name := "UD1", slots := [.reg .operand, .rm .operand], feature := .intel286 }
  | 0xA => bitGroup
  | 0xB => bitForm "BTC" [.lockable]
  | 0xC => bitScan setting "BSF" "TZCNT"
  | 0xD => bitScan setting "BSR" "LZCNT"
  | 0xE => widening "MOVSX" .byte
  | _ => widening "MOVSX" .word

def rowC (setting : Setting) (low : Nat) : Entry :=
  match low with
  | 0x0 => always {
      name := "XADD", slots := [.rm .byte, .reg .byte], feature := .intel486, traits := [.lockable] }
  | 0x1 => always {
      name := "XADD", slots := [.rm .operand, .reg .operand], feature := .intel486,
      traits := [.lockable] }
  | 0x7 => Machine.exchangeGroup setting
  | _ =>
    if low < 8 then Vector.entry setting (0xC0 + low)
    else .plain { name := "BSWAP", slots := [.low .operand], feature := .intel486 }

/-- What an opcode behind the escape byte stands for. -/
def entry (setting : Setting) (opcode : Nat) : Entry :=
  match opcode / 16 with
  | 0x0 => row0 setting (opcode % 16)
  | 0x1 => row1 setting (opcode % 16)
  | 0x2 => row2 setting (opcode % 16)
  | 0x3 => row3 setting (opcode % 16)
  | 0x4 => conditionalMove (opcode % 16)
  | 0x8 => nearJump (opcode % 16)
  | 0x9 => conditionalSet (opcode % 16)
  | 0xA => rowA setting (opcode % 16)
  | 0xB => rowB setting (opcode % 16)
  | 0xC => rowC setting (opcode % 16)
  | _ =>
    if opcode = 0x77 then unmarked setting "EMMS"
    else if opcode = 0xFF then
      always { name := "UD0", slots := [.reg .operand, .rm .operand], feature := .intel286 }
    else Vector.entry setting opcode

end FlowDisasm.X86.TwoByte
