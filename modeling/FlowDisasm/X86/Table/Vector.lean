import FlowDisasm.X86.Table.Marked

/-!
# Multimedia opcodes

These operations work on the registers of the two multimedia files, on packed integers and on packed or
single floats. The mark in front of the opcode tells the element or the register file.
-/
namespace FlowDisasm.X86.Vector

open Marked (later only choose onEitherFile)

/-- The packed and scalar float operations of 51 and of 54 to 5F, of both precisions. -/
def floatName : Nat → Option (String × Bool)
  | 0x1 => some ("SQRT", true)
  | 0x4 => some ("AND", false)
  | 0x5 => some ("ANDN", false)
  | 0x6 => some ("OR", false)
  | 0x7 => some ("XOR", false)
  | 0x8 => some ("ADD", true)
  | 0x9 => some ("MUL", true)
  | 0xC => some ("SUB", true)
  | 0xD => some ("MIN", true)
  | 0xE => some ("DIV", true)
  | 0xF => some ("MAX", true)
  | _ => none

def floatForm (mark : Mark) (low : Nat) (modRM : ModRM) : Option Form :=
  match low with
  | 0x0 =>
    if modRM.isMemory then none
    else (choose mark "MOVMSKPS" "MOVMSKPD" "" "").map (later · [.reg .dword, .vectorRm])
  | 0x2 => (choose mark "RSQRTPS" "" "RSQRTSS" "").map (later · [.vector, .vectorRm])
  | 0x3 => (choose mark "RCPPS" "" "RCPSS" "").map (later · [.vector, .vectorRm])
  | 0xA =>
    (choose mark "CVTPS2PD" "CVTPD2PS" "CVTSS2SD" "CVTSD2SS").map (later · [.vector, .vectorRm])
  | 0xB => (choose mark "CVTDQ2PS" "CVTPS2DQ" "CVTTPS2DQ" "").map (later · [.vector, .vectorRm])
  | _ =>
    match floatName low with
    | some (name, true) =>
      (choose mark (name ++ "PS") (name ++ "PD") (name ++ "SS") (name ++ "SD")).map
        (later · [.vector, .vectorRm])
    | some (name, false) =>
      (choose mark (name ++ "PS") (name ++ "PD") "" "").map (later · [.vector, .vectorRm])
    | none => none

def packedName : Nat → Option String
  | 0x60 => some "PUNPCKLBW"
  | 0x61 => some "PUNPCKLWD"
  | 0x62 => some "PUNPCKLDQ"
  | 0x63 => some "PACKSSWB"
  | 0x64 => some "PCMPGTB"
  | 0x65 => some "PCMPGTW"
  | 0x66 => some "PCMPGTD"
  | 0x67 => some "PACKUSWB"
  | 0x68 => some "PUNPCKHBW"
  | 0x69 => some "PUNPCKHWD"
  | 0x6A => some "PUNPCKHDQ"
  | 0x6B => some "PACKSSDW"
  | 0x74 => some "PCMPEQB"
  | 0x75 => some "PCMPEQW"
  | 0x76 => some "PCMPEQD"
  | 0xD1 => some "PSRLW"
  | 0xD2 => some "PSRLD"
  | 0xD3 => some "PSRLQ"
  | 0xD4 => some "PADDQ"
  | 0xD5 => some "PMULLW"
  | 0xD8 => some "PSUBUSB"
  | 0xD9 => some "PSUBUSW"
  | 0xDA => some "PMINUB"
  | 0xDB => some "PAND"
  | 0xDC => some "PADDUSB"
  | 0xDD => some "PADDUSW"
  | 0xDE => some "PMAXUB"
  | 0xDF => some "PANDN"
  | 0xE0 => some "PAVGB"
  | 0xE1 => some "PSRAW"
  | 0xE2 => some "PSRAD"
  | 0xE3 => some "PAVGW"
  | 0xE4 => some "PMULHUW"
  | 0xE5 => some "PMULHW"
  | 0xE8 => some "PSUBSB"
  | 0xE9 => some "PSUBSW"
  | 0xEA => some "PMINSW"
  | 0xEB => some "POR"
  | 0xEC => some "PADDSB"
  | 0xED => some "PADDSW"
  | 0xEE => some "PMAXSW"
  | 0xEF => some "PXOR"
  | 0xF1 => some "PSLLW"
  | 0xF2 => some "PSLLD"
  | 0xF3 => some "PSLLQ"
  | 0xF4 => some "PMULUDQ"
  | 0xF5 => some "PMADDWD"
  | 0xF6 => some "PSADBW"
  | 0xF8 => some "PSUBB"
  | 0xF9 => some "PSUBW"
  | 0xFA => some "PSUBD"
  | 0xFB => some "PSUBQ"
  | 0xFC => some "PADDB"
  | 0xFD => some "PADDW"
  | 0xFE => some "PADDD"
  | _ => none

/-- The shifts by an immediate of 71 to 73, by the size of their elements. -/
def shiftName (low : Nat) (mark : Mark) (reg : Fin 8) : Option String :=
  match low, reg with
  | 1, 2 => some "PSRLW"
  | 1, 4 => some "PSRAW"
  | 1, 6 => some "PSLLW"
  | 2, 2 => some "PSRLD"
  | 2, 4 => some "PSRAD"
  | 2, 6 => some "PSLLD"
  | 3, 2 => some "PSRLQ"
  | 3, 6 => some "PSLLQ"
  | 3, 3 => if mark = .size then some "PSRLDQ" else none
  | 3, 7 => if mark = .size then some "PSLLDQ" else none
  | _, _ => none

/-- A form that has to have registers, but is refused only behind its immediates. -/
def onRegisters (name : String) (slots : List Slot) : Form :=
  { later name slots with traits := [.registersOnly] }

def shiftForm (mark : Mark) (low : Nat) (modRM : ModRM) : Option Form :=
  match mark, shiftName low mark modRM.reg with
  | .none, some name => some (onRegisters name [.multimediaRm, .imm8])
  | .size, some name => some (onRegisters name [.vectorRm, .imm8])
  | _, _ => none

/-- The extraction and insertion of bit fields of 78 and 79, and the access to the state of a virtual
machine that they share their opcodes with. -/
def fieldForm (mark : Mark) (opcode : Nat) (modRM : ModRM) : Option Form :=
  match opcode, mark with
  | 0x78, .none => some (later "VMREAD" [.rm .dword, .reg .dword])
  | 0x78, .size =>
    if modRM.reg = 0 then some (onRegisters "EXTRQ" [.vectorRm, .imm8, .imm8]) else none
  | 0x78, .notEqual => some (onRegisters "INSERTQ" [.vector, .vectorRm, .imm8, .imm8])
  | 0x79, .none => some (later "VMWRITE" [.reg .dword, .rm .dword])
  | 0x79, .size => if modRM.isMemory then none else some (later "EXTRQ" [.vector, .vectorRm])
  | 0x79, .notEqual => if modRM.isMemory then none else some (later "INSERTQ" [.vector, .vectorRm])
  | _, _ => none

def comparisons : List String :=
  ["EQ", "LT", "LE", "UNORD", "NEQ", "NLT", "NLE", "ORD"]

/-- A comparison of floats, with a mnemonic of its own for each of the first immediates. -/
def comparisonForm (mark : Mark) : Option Form :=
  (choose mark "PS" "PD" "SS" "SD").map fun element =>
    { later ("CMP" ++ element) [.vector, .vectorRm, .imm8] with
      aliases := comparisons.zipIdx.map fun (comparison, value) =>
        (value, "CMP" ++ comparison ++ element) }

/-- A masked store to the memory at a register that text does not name. Text shows the segment of a mark
as an operand. -/
def maskedStore (setting : Setting) : Option Form :=
  let segment : List Slot := match setting.segment with
    | some number => [.fixed (.segment number)]
    | none => []
  let store (form : Option Form) : Option Form :=
    form.map fun form => { form with traits := [.addressWord] }
  match setting.mark with
  | .none => store (onEitherFile .none "MASKMOVQ" segment)
  | .size => store (onEitherFile .size "MASKMOVDQU" segment)
  | _ => none

/-- The moves of 10 to 17 and of 28 to 2F. -/
def moveForm (mark : Mark) (opcode : Nat) (modRM : ModRM) : Option Form :=
  match opcode with
  | 0x10 => (choose mark "MOVUPS" "MOVUPD" "MOVSS" "MOVSD").map (later · [.vector, .vectorRm])
  | 0x11 => (choose mark "MOVUPS" "MOVUPD" "MOVSS" "MOVSD").map (later · [.vectorRm, .vector])
  | 0x12 =>
    if modRM.isMemory then
      (choose mark "MOVLPS" "MOVLPD" "MOVSLDUP" "MOVDDUP").map (later · [.vector, .vectorRm])
    else (choose mark "MOVHLPS" "" "MOVSLDUP" "MOVDDUP").map (later · [.vector, .vectorRm])
  | 0x13 =>
    if modRM.isMemory then (choose mark "MOVLPS" "MOVLPD" "" "").map (later · [.vectorRm, .vector])
    else none
  | 0x14 => (choose mark "UNPCKLPS" "UNPCKLPD" "" "").map (later · [.vector, .vectorRm])
  | 0x15 => (choose mark "UNPCKHPS" "UNPCKHPD" "" "").map (later · [.vector, .vectorRm])
  | 0x16 =>
    if modRM.isMemory then
      (choose mark "MOVHPS" "MOVHPD" "MOVSHDUP" "").map (later · [.vector, .vectorRm])
    else (choose mark "MOVLHPS" "" "MOVSHDUP" "").map (later · [.vector, .vectorRm])
  | 0x17 =>
    if modRM.isMemory then (choose mark "MOVHPS" "MOVHPD" "" "").map (later · [.vectorRm, .vector])
    else none
  | 0x28 => (choose mark "MOVAPS" "MOVAPD" "" "").map (later · [.vector, .vectorRm])
  | 0x29 => (choose mark "MOVAPS" "MOVAPD" "" "").map (later · [.vectorRm, .vector])
  | 0x2A =>
    match mark with
    | .none => some (later "CVTPI2PS" [.vector, .multimediaRm])
    | .size => some (later "CVTPI2PD" [.vector, .multimediaRm])
    | .equal => some (later "CVTSI2SS" [.vector, .sized .dword])
    | .notEqual => some (later "CVTSI2SD" [.vector, .sized .dword])
  | 0x2B =>
    if modRM.isMemory then
      (choose mark "MOVNTPS" "MOVNTPD" "MOVNTSS" "MOVNTSD").map (later · [.vectorRm, .vector])
    else none
  | 0x2C =>
    match mark with
    | .none => some (later "CVTTPS2PI" [.multimedia, .vectorRm])
    | .size => some (later "CVTTPD2PI" [.multimedia, .vectorRm])
    | .equal => some (later "CVTTSS2SI" [.reg .dword, .vectorRm])
    | .notEqual => some (later "CVTTSD2SI" [.reg .dword, .vectorRm])
  | 0x2D =>
    match mark with
    | .none => some (later "CVTPS2PI" [.multimedia, .vectorRm])
    | .size => some (later "CVTPD2PI" [.multimedia, .vectorRm])
    | .equal => some (later "CVTSS2SI" [.reg .dword, .vectorRm])
    | .notEqual => some (later "CVTSD2SI" [.reg .dword, .vectorRm])
  | 0x2E => (choose mark "UCOMISS" "UCOMISD" "" "").map (later · [.vector, .vectorRm])
  | 0x2F => (choose mark "COMISS" "COMISD" "" "").map (later · [.vector, .vectorRm])
  | _ => none

/-- The moves between register files and memory, and the shuffles, of 6C to 7F and behind C1. -/
def transferForm (mark : Mark) (opcode : Nat) (modRM : ModRM) : Option Form :=
  match opcode with
  | 0x6C => (choose mark "" "PUNPCKLQDQ" "" "").map (later · [.vector, .vectorRm])
  | 0x6D => (choose mark "" "PUNPCKHQDQ" "" "").map (later · [.vector, .vectorRm])
  | 0x6E =>
    match mark with
    | .none => some (later "MOVD" [.multimedia, .rm .dword])
    | .size => some (later "MOVD" [.vector, .rm .dword])
    | _ => none
  | 0x6F =>
    match mark with
    | .none => some (later "MOVQ" [.multimedia, .multimediaRm])
    | .size => some (later "MOVDQA" [.vector, .vectorRm])
    | .equal => some (later "MOVDQU" [.vector, .vectorRm])
    | .notEqual => none
  | 0x70 =>
    match mark with
    | .none => some (later "PSHUFW" [.multimedia, .multimediaRm, .imm8])
    | .size => some (later "PSHUFD" [.vector, .vectorRm, .imm8])
    | .equal => some (later "PSHUFHW" [.vector, .vectorRm, .imm8])
    | .notEqual => some (later "PSHUFLW" [.vector, .vectorRm, .imm8])
  | 0x7C => (choose mark "" "HADDPD" "" "HADDPS").map (later · [.vector, .vectorRm])
  | 0x7D => (choose mark "" "HSUBPD" "" "HSUBPS").map (later · [.vector, .vectorRm])
  | 0x7E =>
    match mark with
    | .none => some (later "MOVD" [.rm .dword, .multimedia])
    | .size => some (later "MOVD" [.rm .dword, .vector])
    | .equal => some (later "MOVQ" [.vector, .vectorRm])
    | .notEqual => none
  | 0x7F =>
    match mark with
    | .none => some (later "MOVQ" [.multimediaRm, .multimedia])
    | .size => some (later "MOVDQA" [.vectorRm, .vector])
    | .equal => some (later "MOVDQU" [.vectorRm, .vector])
    | .notEqual => none
  | 0xC2 => comparisonForm mark
  | 0xC3 =>
    if modRM.isMemory then (choose mark "MOVNTI" "" "" "").map (later · [.rm .dword, .reg .dword])
    else none
  | 0xC4 =>
    match mark with
    | .none => some (later "PINSRW" [.multimedia, .rm .dword, .imm8])
    | .size => some (later "PINSRW" [.vector, .rm .dword, .imm8])
    | _ => none
  | 0xC5 =>
    match mark with
    | .none => some (onRegisters "PEXTRW" [.reg .dword, .multimediaRm, .imm8])
    | .size => some (onRegisters "PEXTRW" [.reg .dword, .vectorRm, .imm8])
    | _ => none
  | 0xC6 => (choose mark "SHUFPS" "SHUFPD" "" "").map (later · [.vector, .vectorRm, .imm8])
  | 0xD0 => (choose mark "" "ADDSUBPD" "" "ADDSUBPS").map (later · [.vector, .vectorRm])
  | 0xD6 =>
    match mark with
    | .size => some (later "MOVQ" [.vectorRm, .vector])
    | .equal => if modRM.isMemory then none else some (later "MOVQ2DQ" [.vector, .multimediaRm])
    | .notEqual => if modRM.isMemory then none else some (later "MOVDQ2Q" [.multimedia, .vectorRm])
    | .none => none
  | 0xD7 =>
    if modRM.isMemory then none
    else
      match mark with
      | .none => some (later "PMOVMSKB" [.reg .dword, .multimediaRm])
      | .size => some (later "PMOVMSKB" [.reg .dword, .vectorRm])
      | _ => none
  | 0xE6 => (choose mark "" "CVTTPD2DQ" "CVTDQ2PD" "CVTPD2DQ").map (later · [.vector, .vectorRm])
  | 0xE7 =>
    if modRM.isMemory then
      match mark with
      | .none => some (later "MOVNTQ" [.multimediaRm, .multimedia])
      | .size => some (later "MOVNTDQ" [.vectorRm, .vector])
      | _ => none
    else none
  | 0xF0 =>
    if modRM.isMemory then (choose mark "" "" "" "LDDQU").map (later · [.vector, .vectorRm])
    else none
  | _ => none

def entry (setting : Setting) (opcode : Nat) : Entry :=
  let mark := setting.mark
  .modRM fun modRM =>
    match packedName opcode with
    | some name => onEitherFile mark name []
    | none =>
      if opcode < 0x30 then moveForm mark opcode modRM
      else if opcode < 0x60 then floatForm mark (opcode % 16) modRM
      else if 0x71 ≤ opcode && opcode ≤ 0x73 then shiftForm mark (opcode % 16) modRM
      else if opcode = 0x78 || opcode = 0x79 then fieldForm mark opcode modRM
      else if opcode = 0xF7 then if modRM.isMemory then none else maskedStore setting
      else transferForm mark opcode modRM

end FlowDisasm.X86.Vector
