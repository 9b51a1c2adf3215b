import FlowDisasm.X86.Table.Marked

/-!
# Opcodes behind two escape bytes

Two opcodes behind the escape byte are escapes themselves. The first leads to operations on two operands,
the second to operations with an immediate.
-/
namespace FlowDisasm.X86.ThreeByte

open Marked (later only choose onEitherFile)

/-- The packed operations on either register file behind the first escape. -/
def packedName : Nat → Option String
  | 0x00 => some "PSHUFB"
  | 0x01 => some "PHADDW"
  | 0x02 => some "PHADDD"
  | 0x03 => some "PHADDSW"
  | 0x04 => some "PMADDUBSW"
  | 0x05 => some "PHSUBW"
  | 0x06 => some "PHSUBD"
  | 0x07 => some "PHSUBSW"
  | 0x08 => some "PSIGNB"
  | 0x09 => some "PSIGNW"
  | 0x0A => some "PSIGND"
  | 0x0B => some "PMULHRSW"
  | 0x1C => some "PABSB"
  | 0x1D => some "PABSW"
  | 0x1E => some "PABSD"
  | _ => none

/-- The operations behind the first escape that need the operand size mark. -/
def sizeMarkedName : Nat → Option String
  | 0x10 => some "PBLENDVB"
  | 0x14 => some "BLENDVPS"
  | 0x15 => some "BLENDVPD"
  | 0x17 => some "PTEST"
  | 0x20 => some "PMOVSXBW"
  | 0x21 => some "PMOVSXBD"
  | 0x22 => some "PMOVSXBQ"
  | 0x23 => some "PMOVSXWD"
  | 0x24 => some "PMOVSXWQ"
  | 0x25 => some "PMOVSXDQ"
  | 0x28 => some "PMULDQ"
  | 0x29 => some "PCMPEQQ"
  | 0x2B => some "PACKUSDW"
  | 0x30 => some "PMOVZXBW"
  | 0x31 => some "PMOVZXBD"
  | 0x32 => some "PMOVZXBQ"
  | 0x33 => some "PMOVZXWD"
  | 0x34 => some "PMOVZXWQ"
  | 0x35 => some "PMOVZXDQ"
  | 0x37 => some "PCMPGTQ"
  | 0x38 => some "PMINSB"
  | 0x39 => some "PMINSD"
  | 0x3A => some "PMINUW"
  | 0x3B => some "PMINUD"
  | 0x3C => some "PMAXSB"
  | 0x3D => some "PMAXSD"
  | 0x3E => some "PMAXUW"
  | 0x3F => some "PMAXUD"
  | 0x40 => some "PMULLD"
  | 0x41 => some "PHMINPOSUW"
  | 0xCF => some "GF2P8MULB"
  | 0xDB => some "AESIMC"
  | _ => none

def digestName : Nat → Option String
  | 0xC8 => some "SHA1NEXTE"
  | 0xC9 => some "SHA1MSG1"
  | 0xCA => some "SHA1MSG2"
  | 0xCB => some "SHA256RNDS2"
  | 0xCC => some "SHA256MSG1"
  | 0xCD => some "SHA256MSG2"
  | _ => none

def wideCipherName : Fin 8 → Option String
  | 0 => some "AESENCWIDE128KL"
  | 1 => some "AESDECWIDE128KL"
  | 2 => some "AESENCWIDE256KL"
  | 3 => some "AESDECWIDE256KL"
  | _ => none

/-- A round of a cipher on registers, or a whole cipher with the key in memory. -/
def cipherForm (mark : Mark) (modRM : ModRM) (round withKey : String) : Option Form :=
  match mark with
  | .size => some (later round [.vector, .vectorRm])
  | .equal =>
    if modRM.isMemory && !withKey.isEmpty then some (later withKey [.vector, .memory none])
    else none
  | _ => none

def ifMemory (modRM : ModRM) (form : Option Form) : Option Form :=
  if modRM.isMemory then form else none

def singleForm (mark : Mark) (opcode : Nat) (modRM : ModRM) : Option Form :=
  match opcode with
  | 0x2A => ifMemory modRM (only .size mark (later "MOVNTDQA" [.vector, .memory none]))
  | 0x80 => ifMemory modRM (only .size mark (later "INVEPT" [.reg .dword, .memory none]))
  | 0x81 => ifMemory modRM (only .size mark (later "INVVPID" [.reg .dword, .memory none]))
  | 0x82 => ifMemory modRM (only .size mark (later "INVPCID" [.reg .dword, .memory none]))
  | 0xD8 =>
    ifMemory modRM <|
      (wideCipherName modRM.reg).bind fun name => only .equal mark (later name [.memory none])
  | 0xDC =>
    if mark = .equal && !modRM.isMemory then some (later "LOADIWKEY" [.vector, .vectorRm])
    else cipherForm mark modRM "AESENC" "AESENC128KL"
  | 0xDD => cipherForm mark modRM "AESENCLAST" "AESDEC128KL"
  | 0xDE => cipherForm mark modRM "AESDEC" "AESENC256KL"
  | 0xDF => cipherForm mark modRM "AESDECLAST" "AESDEC256KL"
  | 0xF0 =>
    match mark with
    | .notEqual => some (later "CRC32" [.reg .dword, .sized .byte])
    | .equal => none
    | _ => ifMemory modRM (some (later "MOVBE" [.reg .operand, .memory none]))
  | 0xF1 =>
    match mark with
    | .notEqual => some (later "CRC32" [.reg .dword, .sized .operand])
    | .equal => none
    | _ => ifMemory modRM (some (later "MOVBE" [.memory none, .reg .operand]))
  | 0xF5 => ifMemory modRM (only .size mark (later "WRUSSD" [.memory none, .reg .dword]))
  | 0xF6 =>
    match mark with
    | .none => ifMemory modRM (some (later "WRSSD" [.memory none, .reg .dword]))
    | .size => some (later "ADCX" [.reg .dword, .rm .dword])
    | .equal => some (later "ADOX" [.reg .dword, .rm .dword])
    | .notEqual => none
  | 0xF8 =>
    ifMemory modRM <|
      (choose mark "" "MOVDIR64B" "ENQCMDS" "ENQCMD").map (later · [.reg .address, .memory none])
  | 0xF9 => ifMemory modRM (only .none mark (later "MOVDIRI" [.memory none, .reg .dword]))
  | 0xFA =>
    if modRM.isMemory then none
    else only .equal mark (later "ENCODEKEY128" [.reg .dword, .rm .dword])
  | 0xFB =>
    if modRM.isMemory then none
    else only .equal mark (later "ENCODEKEY256" [.reg .dword, .rm .dword])
  | 0xFC =>
    ifMemory modRM <|
      (choose mark "AADD" "AAND" "AXOR" "AOR").map (later · [.memory none, .reg .dword])
  | _ => none

def entry (setting : Setting) (opcode : Nat) : Entry :=
  let mark := setting.mark
  .modRM fun modRM =>
    match packedName opcode, sizeMarkedName opcode, digestName opcode with
    | some name, _, _ => onEitherFile mark name []
    | _, some name, _ => only .size mark (later name [.vector, .vectorRm])
    | _, _, some name => only .none mark (later name [.vector, .vectorRm])
    | _, _, _ => singleForm mark opcode modRM

/-- The operations with an immediate behind the second escape that need the operand size mark. -/
def immediateName : Nat → Option String
  | 0x08 => some "ROUNDPS"
  | 0x09 => some "ROUNDPD"
  | 0x0A => some "ROUNDSS"
  | 0x0B => some "ROUNDSD"
  | 0x0C => some "BLENDPS"
  | 0x0D => some "BLENDPD"
  | 0x0E => some "PBLENDW"
  | 0x21 => some "INSERTPS"
  | 0x40 => some "DPPS"
  | 0x41 => some "DPPD"
  | 0x42 => some "MPSADBW"
  | 0x44 => some "PCLMULQDQ"
  | 0x60 => some "PCMPESTRM"
  | 0x61 => some "PCMPESTRI"
  | 0x62 => some "PCMPISTRM"
  | 0x63 => some "PCMPISTRI"
  | 0xCE => some "GF2P8AFFINEQB"
  | 0xCF => some "GF2P8AFFINEINVQB"
  | 0xDF => some "AESKEYGENASSIST"
  | _ => none

/-- The carry-less products have a name for each choice of halves. -/
def immediateAliases (opcode : Nat) : List (Nat × String) :=
  if opcode = 0x44 then
    [(0x00, "PCLMULLQLQDQ"), (0x01, "PCLMULHQLQDQ"), (0x10, "PCLMULLQHQDQ"),
     (0x11, "PCLMULHQHQDQ")]
  else []

def extractName : Nat → Option String
  | 0x14 => some "PEXTRB"
  | 0x15 => some "PEXTRW"
  | 0x16 => some "PEXTRD"
  | 0x17 => some "EXTRACTPS"
  | _ => none

def insertName : Nat → Option String
  | 0x20 => some "PINSRB"
  | 0x22 => some "PINSRD"
  | _ => none

def singleImmediateForm (mark : Mark) (opcode : Nat) (modRM : ModRM) : Option Form :=
  match opcode with
  | 0x0F => onEitherFile mark "PALIGNR" [.imm8]
  | 0xCC => only .none mark (later "SHA1RNDS4" [.vector, .vectorRm, .imm8])
  | 0xF0 =>
    if !modRM.isMemory && modRM.reg = 0 && modRM.rm = 0 then
      only .equal mark (later "HRESET" [.imm8])
    else none
  | _ => none

def immediateEntry (setting : Setting) (opcode : Nat) : Entry :=
  let mark := setting.mark
  .modRM fun modRM =>
    match immediateName opcode, extractName opcode, insertName opcode with
    | some name, _, _ =>
      only .size mark
        { later name [.vector, .vectorRm, .imm8] with aliases := immediateAliases opcode }
    | _, some name, _ => only .size mark (later name [.rm .dword, .vector, .imm8])
    | _, _, some name => only .size mark (later name [.vector, .rm .dword, .imm8])
    | _, _, _ => singleImmediateForm mark opcode modRM

end FlowDisasm.X86.ThreeByte
