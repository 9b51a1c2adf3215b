import FlowDisasm.X86.Table.Marked

/-!
# Operations on pairs of floats

These operations share one opcode. The byte that tells them apart stands behind the addressing bytes.
-/
namespace FlowDisasm.X86.Paired

def name? : Nat → Option String
  | 0x0C => some "PI2FW"
  | 0x0D => some "PI2FD"
  | 0x1C => some "PF2IW"
  | 0x1D => some "PF2ID"
  | 0x8A => some "PFNACC"
  | 0x8E => some "PFPNACC"
  | 0x90 => some "PFCMPGE"
  | 0x94 => some "PFMIN"
  | 0x96 => some "PFRCP"
  | 0x97 => some "PFRSQRT"
  | 0x9A => some "PFSUB"
  | 0x9E => some "PFADD"
  | 0xA0 => some "PFCMPGT"
  | 0xA4 => some "PFMAX"
  | 0xA6 => some "PFRCPIT1"
  | 0xA7 => some "PFRSQIT1"
  | 0xAA => some "PFSUBR"
  | 0xAE => some "PFACC"
  | 0xB0 => some "PFCMPEQ"
  | 0xB4 => some "PFMUL"
  | 0xB6 => some "PFRCPIT2"
  | 0xB7 => some "PMULHRW"
  | 0xBB => some "PSWAPD"
  | 0xBF => some "PAVGUSB"
  | _ => none

def entry : Entry :=
  .suffixed fun last =>
    (name? last.toNat).map (Marked.later · [.multimedia, .multimediaRm])

end FlowDisasm.X86.Paired
