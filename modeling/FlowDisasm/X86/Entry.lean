import FlowDisasm.X86.Form

/-!
# Entries of the opcode tables

An opcode stands for one form, or for several of which a later byte chooses one. Some choices leave no
form; how many bytes are taken before such an opcode is refused decides whether bytes that end early are
refused or found too short.
-/
namespace FlowDisasm.X86

/-- What is taken behind an addressing byte that selects no form. -/
inductive Remainder where
  /-- So many bytes. -/
  | bytes (count : Nat)
  /-- The rest of an instruction of a later extension: so many bytes, an addressing byte, and the
  memory operand that it selects. -/
  | addressed (count : Nat)

/-- Takes a remainder and refuses it. -/
def Remainder.read (setting : Setting) : Remainder → Decoding Operation
  | bytes count => do
    let _ ← Decoding.bytes count
    .undefined
  | addressed count => do
    let _ ← Decoding.bytes count
    let modRM := ModRM.ofByte (← Decoding.byte)
    if modRM.isMemory then do
      let _ ← readReference setting modRM
      .undefined
    else .undefined

/-- What an opcode stands for. -/
inductive Entry where
  /-- A form without addressing bytes. -/
  | plain (form : Form)
  /-- A form that the addressing byte selects, if it selects one. -/
  | modRM (choose : ModRM → Option Form)
  /-- The same, but the addressing byte names registers only. -/
  | registers (choose : ModRM → Option Form)
  /-- The same, with what is taken when it selects none. -/
  | modRMOr (choose : ModRM → Option Form) (remainder : ModRM → Remainder)
  /-- A form that a byte behind the addressing bytes selects. -/
  | suffixed (choose : UInt8 → Option Form)
  /-- No instruction, with so many bytes taken behind the opcode. -/
  | undefined (count : Nat)

namespace Entry

def always (form : Form) : Entry :=
  modRM fun _ => some form

def memoryOnly (form : Form) : Entry :=
  modRM fun modRM => if modRM.isMemory then some form else none

end Entry

/-- The memory operand with the segment that text shows for it. -/
def Form.reference (form : Form) (setting : Setting) (reference : Reference) : Reference :=
  if form.has .addressOnly then reference
  else { reference with segment := setting.segmentOf reference.base none }

def Form.readSelected (form : Form) (setting : Setting) (opcode : UInt8) (modRM : ModRM) :
    Decoding Operation :=
  if !modRM.isMemory then form.read setting ⟨opcode, modRM, none⟩
  else if form.has .registersOnly then do
    let _ ← form.read setting ⟨opcode, modRM, none⟩
    .undefined
  else do
    let reference ← readReference setting modRM
    form.read setting ⟨opcode, modRM, some (form.reference setting reference)⟩

/-- The form that a byte behind the addressing bytes selects. -/
def readSuffixed (setting : Setting) (opcode : UInt8) (modRM : ModRM)
    (reference : Option Reference) (choose : UInt8 → Option Form) : Decoding Operation := do
  match choose (← Decoding.byte) with
  | none => .undefined
  | some form => form.read setting ⟨opcode, modRM, reference.map (form.reference setting)⟩

/-- The operation of an opcode, with the bytes that follow it. -/
def Entry.read (setting : Setting) (opcode : UInt8) : Entry → Decoding Operation
  | plain form => form.read setting ⟨opcode, ModRM.ofByte 0, none⟩
  | modRM choose => do
    let modRM := ModRM.ofByte (← Decoding.byte)
    match choose modRM with
    | none => .undefined
    | some form => form.readSelected setting opcode modRM
  | registers choose => do
    let modRM := ModRM.ofByte (← Decoding.byte)
    match choose modRM with
    | none => .undefined
    | some form => form.read setting ⟨opcode, modRM, none⟩
  | modRMOr choose remainder => do
    let modRM := ModRM.ofByte (← Decoding.byte)
    match choose modRM with
    | none => (remainder modRM).read setting
    | some form => form.readSelected setting opcode modRM
  | suffixed choose => do
    let modRM := ModRM.ofByte (← Decoding.byte)
    if modRM.isMemory then do
      let reference ← readReference setting modRM
      readSuffixed setting opcode modRM (some reference) choose
    else readSuffixed setting opcode modRM none choose
  | undefined count => (Remainder.bytes count).read setting

end FlowDisasm.X86
