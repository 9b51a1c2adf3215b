import FlowDisasm.X86.Decoding
import FlowDisasm.X86.Operand
import FlowDisasm.X86.Setting

/-!
# Addressing

One byte behind the opcode names a register and either a second register or a way to form an address. An
address of 32 bits can take one more byte, for a base and a scaled index, and every address can end in a
displacement.
-/
namespace FlowDisasm.X86

instance neZero_modes : @NeZero Nat Zero.ofOfNat0 4 := ⟨by decide⟩

/-- The byte that selects registers and addressing. -/
structure ModRM where
  mode : Fin 4
  reg : Fin 8
  rm : Fin 8

namespace ModRM

def ofByte (byte : UInt8) : ModRM where
  mode := Fin.ofNat 4 (byte.toNat / 64)
  reg := Fin.ofNat 8 (byte.toNat / 8)
  rm := Fin.ofNat 8 byte.toNat

def isMemory (modRM : ModRM) : Bool :=
  modRM.mode ≠ 3

end ModRM

def readDisplacement8 : Decoding Int := do
  let distance : Int8 ← Decoding.word
  return distance.toInt

/-- The displacement that a mode asks for. -/
def readDisplacement (size : Width) (mode : Fin 4) : Decoding Int :=
  match mode, size with
  | 1, _ => readDisplacement8
  | 2, .bits16 => do
    let distance : Int16 ← Decoding.word
    return distance.toInt
  | 2, .bits32 => do
    let distance : Int32 ← Decoding.word
    return distance.toInt
  | _, _ => return 0

def readAddress : Width → Decoding Int
  | .bits16 => do
    let address : UInt16 ← Decoding.word
    return address.toNat
  | .bits32 => do
    let address : UInt32 ← Decoding.word
    return address.toNat

def pairOf : Fin 8 → Option Register × Option Register
  | 0 => (some (.word 3), some (.word 6))
  | 1 => (some (.word 3), some (.word 7))
  | 2 => (some (.word 5), some (.word 6))
  | 3 => (some (.word 5), some (.word 7))
  | 4 => (some (.word 6), none)
  | 5 => (some (.word 7), none)
  | 6 => (some (.word 5), none)
  | 7 => (some (.word 3), none)

def readReference16 (modRM : ModRM) : Decoding Reference :=
  if modRM.mode = 0 && modRM.rm = 6 then do
    let displacement ← readAddress .bits16
    return { displacement }
  else do
    let (base, index) := pairOf modRM.rm
    let displacement ← readDisplacement .bits16 modRM.mode
    return { base, index := index.map fun register => (register, none), displacement }

/-- A memory operand with a scaled index. -/
def readScaled (modRM : ModRM) : Decoding Reference := do
  let scaled ← Decoding.byte
  let parts := ModRM.ofByte scaled
  let factor := 1 <<< parts.mode.val
  let absent := parts.rm = 5 && modRM.mode = 0
  let base := if absent then none else some (Register.dword parts.rm)
  let shownFactor := if factor = 1 && base.isSome then none else some factor
  let index := if parts.reg = 4 then none else some (Register.dword parts.reg, shownFactor)
  if absent && index.isNone then do
    let displacement ← readAddress .bits32
    return { displacement }
  else do
    let displacement ← readDisplacement .bits32 (if absent then 2 else modRM.mode)
    return { base, index, displacement }

def readReference32 (modRM : ModRM) : Decoding Reference :=
  if modRM.rm = 4 then readScaled modRM
  else if modRM.mode = 0 && modRM.rm = 5 then do
    let displacement ← readAddress .bits32
    return { displacement }
  else do
    let displacement ← readDisplacement .bits32 modRM.mode
    return { base := some (.dword modRM.rm), displacement }

/-- The memory operand that the addressing bytes select. -/
def readReference (setting : Setting) (modRM : ModRM) : Decoding Reference :=
  match setting.addressSize with
  | .bits16 => readReference16 modRM
  | .bits32 => readReference32 modRM

end FlowDisasm.X86
