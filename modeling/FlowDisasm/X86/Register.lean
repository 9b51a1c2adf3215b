/-!
# Registers

Registers are numbered within their bank as instructions encode them. The bottom of the float stack has
a name of its own when it is the implied operand of an instruction.
-/
namespace FlowDisasm.X86

/-- The width of operands or addresses that code has by default. -/
inductive Width where
  | bits16
  | bits32
  deriving DecidableEq, Repr

namespace Width

def bytes : Width → Nat
  | bits16 => 2
  | bits32 => 4

def bits : Width → Nat
  | bits16 => 16
  | bits32 => 32

def other : Width → Width
  | bits16 => bits32
  | bits32 => bits16

end Width

/-- Numbers within a bank start at 0. -/
instance neZero_bank : @NeZero Nat Zero.ofOfNat0 8 := ⟨by decide⟩

/-- A register, by its bank and its number there. -/
inductive Register where
  | byte (number : Fin 8)
  | word (number : Fin 8)
  | dword (number : Fin 8)
  | segment (number : Fin 8)
  | debug (number : Fin 8)
  /-- The top of the float stack where it is implied. -/
  | floatTop
  | float (number : Fin 8)
  | multimedia (number : Fin 8)
  | vector (number : Fin 8)
  deriving DecidableEq, Repr

namespace Register

def general : Width → Fin 8 → Register
  | .bits16, number => word number
  | .bits32, number => dword number

def cl : Register := byte 1
def ax : Register := word 0
def dx : Register := word 2
def ecx : Register := dword 1
def es : Register := segment 0
def cs : Register := segment 1
def ss : Register := segment 2
def ds : Register := segment 3
def fs : Register := segment 4
def gs : Register := segment 5

/-- The name without its width of a general register. -/
def stem : Fin 8 → String
  | 0 => "AX"
  | 1 => "CX"
  | 2 => "DX"
  | 3 => "BX"
  | 4 => "SP"
  | 5 => "BP"
  | 6 => "SI"
  | 7 => "DI"

def byteName : Fin 8 → String
  | 0 => "AL"
  | 1 => "CL"
  | 2 => "DL"
  | 3 => "BL"
  | 4 => "AH"
  | 5 => "CH"
  | 6 => "DH"
  | 7 => "BH"

/-- The name of a segment register; there are only six. -/
def segmentName : Fin 8 → String
  | 0 => "ES"
  | 1 => "CS"
  | 2 => "SS"
  | 3 => "DS"
  | 4 => "FS"
  | 5 => "GS"
  | 6 => "S6"
  | 7 => "S7"

def name : Register → String
  | byte number => byteName number
  | word number => stem number
  | dword number => "E" ++ stem number
  | segment number => segmentName number
  | debug number => s!"DR{number}"
  | floatTop => "ST0"
  | float number => s!"ST{number}"
  | multimedia number => s!"MM{number}"
  | vector number => s!"XMM{number}"

/-- The name of a register in assembly text. -/
def text : Register → String
  | floatTop => "ST"
  | float number => s!"ST({number})"
  | register => register.name

/-- The low half of a 32-bit register; any other register itself. -/
def narrow : Register → Register
  | dword number => word number
  | register => register

end Register

end FlowDisasm.X86
