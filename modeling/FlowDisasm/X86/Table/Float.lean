import FlowDisasm.X86.Entry

/-!
# Float opcodes

The eight escape opcodes have one table for memory operands and one for registers. Text always names
the top of the stack as an operand, also where the encoding implies it.
-/
namespace FlowDisasm.X86.Float

def arithmeticName : Fin 8 → String
  | 0 => "ADD"
  | 1 => "MUL"
  | 2 => "COM"
  | 3 => "COMP"
  | 4 => "SUB"
  | 5 => "SUBR"
  | 6 => "DIV"
  | 7 => "DIVR"

/-- A form whose destination is the implied top of the stack. -/
def fromMemory (name : String) (extent : Extent) : Form :=
  { name, slots := [.implied (.fixed .floatTop), .memory (some extent)], feature := .fpu }

/-- A form whose source is the implied top of the stack. -/
def toMemory (name : String) (extent : Extent) (feature : Feature) : Form :=
  { name, slots := [.memory (some extent), .implied (.fixed .floatTop)], feature }

def onControl (name : String) (feature : Feature) : Form :=
  { name, slots := [.memory none], feature }

def onEnvironment (name : String) : Form :=
  { name, slots := [.memoryByMark (.floatEnvironment 14) (.floatEnvironment 28)], feature := .fpu }

def onState (name : String) : Form :=
  { name, slots := [.memoryByMark (.floatState 94) (.floatState 108)], feature := .fpu }

def integerMove (extent : Extent) : Fin 8 → Option Form
  | 0 => some (fromMemory "FILD" extent)
  | 1 => some (toMemory "FISTTP" extent .later)
  | 2 => some (toMemory "FIST" extent .fpu)
  | 3 => some (toMemory "FISTP" extent .fpu)
  | _ => none

/-- The forms with memory of an escape opcode, by the register field. -/
def memoryForm (escape reg : Fin 8) : Option Form :=
  match escape with
  | 0 => some (fromMemory ("F" ++ arithmeticName reg) .dword)
  | 2 => some (fromMemory ("FI" ++ arithmeticName reg) .dword)
  | 4 => some (fromMemory ("F" ++ arithmeticName reg) .qword)
  | 6 => some (fromMemory ("FI" ++ arithmeticName reg) .word)
  | 1 =>
    match reg with
    | 0 => some (fromMemory "FLD" .dword)
    | 1 => none
    | 2 => some (toMemory "FST" .dword .fpu)
    | 3 => some (toMemory "FSTP" .dword .fpu)
    | 4 => some (onEnvironment "FLDENV")
    | 5 => some (onControl "FLDCW" .fpu)
    | 6 => some (onEnvironment "FNSTENV")
    | 7 => some (onControl "FNSTCW" .fpu)
  | 3 =>
    match reg with
    | 5 => some (fromMemory "FLD" .tbyte)
    | 7 => some (toMemory "FSTP" .tbyte .fpu)
    | _ => integerMove .dword reg
  | 5 =>
    match reg with
    | 0 => some (fromMemory "FLD" .qword)
    | 1 => some (toMemory "FISTTP" .qword .later)
    | 2 => some (toMemory "FST" .qword .fpu)
    | 3 => some (toMemory "FSTP" .qword .fpu)
    | 4 => some (onState "FRSTOR")
    | 5 => none
    | 6 => some (onState "FNSAVE")
    | 7 => some (onControl "FNSTSW" .fpu)
  | 7 =>
    match reg with
    | 4 => some (fromMemory "FBLD" .tbyte)
    | 5 => some (fromMemory "FILD" .qword)
    | 6 => some (toMemory "FBSTP" .tbyte .fpu)
    | 7 => some (toMemory "FISTP" .qword .fpu)
    | _ => integerMove .word reg

def onTop (name : String) (feature : Feature) : Form :=
  { name, slots := [.fixed .floatTop, .floatRm], feature }

def onOther (name : String) : Form :=
  { name, slots := [.floatRm, .fixed .floatTop], feature := .fpu }

/-- A form that pops after an operation on another register and the top; with the next register text
shows no operands. -/
def popping (name : String) (rm : Fin 8) : Form :=
  if rm = 1 then { name, slots := [.hidden .floatRm, .hidden (.fixed .floatTop)], feature := .fpu } else onOther name

/-- A form that compares or exchanges the top of the stack with another register; with the next
register text shows no operands. -/
def comparing (name : String) (rm : Fin 8) : Form :=
  if rm = 1 then { name, slots := [.hidden (.fixed .floatTop), .hidden .floatRm], feature := .fpu }
  else onTop name .fpu

def arithmeticForm (reg rm : Fin 8) : Form :=
  let name := "F" ++ arithmeticName reg
  if reg = 2 || reg = 3 then comparing name rm else onTop name .fpu

def bare (name : String) (feature : Feature) : Form :=
  { name, feature }

/-- The constants and tests of D9 E0 to EF. -/
def constantForm : Nat → Option Form
  | 0 => some (bare "FCHS" .fpu)
  | 1 => some (bare "FABS" .fpu)
  | 4 => some (bare "FTST" .fpu)
  | 5 => some (bare "FXAM" .fpu)
  | 8 => some (bare "FLD1" .fpu)
  | 9 => some (bare "FLDL2T" .fpu)
  | 10 => some (bare "FLDL2E" .fpu)
  | 11 => some (bare "FLDPI" .fpu)
  | 12 => some (bare "FLDLG2" .fpu)
  | 13 => some (bare "FLDLN2" .fpu)
  | 14 => some (bare "FLDZ" .fpu)
  | _ => none

/-- The functions of D9 F0 to FF. -/
def functionForm : Nat → Form
  | 0 => bare "F2XM1" .fpu
  | 1 => bare "FYL2X" .fpu
  | 2 => bare "FPTAN" .fpu
  | 3 => bare "FPATAN" .fpu
  | 4 => bare "FXTRACT" .fpu
  | 5 => bare "FPREM1" .fpu387
  | 6 => bare "FDECSTP" .fpu
  | 7 => bare "FINCSTP" .fpu
  | 8 => bare "FPREM" .fpu
  | 9 => bare "FYL2XP1" .fpu
  | 10 => bare "FSQRT" .fpu
  | 11 => bare "FSINCOS" .fpu387
  | 12 => bare "FRNDINT" .fpu
  | 13 => bare "FSCALE" .fpu
  | 14 => bare "FSIN" .fpu387
  | _ => bare "FCOS" .fpu387

def controlForm : Fin 8 → Option Form
  | 0 => some (bare "FNENI" .fpu)
  | 1 => some (bare "FNDISI" .fpu)
  | 2 => some (bare "FNCLEX" .fpu)
  | 3 => some (bare "FNINIT" .fpu)
  | 4 => some (bare "FNSETPM" .fpu287)
  | _ => none

def conditionalMove (negated : Bool) (reg : Fin 8) : Option Form :=
  let no := if negated then "N" else ""
  let condition := match reg with
    | 0 => some "B"
    | 1 => some "E"
    | 2 => some "BE"
    | 3 => some "U"
    | _ => none
  condition.map fun condition => onTop ("FCMOV" ++ no ++ condition) .later

def loadForm (reg rm : Fin 8) : Option Form :=
  match reg with
  | 0 => some { name := "FLD", slots := [.implied (.fixed .floatTop), .floatRm], feature := .fpu }
  | 1 => some (comparing "FXCH" rm)
  | 2 => if rm = 0 then some (bare "FNOP" .fpu) else none
  | 3 => some { name := "FSTPNCE", slots := [.floatRm, .implied (.fixed .floatTop)], feature := .fpu }
  | 4 => constantForm rm.val
  | 5 => constantForm (8 + rm.val)
  | 6 => some (functionForm rm.val)
  | 7 => some (functionForm (8 + rm.val))

def storing (name : String) : Form :=
  { name, slots := [.floatRm, .implied (.fixed .floatTop)], feature := .fpu }

/-- The forms with registers of an escape opcode, by both fields. -/
def registerForm (escape reg rm : Fin 8) : Option Form :=
  match escape with
  | 0 => some (arithmeticForm reg rm)
  | 1 => loadForm reg rm
  | 2 =>
    if reg = 5 && rm = 1 then some (bare "FUCOMPP" .fpu387) else conditionalMove false reg
  | 3 =>
    match reg with
    | 4 => controlForm rm
    | 5 => some (onTop "FUCOMI" .later)
    | 6 => some (onTop "FCOMI" .later)
    | _ => conditionalMove true reg
  | 4 =>
    match reg with
    | 0 => some (onOther "FADD")
    | 1 => some (onOther "FMUL")
    | 2 => some (comparing "FCOM" rm)
    | 3 => some (comparing "FCOMP" rm)
    | 4 => some (onOther "FSUBR")
    | 5 => some (onOther "FSUB")
    | 6 => some (onOther "FDIVR")
    | 7 => some (onOther "FDIV")
  | 5 =>
    match reg with
    | 0 => some { name := "FFREE", slots := [.floatRm], feature := .fpu }
    | 1 => some (comparing "FXCH" rm)
    | 2 => some (storing "FST")
    | 3 => some (storing "FSTP")
    | 4 => some (comparing "FUCOM" rm)
    | 5 => some (comparing "FUCOMP" rm)
    | _ => none
  | 6 =>
    match reg with
    | 0 => some (popping "FADDP" rm)
    | 1 => some (popping "FMULP" rm)
    | 2 => some (comparing "FCOMP" rm)
    | 3 => if rm = 1 then some (bare "FCOMPP" .fpu) else none
    | 4 => some (popping "FSUBRP" rm)
    | 5 => some (popping "FSUBP" rm)
    | 6 => some (popping "FDIVRP" rm)
    | 7 => some (popping "FDIVP" rm)
  | 7 =>
    match reg with
    | 0 => some { name := "FFREEP", slots := [.floatRm], feature := .fpu }
    | 1 => some (comparing "FXCH" rm)
    | 2 | 3 => some (storing "FSTP")
    | 4 =>
      if rm = 0 then some { name := "FNSTSW", slots := [.fixed .ax], feature := .fpu287 } else none
    | 5 => some (onTop "FUCOMIP" .later)
    | 6 => some (onTop "FCOMIP" .later)
    | 7 => none

/-- What an escape opcode stands for. Registers that select no form are refused only behind one more
byte, which is taken as if the choice of a form went on. -/
def entry (opcode : Nat) : Entry :=
  let escape := Fin.ofNat 8 opcode
  .modRMOr
    (fun modRM =>
      if modRM.isMemory then memoryForm escape modRM.reg
      else registerForm escape modRM.reg modRM.rm)
    (fun modRM => .bytes (if modRM.isMemory then 0 else 1))

end FlowDisasm.X86.Float
