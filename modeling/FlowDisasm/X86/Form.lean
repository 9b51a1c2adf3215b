import FlowDisasm.X86.Addressing
import FlowDisasm.X86.Operation

/-!
# Instruction forms

A form is a row of the opcode table: a mnemonic, the slots that hold its operands, and the traits that
decide which extra words its text can have. Reading a form takes the bytes of its slots in the order in
which they are listed; everything that can refuse a form is tested after its last byte.
-/
namespace FlowDisasm.X86

/-- The size of an operand; two of them follow the sizes in force. -/
inductive Size where
  | byte
  | word
  | dword
  | operand
  | address
  deriving DecidableEq

namespace Size

def register (setting : Setting) (number : Fin 8) : Size → Register
  | byte => .byte number
  | word => .word number
  | dword => .dword number
  | operand => .general setting.operandSize number
  | address => .general setting.addressSize number

def extentOfWidth : Width → Extent
  | .bits16 => .word
  | .bits32 => .dword

/-- The extent of memory of a size. -/
def extent (setting : Setting) : Size → Extent
  | byte => .byte
  | word => .word
  | dword => .dword
  | operand => extentOfWidth setting.operandSize
  | address => extentOfWidth setting.addressSize

end Size

/-- Where an operand comes from. -/
inductive Slot where
  /-- A register or memory, whose size another operand tells. -/
  | rm (size : Size)
  /-- A register or memory, whose size text has to tell. -/
  | sized (size : Size)
  /-- Memory of a fixed extent, or of one that text does not tell. -/
  | memory (extent : Option Extent)
  /-- Memory whose extent goes with the operand size. -/
  | memoryBySize (narrow wide : Extent)
  /-- The same, but text tells the extent only when the operand size is not the default. -/
  | memoryByMark (narrow wide : Extent)
  /-- Memory with the limit and the base of a table; the base has the operand size. -/
  | table
  | reg (size : Size)
  /-- A segment register that can be loaded; the code segment cannot. -/
  | segmentTarget
  /-- A register in the low bits of the opcode. -/
  | low (size : Size)
  | accumulator (size : Size)
  /-- The accumulator of the operand size, where nothing happens to it: every processor has it. -/
  | idleRegister
  | fixed (register : Register)
  | segment
  | control
  | debug
  /-- A 32-bit register where other forms may have memory. -/
  | rmDword
  | imm8
  /-- A byte that is extended with its sign to the operand size. -/
  | imm8Signed
  | imm16
  | immOperand
  /-- The number one, which takes no byte. -/
  | one
  | rel8
  | rel
  | farPointer
  /-- Memory at an address that stands in the instruction. -/
  | direct
  | stringSource
  | stringDestination
  /-- The table that XLAT looks into. -/
  | lookup
  | floatRm
  | multimedia
  | multimediaRm
  | vector
  | vectorRm
  /-- An operand of the encoding that text leaves out. -/
  | hidden (slot : Slot)
  /-- An operand of the text that the encoding does not have. -/
  | implied (slot : Slot)
  /-- An operand that text shows by the low half of its register. -/
  | narrowed (slot : Slot)

def Slot.followsOperandSize : Slot → Bool
  | rm size | sized size | reg size | low size | accumulator size => size = .operand
  | memoryBySize .. | memoryByMark .. | table | immOperand | rel8 | rel | farPointer => true
  | hidden slot | implied slot | narrowed slot => slot.followsOperandSize
  | _ => false

/-- What sets a form apart from a plain one. -/
inductive Trait where
  /-- Text tells the operand size when it is not the default. -/
  | sizeWord
  /-- Text tells the address size when it is not the default. -/
  | addressWord
  /-- The count register goes with the address size. -/
  | counted
  /-- May be locked when the destination is memory. -/
  | lockable
  /-- Locks memory by itself. -/
  | exclusive
  /-- A store that can end a lock. -/
  | releasing
  /-- Can keep the bounds registers. -/
  | bounded
  /-- Takes branch hints. -/
  | predicted
  /-- Can go without indirect branch tracking. -/
  | tracked
  /-- Can be repeated. -/
  | repeated
  /-- Can be repeated while the outcome is equal or not equal. -/
  | compared
  /-- Shows a repetition mark that has no effect. -/
  | padded
  | far
  /-- Shows two equal operands in front once. -/
  | collapsing
  /-- Does not access the memory that it names. -/
  | addressOnly
  /-- Text tells the segment of memory that no operand names. -/
  | segmentWord
  /-- Branches to a destination of 32 bits, whatever the operand size. -/
  | wideTarget
  /-- Has to have registers, though the bytes behind the addressing byte are taken in any case. -/
  | registersOnly
  deriving DecidableEq

/-- A row of the opcode table. -/
structure Form where
  name : String
  /-- The mnemonic with 32-bit operands. -/
  wideName : String := name
  slots : List Slot := []
  kind : Mnemonic := .other
  feature : Feature := .intel8086
  traits : List Trait := []
  /-- Mnemonics that stand for values of the last operand. -/
  aliases : List (Nat × String) := []

namespace Form

def has (form : Form) (trait : Trait) : Bool :=
  form.traits.contains trait

def flow (form : Form) : Flow :=
  classify form.kind (form.has .far)

/-- The era of a form with operands of any size. -/
def era (form : Form) : Era :=
  form.feature.era

/-- Whether there are two forms, for the two operand sizes. -/
def followsOperandSize (form : Form) : Bool :=
  form.has .sizeWord || form.name != form.wideName
    || form.slots.any Slot.followsOperandSize

end Form

/-- What the opcode bytes and the addressing bytes say. -/
structure Encoding where
  opcode : UInt8
  modRM : ModRM
  /-- The memory operand, when the addressing bytes select one. -/
  reference : Option Reference

namespace Slot

def atRegister (setting : Setting) (number : Fin 8) (pinned : Option Register) : Operand :=
  let base := some (Register.general setting.addressSize number)
  .memory { base, segment := setting.segmentOf base pinned } none

def general (setting : Setting) (size : Size) (number : Fin 8) : Operand :=
  .register (size.register setting number)

/-- The register or the memory that the addressing bytes select. -/
def selected (encoding : Encoding) (register : Register) (extent : Option Extent) : Operand :=
  match encoding.reference with
  | some reference => .memory reference extent
  | none => .register register

def extentOf (setting : Setting) (narrow wide : Extent) : Extent :=
  match setting.operandSize with
  | .bits16 => narrow
  | .bits32 => wide

def readBranch (setting : Setting) : Decoding Operand :=
  match setting.operandSize with
  | .bits16 => do
    let distance : Int16 ← Decoding.word
    return .relative distance.toInt32 2
  | .bits32 => do
    let distance : Int32 ← Decoding.word
    return .relative distance 4

def readFar (setting : Setting) : Decoding Operand :=
  match setting.operandSize with
  | .bits16 => do
    let offset ← Decoding.word
    let selector ← Decoding.word
    return .far16 selector offset
  | .bits32 => do
    let offset ← Decoding.word
    let selector ← Decoding.word
    return .far32 selector offset

/-- The operand in a slot, with the bytes that are its own. -/
def read (setting : Setting) (encoding : Encoding) : Slot → Decoding Operand
  | rm size =>
    return selected encoding (size.register setting encoding.modRM.rm) none
  | sized size =>
    return selected encoding (size.register setting encoding.modRM.rm)
      (some (size.extent setting))
  | memory extent => return selected encoding .floatTop extent
  | table => return selected encoding .floatTop none
  | memoryBySize narrow wide =>
    return selected encoding .floatTop (some (extentOf setting narrow wide))
  | memoryByMark narrow wide =>
    return selected encoding .floatTop
      (if setting.operandMark then some (extentOf setting narrow wide) else none)
  | reg size => return general setting size encoding.modRM.reg
  | low size => return general setting size (Fin.ofNat 8 encoding.opcode.toNat)
  | accumulator size => return general setting size 0
  | idleRegister => return general setting .operand 0
  | fixed register => return .register register
  | segmentTarget =>
    if encoding.modRM.reg < 6 && encoding.modRM.reg ≠ 1 then
      return .register (.segment encoding.modRM.reg)
    else .undefined
  | segment =>
    if encoding.modRM.reg < 6 then return .register (.segment encoding.modRM.reg)
    else .undefined
  | control => return .control encoding.modRM.reg
  | debug => return .register (.debug encoding.modRM.reg)
  | rmDword => return .register (.dword encoding.modRM.rm)
  | imm8 => do
    let value : UInt8 ← Decoding.word
    return .immediate value.toUInt64 1
  | imm8Signed => do
    let value : Int8 ← Decoding.word
    return .immediate value.toInt64.toUInt64 setting.operandSize.bytes
  | imm16 => do
    let value : UInt16 ← Decoding.word
    return .immediate value.toUInt64 2
  | immOperand =>
    match setting.operandSize with
    | .bits16 => do
      let value : UInt16 ← Decoding.word
      return .immediate value.toUInt64 2
    | .bits32 => do
      let value : UInt32 ← Decoding.word
      return .immediate value.toUInt64 4
  | one => return .immediate 1 1
  | rel8 => do
    let distance : Int8 ← Decoding.word
    return .relative distance.toInt32 1
  | rel => readBranch setting
  | farPointer => readFar setting
  | direct => do
    let displacement ← readAddress setting.addressSize
    return .memory { displacement, segment := setting.segmentOf none none } none
  | stringSource => return atRegister setting 6 none
  | stringDestination => return atRegister setting 7 (some .es)
  | lookup => return atRegister setting 3 none
  | floatRm => return .register (.float encoding.modRM.rm)
  | multimedia => return .register (.multimedia encoding.modRM.reg)
  | multimediaRm => return selected encoding (.multimedia encoding.modRM.rm) none
  | vector => return .register (.vector encoding.modRM.reg)
  | vectorRm => return selected encoding (.vector encoding.modRM.rm) none
  | hidden slot | implied slot | narrowed slot => read setting encoding slot

/-- Whether the operand of a slot belongs to the encoding. -/
def isListed : Slot → Bool
  | implied _ => false
  | _ => true

/-- Whether the operand of a slot belongs to the text. -/
def isShown : Slot → Bool
  | hidden _ => false
  | _ => true

def shownAs : Slot → Operand → Operand
  | narrowed _, .register register => .register register.narrow
  | _, operand => operand

/-- The operands of slots, each with its slot. -/
def readAll (setting : Setting) (encoding : Encoding) : List Slot → Decoding (List (Slot × Operand))
  | [] => return []
  | slot :: slots => do
    let operand ← slot.read setting encoding
    let operands ← readAll setting encoding slots
    return (slot, operand) :: operands

end Slot

namespace Form

/-- The words that the marks in front of the opcode give the text of a form. -/
def words (form : Form) (setting : Setting) (onMemory : Bool) : List String :=
  let sizeWord :=
    if form.has .sizeWord && setting.operandMark then [s!"DATA{setting.operandSize.bits}"] else []
  let addressWord :=
    if form.has .addressWord && setting.addressMark then [s!"ADDR{setting.addressSize.bits}"]
    else []
  let locked := form.has .lockable && setting.lock
  let segmentWord := match setting.segment with
    | some number =>
      if form.has .segmentWord && number ≠ 3 then [Register.segmentName number] else []
    | none => []
  let elision := match setting.repetition with
    | some .whileNotEqual =>
      if onMemory && (locked || form.has .exclusive) then ["XACQUIRE"] else []
    | some .whileEqual =>
      if onMemory && (locked || form.has .exclusive || form.has .releasing) then ["XRELEASE"]
      else []
    | none => []
  let lock := if setting.lock then ["LOCK"] else []
  let hint :=
    if form.has .predicted && setting.segment = some 1 then ["HINT-NOT-TAKEN"]
    else if form.has .predicted && setting.segment = some 3 then ["HINT-TAKEN"]
    else if form.has .tracked && setting.segment = some 3 then ["NOTRACK"]
    else []
  let repetition := match setting.repetition with
    | some .whileNotEqual =>
      if form.has .bounded then ["BND"]
      else if form.has .repeated || form.has .compared then ["REPNE"] else []
    | some .whileEqual =>
      if form.has .compared then ["REPE"]
      else if form.has .repeated || form.has .padded then ["REP"] else []
    | none => []
  sizeWord ++ addressWord ++ segmentWord ++ elision ++ lock ++ hint ++ repetition

/-- The features of a form under the sizes in force: whatever has 32 bits began with the 80386. -/
def features (form : Form) (setting : Setting) : List Feature :=
  let wide := form.followsOperandSize && setting.operandSize = .bits32
  let wideCount := form.has .counted && setting.addressSize = .bits32
  if wide || wideCount then [form.feature, .intel386] else [form.feature]

/-- The latest era of the features of a form. -/
def eraIn (form : Form) (setting : Setting) : Era :=
  ((form.features setting).map Feature.era).foldl Era.max .i8086

/-- The mnemonic that stands for the value of the last operand. -/
def alias? (form : Form) (operands : List (Slot × Operand)) : Option String :=
  match operands.getLast? with
  | some (_, .immediate value _) => form.aliases.lookup value.toNat
  | _ => none

def mnemonic (form : Form) (setting : Setting) (operands : List (Slot × Operand)) : String :=
  (form.alias? operands).getD <|
    match setting.operandSize with
    | .bits16 => form.name
    | .bits32 => form.wideName

def shown (form : Form) (operands : List (Slot × Operand)) : List Operand :=
  let spelled := if (form.alias? operands).isSome then operands.dropLast else operands
  let visible := (spelled.filter (·.1.isShown)).map fun (slot, operand) => slot.shownAs operand
  match visible with
  | first :: second :: rest =>
    if form.has .collapsing && first = second then second :: rest else visible
  | _ => visible

/-- The width of the destination if a form is a near branch. -/
def targetWidth (form : Form) (setting : Setting) : Width :=
  if form.has .wideTarget then .bits32 else setting.operandSize

/-- The operation of a form, with the bytes of its slots. -/
def read (form : Form) (setting : Setting) (encoding : Encoding) : Decoding Operation := do
  let operands ← Slot.readAll setting encoding form.slots
  let onMemory := encoding.reference.isSome
  if setting.lock && !(form.has .lockable && onMemory) then .undefined
  else
    return {
      words := form.words setting onMemory
      mnemonic := form.mnemonic setting operands
      far := form.has .far
      flow := form.flow
      era := form.eraIn setting
      targetWidth := form.targetWidth setting
      operands := (operands.filter (·.1.isListed)).map (·.2)
      shown := form.shown operands }

end Form

end FlowDisasm.X86
