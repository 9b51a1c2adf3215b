import FlowDisasm.Bytes.Rows
import FlowDisasm.Exploration
import FlowDisasm.Text.Aligned

/-!
# Listings

A listing goes through the visited offsets in ascending order. Each instruction is shown with its bytes;
what lies between the end of one and the start of the next is a gap, shown as rows of data or, when it is
large, by its size alone. The items of a listing are built first and written as text afterwards.
-/
namespace FlowDisasm.Listing

/-- How a listing is laid out. -/
structure Layout where
  /-- Gaps of more bytes than this are not shown. -/
  skipThreshold : UInt32 := 0x100
  /-- Bytes in a row of data or of an instruction; zero counts as one. -/
  bytesPerRow : Nat := 8

/-- An instruction in a listing. -/
structure Code where
  address : SegmentedAddress
  /-- The bytes of the instruction and of the data that belongs to it. -/
  bytes : List UInt8
  text : String
  /-- What is said about the data. -/
  annotation : String

/-- A part of a listing. -/
inductive Item where
  | label (name : String)
  | skipped (size : Nat)
  | data (offset : Nat) (bytes : List UInt8)
  | code (code : Code)

namespace Layout

def rowLength (layout : Layout) : Nat :=
  max layout.bytesPerRow 1

end Layout

/-- A byte as the comment of a data row shows it. -/
def commentByte (byte : UInt8) : String :=
  if 0x20 ≤ byte && byte ≤ 0x7F then String.singleton (Char.ofNat byte.toNat)
  else "\\x" ++ Text.hexByte byte

def dataText (offset : Nat) (bytes : List UInt8) : String :=
  let literals := ",".intercalate (bytes.map fun byte => "0x" ++ Text.hexByte byte)
  "\tDB\t" ++ literals ++ "\t; " ++ Text.hexPadded 6 offset ++ " '"
    ++ String.join (bytes.map commentByte) ++ "'\n"

namespace Code

def addressColumn : Nat := 22

/-- One row of an instruction's bytes, some bytes behind its first one. -/
def rowText (code : Code) (distance : Nat) (row : List UInt8) : String :=
  Text.aligned .left addressColumn (code.address.advance (UInt32.ofNat distance)).text ++ " "
    ++ Text.joinedBytes row

def rowTexts (code : Code) (length : Nat) (distance : Nat) : List (List UInt8) → List String
  | [] => []
  | row :: rows => code.rowText distance row :: rowTexts code length (distance + length) rows

/-- The blanks that a short last row is filled up with. -/
def filling (code : Code) (length : Nat) : String :=
  let used := code.bytes.length % length
  if used = 0 then "" else Text.blanks (2 * (length - used))

def rendered (code : Code) (length : Nat) : String :=
  "\n".intercalate (code.rowTexts length 0 (Bytes.rows length code.bytes))
    ++ code.filling length ++ " " ++ code.text ++ code.annotation ++ "\n"

end Code

def Item.text (layout : Layout) : Item → String
  | .label name => "\t" ++ name ++ ":\n"
  | .skipped size => "; Skipping 0x" ++ Text.hex size ++ " bytes\n"
  | .data offset bytes => dataText offset bytes
  | .code shown => shown.rendered layout.rowLength

/-- The rows of data from an offset on. -/
def dataItems (length : Nat) (offset : Nat) : List (List UInt8) → List Item
  | [] => []
  | row :: rows => .data offset row :: dataItems length (offset + length) rows

def labelName (state : Exploration) (offset : UInt32) : String :=
  (state.labelFor offset).getD (synthesizedLabel offset)

/-- The gap from an offset on. -/
def gapItems (layout : Layout) (subject : Subject) (state : Exploration) (offset size : Nat) :
    Except Error (List Item) := do
  let label := Item.label (labelName state (UInt32.ofNat offset))
  if layout.skipThreshold.toNat < size then return [label, .skipped size]
  else
    let bytes ← subject.image.read offset size
    return label :: dataItems layout.rowLength offset (Bytes.rows layout.rowLength bytes)

def labelItems (state : Exploration) (offset : UInt32) (visit : Visit) : List Item :=
  if visit.isTarget || (state.labels[offset]?).isSome then [.label (labelName state offset)]
  else []

def codeOf (subject : Subject) (state : Exploration) (offset : UInt32) (visit : Visit) :
    Except Error Code := do
  let instruction ← X86.decode subject.cpu subject.image offset visit.mode.width
  let label := instruction.target?.bind state.labelFor
  let address := state.address offset visit.mode
  let text := instruction.text label
  match subject.trailing? instruction visit.mode with
  | none => return { address, bytes := instruction.bytes, text, annotation := "" }
  | some count =>
    let data ← subject.image.read instruction.next.toNat count.toNat
    let annotation := (subject.service.bind (·.annotate data)).getD ""
    return { address, bytes := instruction.bytes ++ data, text, annotation }

/-- The items of visited offsets, where everything below some address is shown already. -/
def itemsFrom (layout : Layout) (subject : Subject) (state : Exploration) (shown : Nat) :
    List (UInt32 × Visit) → Except Error (List Item)
  | [] => .ok []
  | (offset, visit) :: rest => do
    let gap ←
      if shown < offset.toNat then gapItems layout subject state shown (offset.toNat - shown)
      else pure []
    let code ← codeOf subject state offset visit
    let items ← itemsFrom layout subject state (offset.toNat + code.bytes.length) rest
    return gap ++ labelItems state offset visit ++ .code code :: items

def items (layout : Layout) (subject : Subject) (state : Exploration) : Except Error (List Item) :=
  itemsFrom layout subject state subject.image.base.toNat state.visited.toList

/-- The text of a listing. -/
def render (layout : Layout) (subject : Subject) (state : Exploration) : Except Error String := do
  let items ← items layout subject state
  return String.join (items.map (Item.text layout))

end FlowDisasm.Listing
