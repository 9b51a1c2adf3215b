import FlowDisasm.Command.Number
import FlowDisasm.Mode
import FlowDisasm.Text.Pieces

/-!
# Roots and labels in arguments

A root is an address with modifiers and a name, of which only the address is needed. Modifiers follow
colons and change the mode that the root would have by default; the name follows the first equals sign
and may hold any characters. A label is an address with a name.
-/
namespace FlowDisasm.Command

open Text (pieces splitFirst)

/-- A root that an argument asks for. -/
structure RootRequest where
  offset : UInt32
  mode : Mode
  name : Option String
  deriving DecidableEq

/-- A change of the mode of a root. -/
inductive Modifier where
  | width (width : X86.Width)
  | assumption (assumedProtected : Bool)
  deriving DecidableEq

/-- The modifier of a name, in letters of either case. -/
def Modifier.ofName? (name : List Char) : Option Modifier :=
  match name.map Char.toLower with
  | ['1', '6'] => some (.width .bits16)
  | ['3', '2'] => some (.width .bits32)
  | ['p', 'm'] => some (.assumption true)
  | ['r', 'm'] => some (.assumption false)
  | _ => none

def Modifier.apply (mode : Mode) : Modifier → Mode
  | .width size => { mode with width := size }
  | .assumption known => { mode with assumedProtected := known }

def modified (argument : String) (mode : Mode) : List (List Char) → Except Failure Mode
  | [] => .ok mode
  | name :: names =>
    match Modifier.ofName? name with
    | some modifier => modified argument (modifier.apply mode) names
    | none => .error (.rootModifier (String.ofList (name.map Char.toLower)) argument)

/-- The address and the mode of a root. A root with modifiers runs in real mode unless one of them says
otherwise. -/
def readPlace (argument : String) (standard : Mode) (place : List Char) :
    Except Failure (UInt32 × Mode) :=
  match pieces ':' place with
  | [] | [_] => do
    let offset ← readNumber (String.ofList place)
    return (offset, standard)
  | address :: modifiers => do
    let offset ← readNumber (String.ofList address)
    let mode ← modified argument { standard with assumedProtected := false } modifiers
    return (offset, mode)

def readRoot (argument : String) (standard : Mode) : Except Failure RootRequest :=
  match splitFirst '=' argument.toList with
  | some (_, []) => .error (.emptyRootName argument)
  | some (place, name) => do
    let (offset, mode) ← readPlace argument standard place
    return { offset, mode, name := some (String.ofList name) }
  | none => do
    let (offset, mode) ← readPlace argument standard argument.toList
    return { offset, mode, name := none }

def readLabel (argument : String) : Except Failure (UInt32 × String) :=
  match splitFirst '=' argument.toList with
  | some (address, first :: name) => do
    let offset ← readNumber (String.ofList address)
    return (offset, String.ofList (first :: name))
  | _ => .error (.labelShape argument)

end FlowDisasm.Command
