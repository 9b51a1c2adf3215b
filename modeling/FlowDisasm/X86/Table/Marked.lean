import FlowDisasm.X86.Entry

/-!
# Operations of later processors

The processors at hand have none of these operations, so they matter only for the message that refuses
them. Most of them take the mark in front of the opcode as a part of the opcode, so that one opcode can
stand for up to four of them.
-/
namespace FlowDisasm.X86.Marked

def later (name : String) (slots : List Slot) : Form :=
  { name, slots, feature := .later }

/-- The name that goes with a mark, of four names; an empty name is no operation. -/
def choose (mark : Mark) (plain size equal notEqual : String) : Option String :=
  let name := mark.choose plain size equal notEqual
  if name.isEmpty then none else some name

/-- A later form that is there for one mark alone. -/
def only (expected mark : Mark) (form : Form) : Option Form :=
  if mark = expected then some form else none

def onEitherFile (mark : Mark) (name : String) (rest : List Slot) : Option Form :=
  match mark with
  | .none => some (later name ([.multimedia, .multimediaRm] ++ rest))
  | .size => some (later name ([.vector, .vectorRm] ++ rest))
  | _ => none

end FlowDisasm.X86.Marked
