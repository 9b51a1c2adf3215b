import FlowDisasm.X86.Register

/-!
# Modes

How code is read depends on its width. Whether it runs in protected mode cannot be read off its bytes;
exploring assumes it and changes the assumption where the code itself switches modes.
-/
namespace FlowDisasm

/-- The width of code, and whether it is assumed to run in protected mode. -/
structure Mode where
  width : X86.Width
  assumedProtected : Bool
  deriving DecidableEq, Repr

namespace Mode

/-- The mode of DOS programs. -/
def real16 : Mode := ⟨.bits16, false⟩

/-- The mode of 32-bit drivers. -/
def protected32 : Mode := ⟨.bits32, true⟩

def toggled (mode : Mode) : Mode :=
  { mode with assumedProtected := !mode.assumedProtected }

/-- A mode as text: the bits of its width, and a mark for protected mode. -/
def text (mode : Mode) : String :=
  toString mode.width.bits ++ (if mode.assumedProtected then "pm" else "")

end Mode

end FlowDisasm
