import FlowDisasm.Exploration
import FlowDisasm.Module.Executable

/-!
# Seeds

An executable tells where its segments start and where it is entered; a symbol map adds names or roots.
This is what exploring starts from before anything is asked for by hand.
-/
namespace FlowDisasm

/-- What a symbol of a map becomes. -/
inductive SymbolUse where
  | label
  | root
  deriving DecidableEq

namespace Exploration

def addSegments (state : Exploration) (executable : Executable) : Exploration :=
  executable.segmentStarts.foldl addSegmentStart state

/-- Registers the segments of an executable and queues its entry point. -/
def seed (state : Exploration) (executable : Executable) : Exploration :=
  let state := state.addSegments executable
  match executable.entry? with
  | some entry => state.addRoot entry.offset entry.mode (some entry.name)
  | none => state

def addSymbol (state : Exploration) (use : SymbolUse) (address : UInt32) (name : String) :
    Exploration :=
  match use with
  | .label => state.addLabel address name
  | .root => state.addRoot address .protected32 (some name)

end Exploration

end FlowDisasm
