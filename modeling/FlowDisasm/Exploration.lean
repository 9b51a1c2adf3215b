import Std.Data.ExtTreeMap
import FlowDisasm.Address
import FlowDisasm.Log
import FlowDisasm.Mode
import FlowDisasm.ServiceCall
import FlowDisasm.X86.Instruction

/-!
# Exploring code

Exploring follows control flow from given roots. Roots wait in a queue, first in first out; each one is
walked instruction by instruction until the walk leaves the image, meets an offset that was visited, or
comes to an instruction that does not go on. Destinations of branches become new roots. Every offset is
decoded at most once, in the mode in which it is met first.

What an instruction leads to depends on the image and the mode alone; this is kept apart from the state
that walks change.
-/
namespace FlowDisasm

/-- What is explored: an image, the processor that runs it, and its convention for service calls. -/
structure Subject where
  image : Image
  cpu : X86.Cpu
  service : Option ServiceCall

/-- An offset to walk from, with the mode of the code there. -/
structure Root where
  offset : UInt32
  mode : Mode
  deriving DecidableEq

/-- How an offset was visited. -/
structure Visit where
  mode : Mode
  /-- Whether a root was at the offset. -/
  isTarget : Bool
  deriving DecidableEq

/-- A far branch that could not be followed. -/
structure Diagnostic where
  offset : UInt32
  address : SegmentedAddress
  /-- The text of the branch. -/
  text : String
  deriving DecidableEq

def Diagnostic.message (diagnostic : Diagnostic) : String :=
  diagnostic.address.text ++ ": (offset " ++ Text.hex diagnostic.offset.toNat
    ++ ") Not handled due to protected mode being enabled. " ++ diagnostic.text

def synthesizedLabel (offset : UInt32) : String :=
  "lab_" ++ Text.hexPadded 6 offset.toNat

/-- The number of data bytes behind an instruction, if it is a service call in a mode. -/
def Subject.trailing? (subject : Subject) (instruction : X86.Instruction) (mode : Mode) :
    Option UInt32 :=
  match subject.service with
  | some service =>
    if mode.assumedProtected && instruction.vector? = some service.vector then
      some service.trailing
    else none
  | none => none

/-- What an instruction leads to. -/
structure Course where
  /-- A destination that is explored later. -/
  branch : Option Root := none
  /-- Whether there is a destination that cannot be followed. -/
  aside : Bool := false
  /-- Where the walk goes on. -/
  next : Option Root := none

/-- Why it cannot be said what an instruction leads to. -/
inductive Obstacle where
  /-- The data of a service call is not in the image. -/
  | missingData (error : Error)
  | looseBranch
  | farTarget

namespace Subject

/-- What a far branch leads to, apart from the instruction behind it. A selector means something only to
real mode. -/
def farCourse (instruction : X86.Instruction) (mode : Mode) : Except Obstacle Course :=
  match instruction.first? with
  | some (.register _) | some (.memory _ _) => .ok {}
  | some (.far16 selector offset) =>
    if mode.assumedProtected then .ok { aside := true }
    else .ok { branch := some ⟨selector.toUInt32 * 16 + offset.toUInt32, mode⟩ }
  | some (.far32 _ _) => if mode.assumedProtected then .ok { aside := true } else .error .farTarget
  | _ => .error .farTarget

/-- What an instruction leads to in a mode. -/
def course (subject : Subject) (instruction : X86.Instruction) (mode : Mode) :
    Except Obstacle Course :=
  let behind : Root := ⟨instruction.next, mode⟩
  let branch := instruction.target?.map fun target => (⟨target, mode⟩ : Root)
  match instruction.operation.flow with
  | .mov =>
    if instruction.writesModeRegister then .ok { next := some { behind with mode := mode.toggled } }
    else .ok { next := some behind }
  | .int =>
    match subject.trailing? instruction mode with
    | none => .ok { next := some behind }
    | some count =>
      match subject.image.read instruction.next.toNat count.toNat with
      | .ok _ => .ok { next := some { behind with offset := instruction.next + count } }
      | .error error => .error (.missingData error)
  | .jmp => .ok { branch }
  | .call => .ok { branch, next := some behind }
  | .jcc | .loop =>
    if branch.isSome then .ok { branch, next := some behind } else .error .looseBranch
  | .ret | .retf | .iret => .ok {}
  | .jmpFar => farCourse instruction mode
  | .callFar =>
    match farCourse instruction mode with
    | .ok course => .ok { course with next := some behind }
    | .error obstacle => .error obstacle
  | .other => .ok { next := some behind }

end Subject

/-- What was found so far and what is left to do. -/
structure Exploration where
  visited : Std.ExtTreeMap UInt32 Visit compare := ∅
  labels : Std.ExtTreeMap UInt32 String compare := ∅
  /-- The starts of segments in the order of registration. -/
  segmentStarts : List UInt32 := []
  /-- The roots that wait, the next one first. -/
  pending : List Root := []
  diagnostics : List Diagnostic := []
  /-- Instructions decoded. -/
  decoded : Nat := 0
  /-- Roots that were ever queued. -/
  rootsQueued : Nat := 0
  /-- Diagnostics raised. -/
  diagnosed : Nat := 0

/-- Where a walk is. -/
structure Walk where
  offset : UInt32
  mode : Mode
  /-- Whether the walk has not moved yet. -/
  atRoot : Bool

/-- How one step of a walk ends. -/
inductive Verdict where
  | going (walk : Walk)
  | finished
  | failed (error : Error)

/-- How a walk goes on behind an instruction. -/
def Course.verdict (course : Course) : Verdict :=
  match course.next with
  | some next => .going ⟨next.offset, next.mode, false⟩
  | none => .finished

/-- What one step of a walk does. -/
structure Stride where
  state : Exploration
  verdict : Verdict
  log : List Record := []

namespace Exploration

def queue (state : Exploration) (root : Root) : Exploration :=
  { state with pending := state.pending ++ [root], rootsQueued := state.rootsQueued + 1 }

/-- Names an offset, in place of any name that it has. -/
def addLabel (state : Exploration) (offset : UInt32) (name : String) : Exploration :=
  { state with labels := state.labels.insert offset name }

def addRoot (state : Exploration) (offset : UInt32) (mode : Mode) (name : Option String) :
    Exploration :=
  let state := match name with
    | some name => state.addLabel offset name
    | none => state
  state.queue ⟨offset, mode⟩

def addSegmentStart (state : Exploration) (start : UInt32) : Exploration :=
  { state with segmentStarts := state.segmentStarts ++ [start] }

/-- The address that an offset is shown as in code of a mode. -/
def address (state : Exploration) (offset : UInt32) (mode : Mode) : SegmentedAddress :=
  .of state.segmentStarts offset mode.width

/-- The name of an offset: its own, or one made up for a branch destination. -/
def labelFor (state : Exploration) (offset : UInt32) : Option String :=
  match state.labels[offset]?, state.visited[offset]? with
  | some name, _ => some name
  | none, some visit => if visit.isTarget then some (synthesizedLabel offset) else none
  | none, none => none

def markTarget (state : Exploration) (offset : UInt32) (visit : Visit) : Exploration :=
  { state with visited := state.visited.insert offset { visit with isTarget := true } }

def recordVisit (state : Exploration) (walk : Walk) : Exploration :=
  { state with
    visited := state.visited.insert walk.offset ⟨walk.mode, walk.atRoot⟩
    decoded := state.decoded + 1 }

def addDiagnostic (state : Exploration) (diagnostic : Diagnostic) : Exploration :=
  { state with
    diagnostics := state.diagnostics ++ [diagnostic]
    diagnosed := state.diagnosed + 1 }

def diagnostic (state : Exploration) (instruction : X86.Instruction) (mode : Mode) : Diagnostic where
  offset := instruction.offset
  address := state.address instruction.offset mode
  text := instruction.text none

def obstacleError (state : Exploration) (instruction : X86.Instruction) (mode : Mode) :
    Obstacle → Error
  | .missingData error => error
  | .looseBranch =>
    .looseBranch (state.address instruction.offset mode).text (instruction.text none)
  | .farTarget => .farTarget (state.address instruction.offset mode).text (instruction.text none)

/-- Acts on what an instruction leads to. -/
def follow (state : Exploration) (instruction : X86.Instruction) (mode : Mode) (course : Course) :
    Exploration :=
  let state := match course.branch with
    | some root => state.queue root
    | none => state
  if course.aside then state.addDiagnostic (state.diagnostic instruction mode) else state

/-- What the log says about an instruction. -/
def records (state : Exploration) (instruction : X86.Instruction) (mode : Mode) (course : Course) :
    List Record :=
  if instruction.writesModeRegister then
    [⟨.debug, Text.hexPadded 8 instruction.offset.toNat ++ ": CR0 written, now assuming "
      ++ mode.toggled.text⟩]
  else if course.aside then [⟨.warn, (state.diagnostic instruction mode).message⟩]
  else []

/-- Acts on the instruction at a walk's place, which is decoded for the first time. -/
def visit (state : Exploration) (subject : Subject) (walk : Walk) (instruction : X86.Instruction) :
    Stride :=
  let state := state.recordVisit walk
  match subject.course instruction walk.mode with
  | .error obstacle =>
    { state, verdict := .failed (state.obstacleError instruction walk.mode obstacle) }
  | .ok course =>
    { state := state.follow instruction walk.mode course
      verdict := course.verdict
      log := state.records instruction walk.mode course }

/-- One step of a walk. -/
def stride (state : Exploration) (subject : Subject) (walk : Walk) : Stride :=
  if walk.offset.toNat < subject.image.limit then
    match state.visited[walk.offset]? with
    | some visit =>
      { state := if walk.atRoot then state.markTarget walk.offset visit else state
        verdict := .finished }
    | none =>
      match X86.decode subject.cpu subject.image walk.offset walk.mode.width with
      | .error error => { state, verdict := .failed error }
      | .ok instruction => state.visit subject walk instruction
  else
    { state, verdict := .finished
      log :=
        if walk.atRoot then
          [⟨.debug, "root " ++ Text.hexPadded 8 walk.offset.toNat
            ++ " lies beyond the image, not followed"⟩]
        else [] }

/-- Walks on. Every step but the last visits another address of the image, so the fuel lasts if it is
more than the image has addresses. -/
def walkOn (subject : Subject) : Nat → Exploration → Array Record → Walk →
    Exploration × Array Record × Option Error
  | 0, state, log, _ => (state, log, none)
  | fuel + 1, state, log, walk =>
    let { state, verdict, log := records } := state.stride subject walk
    let log := log ++ records.toArray
    match verdict with
    | .going walk => walkOn subject fuel state log walk
    | .finished => (state, log, none)
    | .failed error => (state, log, some error)

def walkFrom (state : Exploration) (subject : Subject) (log : Array Record) (root : Root) :
    Exploration × Array Record × Option Error :=
  walkOn subject (subject.image.bytes.size + 1) state log ⟨root.offset, root.mode, true⟩

/-- Walks from pending roots, and tells how many walks came to their end. Every walk takes one root, and
a new root comes with an instruction that is decoded. -/
def drain (subject : Subject) : Nat → Exploration → Array Record → Nat →
    Exploration × Array Record × Nat × Option Error
  | 0, state, log, walks => (state, log, walks, none)
  | fuel + 1, state, log, walks =>
    match state.pending with
    | [] => (state, log, walks, none)
    | root :: rest =>
      match walkFrom { state with pending := rest } subject log root with
      | (state, log, none) => drain subject fuel state log (walks + 1)
      | (state, log, some error) => (state, log, walks, some error)

/-- Walks from all pending roots and from those that are found on the way. A walk that fails ends the
analysis; what was recorded stays, and the other roots stay pending. -/
def analyze (state : Exploration) (subject : Subject) :
    Exploration × List Record × Except Error Unit :=
  let fuel := state.pending.length + subject.image.bytes.size + 1
  match drain subject fuel state #[] 0 with
  | (state, log, _, some error) => (state, log.toList, .error error)
  | (state, log, walks, none) =>
    let summary : List Record :=
      if walks = 0 then []
      else
        [⟨.info, s!"explored {state.decoded} instructions in {walks} walks, "
          ++ s!"{state.diagnosed} diagnostics"⟩]
    (state, log.toList ++ summary, .ok ())

end Exploration

end FlowDisasm
