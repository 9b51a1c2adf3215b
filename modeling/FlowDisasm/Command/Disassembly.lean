import FlowDisasm.Command.Arguments
import FlowDisasm.Command.Files
import FlowDisasm.Command.Location
import FlowDisasm.Command.Report
import FlowDisasm.Listing
import FlowDisasm.Seed

/-!
# Disassemblies

A disassembly explores from the entry point, from symbols and from the roots that are asked for, and shows
the listing of what was found. The arguments are read in a fixed order, and the first one that cannot be
used ends the command.
-/
namespace FlowDisasm.Command.Disassembly

open Text (Json)

def readCpu (name : String) : Except Failure X86.Cpu :=
  match X86.Cpu.ofName? name with
  | some cpu => .ok cpu
  | none => .error (.unknownCpu name)

def readService (request : DisasmRequest) : Except Failure (Option ServiceCall) :=
  if request.noServiceCalls then .ok none
  else do
    let vector ← readNumber request.serviceVector
    if vector.toNat < 256 then return some (.driverCall (UInt8.ofNat vector.toNat))
    else throw (.vectorRange request.serviceVector)

def load (files : Files) (request : DisasmRequest) (base : Option UInt32) : Running Executable :=
  let { path, .. } := request
  if request.raw then loading .image path (loadRaw files path (base.getD 0))
  else
    loading .executable path
      (loadExecutable files path (base.getD Executable.standardBase))

/-- The mode of roots that do not say otherwise. -/
def standardMode (executable : Executable) : Mode :=
  match executable.format with
  | .linear _ => .protected32
  | _ => .real16

def addSymbols (executable : Executable) (use : SymbolUse) (state : Exploration) :
    List Symbol → Except Failure Exploration
  | [] => .ok state
  | symbol :: rest => do
    let address ← plainly (executable.symbolAddress symbol)
    addSymbols executable use (state.addSymbol use address symbol.name) rest

def addMap (files : Files) (request : DisasmRequest) (executable : Executable)
    (state : Exploration) : Running Exploration :=
  match request.sym with
  | none => return state
  | some path => do
    let map ← loading .symbols path (loadSymbols files path)
    let use : SymbolUse := if request.symbolRoots then .root else .label
    let state ← check (addSymbols executable use state map.symbols)
    ExceptT.lift (Logged.record .info (s!"{map.symbolCount} symbols of module "
      ++ map.moduleName ++ " from " ++ displayName path))
    return state

def addLabels (state : Exploration) : List String → Except Failure Exploration
  | [] => .ok state
  | argument :: rest => do
    let (offset, name) ← readLabel argument
    addLabels (state.addLabel offset name) rest

def addRoots (standard : Mode) (state : Exploration) : List String → Except Failure Exploration
  | [] => .ok state
  | argument :: rest => do
    let { offset, mode, name } ← readRoot argument standard
    addRoots standard (state.addRoot offset mode name) rest

def start (files : Files) (request : DisasmRequest) (executable : Executable) :
    Running Exploration := do
  let state : Exploration := {}
  let state :=
    if request.noEntry then state.addSegments executable else state.seed executable
  let state ← addMap files request executable state
  let state ← check (addLabels state request.labels)
  let state ← check (addRoots (standardMode executable) state request.roots)
  if state.pending.isEmpty then throw .nothingToDisassemble
  return state

def explore (request : DisasmRequest) (subject : Subject) (state : Exploration) :
    Running Exploration := do
  let (state, log, result) := state.analyze subject
  ExceptT.lift ⟨log, ()⟩
  check (result.mapError (.disassembly request.path))
  return state

def json (request : DisasmRequest) (executable : Executable) (cpu : X86.Cpu) (state : Exploration)
    (listing : String) : Json :=
  .object [
    ("file", .text (displayName request.path)),
    ("kind", .text executable.format.name),
    ("base", .text (hexField 8 executable.image.base.toNat)),
    ("cpu", .text cpu.name),
    ("decoded", .number state.decoded),
    ("roots_queued", .number state.rootsQueued),
    ("visited", .number state.visited.size),
    ("labels", .number state.labels.size),
    ("diagnostics", .list (state.diagnostics.map fun diagnostic => .text diagnostic.message)),
    ("listing", .text listing)]

/-- Disassembles what a request asks for. -/
def run (files : Files) (asJson : Bool) (request : DisasmRequest) : Running String := do
  let base ← check (request.base.mapM readNumber)
  let executable ← load files request base
  let cpu ← check (readCpu request.cpu)
  let service ← check (readService request)
  let skipThreshold ← check (readNumber request.skipThreshold)
  let state ← start files request executable
  let subject := { image := executable.image, cpu, service }
  let state ← explore request subject state
  let listing ← check (plainly (Listing.render { skipThreshold } subject state))
  return if asJson then (json request executable cpu state listing).document else listing

end FlowDisasm.Command.Disassembly
