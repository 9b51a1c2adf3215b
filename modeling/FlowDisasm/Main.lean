import FlowDisasm.Command.Run

/-!
# The command line program

Reads the files that a command names, runs the command, and prints its report, its log and its failure.
-/
namespace FlowDisasm.Main

open Command

def usageText : String :=
  "Usage: flowdisasm [--json] [-v] <COMMAND>\n\n"
    ++ "  info <FILE>\n"
    ++ "  symbols [--exe <FILE>] [--base <ADDR>] <FILE>\n"
    ++ "  disasm [OPTIONS] <FILE>\n"
    ++ "  help [COMMAND]\n"

def usageMessage : Usage → String
  | .unknownArgument => "unexpected argument"
  | .unknownVerb => "unrecognized command"
  | .missingVerb => "a command is required"
  | .missingArgument => "a required argument is missing"
  | .emptyValue => "a value is required"
  | .attachedValue => "an unexpected value is attached to a switch"
  | .repeated => "a switch cannot be used more than once"
  | .nothing | .help | .version => ""

def readFile (path : String) : IO (Except Error (Array UInt8)) := do
  try
    let bytes ← IO.FS.readBinFile path
    return if bytes.isEmpty then .error .empty else .ok bytes.data
  catch _ => return .error (.file .missing)

def readFiles (paths : List String) : IO Files := do
  let contents ← paths.mapM fun path => do
    let bytes ← readFile path
    return (path, bytes)
  return fun path => (contents.lookup path).getD (.error (.file .missing))

def carryOut (invocation : Invocation) : IO UInt32 := do
  let files ← readFiles invocation.task.paths
  let { log, value } := invocation.run files
  for record in Record.atLeast invocation.level log do
    IO.eprintln ("[" ++ record.level.name ++ "] " ++ record.text)
  match value with
  | .ok report =>
    IO.print report
    return 0
  | .error failure =>
    IO.eprintln ("Error: " ++ failure.message)
    return 1

def answer (usage : Usage) : IO UInt32 := do
  match usage with
  | .help =>
    IO.print usageText
    return 0
  | .version =>
    IO.println "flowdisasm 0.1.0"
    return 0
  | .nothing =>
    IO.eprint usageText
    return 2
  | _ =>
    IO.eprintln ("error: " ++ usageMessage usage)
    IO.eprint usageText
    return 2

end FlowDisasm.Main

/-- Reads the command line and carries it out. -/
def main (arguments : List String) : IO UInt32 :=
  match FlowDisasm.Command.Invocation.read arguments with
  | .ok invocation => FlowDisasm.Main.carryOut invocation
  | .error usage => FlowDisasm.Main.answer usage
