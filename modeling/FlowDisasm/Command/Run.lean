import FlowDisasm.Command.Arguments
import FlowDisasm.Command.Disassembly
import FlowDisasm.Command.Info
import FlowDisasm.Command.SymbolReport

/-!
# Running commands

A command line is read first. A command that it makes then reads its files and either prints its report
or fails, and keeps a log in both cases.
-/
namespace FlowDisasm.Command

def Task.paths : Task → List String
  | .info path => [path]
  | .symbols path exe _ => path :: exe.toList
  | .disasm request => request.path :: request.sym.toList

def Task.run (files : Files) (asJson : Bool) : Task → Running String
  | .info path => Info.run files asJson path
  | .symbols path exe base => SymbolReport.run files asJson path exe base
  | .disasm request => Disassembly.run files asJson request

/-- What a command prints, or why it failed, and its log. -/
def Invocation.run (files : Files) (invocation : Invocation) : Logged (Except Failure String) :=
  (invocation.task.run files invocation.json).run

/-- The log records that are shown: warnings in any case, more for readers, and even more on demand. -/
def Invocation.level (invocation : Invocation) : Level :=
  if invocation.verbose then .debug else if invocation.json then .warn else .info

end FlowDisasm.Command
