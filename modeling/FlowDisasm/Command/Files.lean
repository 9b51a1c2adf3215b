import FlowDisasm.Error
import FlowDisasm.Module.Executable
import FlowDisasm.Text.Pieces

/-!
# Files and their names

Commands ask for files by path. A directory of plain files answers as a file system would: a path is cut
into its parts, and parts that stand for the directory itself do not count.
-/
namespace FlowDisasm.Command

open Text (pieces)

/-- The contents of the file at a path, or why there are none. -/
abbrev Files := String → Except Error (Array UInt8)

/-- The executable in the file at a path, relocated to a base if it can be. -/
def loadExecutable (files : Files) (path : String) (base : UInt32) :
    Logged (Except Error Executable) :=
  match files path with
  | .ok bytes => Executable.parse bytes base
  | .error error => Logged.quiet (.error error)

def loadRaw (files : Files) (path : String) (base : UInt32) : Logged (Except Error Executable) :=
  Logged.quiet ((files path).map fun bytes => Executable.raw ⟨bytes⟩ base)

def loadSymbols (files : Files) (path : String) : Logged (Except Error SymbolMap) :=
  match files path with
  | .ok bytes => SymbolMap.parse bytes
  | .error error => Logged.quiet (.error error)

/-- The parts of a path without those that stand for the same directory. -/
def pathParts (path : String) : List String :=
  ((pieces '/' path.toList).map String.ofList).filter fun part => part != "" && part != "."

/-- The last part of a path, or the whole path if that part names no file. -/
def displayName (path : String) : String :=
  match (pathParts path).getLast? with
  | some name => if name = ".." then path else name
  | none => path

/-- Whether a path can only be that of a directory. -/
def endsInDirectory (path : String) : Bool :=
  match (pieces '/' path.toList).getLast? with
  | some last => last = [] || last = ['.']
  | none => false

/-- The plain files of a directory, by their names. -/
def directory (files : List (String × Array UInt8)) : Files := fun path =>
  if path.isEmpty || path.startsWith "/" then .error (.file .missing)
  else
    match pathParts path with
    | [] => .error .notMappable
    | name :: rest =>
      match files.lookup name with
      | none => .error (.file .missing)
      | some bytes =>
        if !rest.isEmpty || endsInDirectory path then .error (.file .notDirectory)
        else if bytes.isEmpty then .error .empty
        else .ok bytes

end FlowDisasm.Command
