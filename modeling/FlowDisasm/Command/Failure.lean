import FlowDisasm.Error

/-!
# Failures of commands

A command fails for a reason of its own, or because of an error that it puts into context. A failure is
reported as its causes, the outermost first.
-/
namespace FlowDisasm.Command

/-- What is wrong with the digits of a number. -/
inductive DigitFault where
  | empty
  | notDigit
  | tooLarge
  deriving DecidableEq

def DigitFault.message : DigitFault → String
  | .empty => "cannot parse integer from empty string"
  | .notDigit => "invalid digit found in string"
  | .tooLarge => "number too large to fit in target type"

/-- What a file is read for. -/
inductive Purpose where
  | executable
  | image
  | symbols
  deriving DecidableEq

/-- What was tried when a file of a purpose was not read. -/
def Purpose.attempt : Purpose → String
  | .executable => "failed to load executable: "
  | .image => "failed to read image: "
  | .symbols => "failed to load symbol file: "

/-- Why a command failed. -/
inductive Failure where
  | load (purpose : Purpose) (path : String) (error : Error)
  | disassembly (path : String) (error : Error)
  | number (text : String) (hexadecimal : Bool) (fault : DigitFault)
  /-- A name is announced in a root but there is none. -/
  | emptyRootName (argument : String)
  | rootModifier (modifier argument : String)
  /-- A label is not an address and a name. -/
  | labelShape (argument : String)
  | unknownCpu (name : String)
  | vectorRange (text : String)
  | nothingToDisassemble
  | other (error : Error)
  deriving DecidableEq

/-- An error with its own causes: the system's report of a file is the cause of its own text. -/
def errorCauses (error : Error) : List String :=
  match error with
  | .file fault => [error.message, fault.message]
  | _ => [error.message]

/-- The causes of a failure, the outermost first. -/
def Failure.causes : Failure → List String
  | .load purpose path error => (purpose.attempt ++ path) :: errorCauses error
  | .disassembly path error => ("failed to disassemble " ++ path) :: errorCauses error
  | .number text hexadecimal fault =>
    [(if hexadecimal then "invalid hex number: " else "invalid number: ") ++ text, fault.message]
  | .emptyRootName argument => ["empty root name in '" ++ argument ++ "'"]
  | .rootModifier modifier argument =>
    ["unknown root modifier '" ++ modifier ++ "' in '" ++ argument ++ "'"]
  | .labelShape argument => ["expected ADDR=NAME, got '" ++ argument ++ "'"]
  | .unknownCpu name => ["unknown CPU model: " ++ name, "Matching variant not found"]
  | .vectorRange text => ["service vector out of range: " ++ text, DigitFault.tooLarge.message]
  | .nothingToDisassemble => ["nothing to disassemble: no entry point and no --root given"]
  | .other error => errorCauses error

def Failure.message (failure : Failure) : String :=
  "\n".intercalate failure.causes

end FlowDisasm.Command
