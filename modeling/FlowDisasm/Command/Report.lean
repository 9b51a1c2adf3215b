import FlowDisasm.Command.Failure
import FlowDisasm.Log
import FlowDisasm.Module.Executable
import FlowDisasm.Text.Json
import FlowDisasm.Text.Table

/-!
# Reports

A report has a form for readers and one for programs. Facts are shown in both: for readers as a title with
values, for programs as named members.
-/
namespace FlowDisasm.Command

open Text (Json)

/-- Carrying out a command: failures and a log. -/
abbrev Running (α : Type) := ExceptT Failure Logged α

def check {α : Type} : Except Failure α → Running α
  | .ok value => return value
  | .error failure => throw failure

/-- A result whose error has no context of its own. -/
def plainly {α : Type} (result : Except Error α) : Except Failure α :=
  result.mapError .other

/-- A logged result whose error gets the context of a file. -/
def loading {α : Type} (purpose : Purpose) (path : String) (loaded : Logged (Except Error α)) :
    Running α := do
  let result ← ExceptT.lift loaded
  check (result.mapError (.load purpose path))

def hexField (width number : Nat) : String :=
  "0x" ++ Text.hexPadded width number

/-- A value in a report. -/
inductive Value where
  | number (value : Nat)
  | text (value : String)

def Value.shown : Value → String
  | number value => toString value
  | text value => value

def Value.json : Value → Json
  | number value => .number value
  | text value => .text value

/-- Something that a report tells: one title for readers, a name for each value for programs. -/
structure Fact where
  title : String
  values : List (String × Value)

def shownFacts (title : String) (facts : List Fact) : String :=
  Text.fieldList title (facts.map fun fact =>
    (fact.title, " / ".intercalate (fact.values.map fun (_, value) => value.shown)))

def jsonFacts (facts : List Fact) : Json :=
  .object ((facts.flatMap Fact.values).map fun (name, value) => (name, value.json))

def countFact (title name : String) (value : Nat) : Fact :=
  { title, values := [(name, .number value)] }

def textFact (title name value : String) : Fact :=
  { title, values := [(name, .text value)] }

end FlowDisasm.Command
