/-!
# Log records

Loading and exploring report what they do as records of four levels. A computation that keeps a log
returns its records beside its result, in the order in which they arose; what it computes does not depend
on them.
-/
namespace FlowDisasm

/-- How much a record matters, most first. -/
inductive Level where
  | warn
  | info
  | debug
  | trace
  deriving DecidableEq, Repr

def Level.rank : Level → Nat
  | .warn => 0
  | .info => 1
  | .debug => 2
  | .trace => 3

def Level.name : Level → String
  | .warn => "WARN"
  | .info => "INFO"
  | .debug => "DEBUG"
  | .trace => "TRACE"

/-- One line of a log. -/
structure Record where
  level : Level
  text : String

/-- The records that matter at least as much as a level. -/
def Record.atLeast (level : Level) (records : List Record) : List Record :=
  records.filter fun record => record.level.rank ≤ level.rank

/-- A value with the records that its computation left. -/
structure Logged (α : Type) where
  log : List Record
  value : α

namespace Logged

variable {α β ε : Type}

def quiet (value : α) : Logged α := ⟨[], value⟩

def record (level : Level) (text : String) : Logged Unit := ⟨[⟨level, text⟩], ()⟩

def andThen (first : Logged α) (next : α → Logged β) : Logged β :=
  let second := next first.value
  ⟨first.log ++ second.log, second.value⟩

instance : Monad Logged where
  pure := quiet
  bind := andThen

@[simp] theorem value_quiet (value : α) : (quiet value).value = value := rfl

@[simp] theorem value_pure (value : α) : (pure value : Logged α).value = value := rfl

@[simp] theorem value_bind (first : Logged α) (next : α → Logged β) :
    (first >>= next).value = (next first.value).value := rfl

@[simp] theorem log_bind (first : Logged α) (next : α → Logged β) :
    (first >>= next).log = first.log ++ (next first.value).log := rfl

end Logged

end FlowDisasm
