import FlowDisasm.Log

/-!
# Hosts

Files are read in a monad that settles what comes of two things: of the notes that are taken on the way, and of what is
taken for granted, because checks that came before have made sure of it. The program keeps the notes and does not check
anything again. Another host may refuse to go on where something is not as it was taken for granted.
-/
namespace FlowDisasm

/-- A monad that files are read in. -/
class Host (m : Type → Type) where
  note : Level → String → m Unit
  /-- Takes a condition for granted. -/
  require (condition : Prop) [Decidable condition] : m Unit

namespace Host

instance : Host Logged where
  note := Logged.record
  require _ := return

variable {m : Type → Type} [Monad m] [Host m] {α : Type}

instance {ε : Type} : Host (ExceptT ε m) where
  note level text := ExceptT.lift (note level text)
  require condition := ExceptT.lift (require condition)

instance {σ : Type} : Host (StateT σ m) where
  note level text := StateT.lift (note level text)
  require condition := StateT.lift (require condition)

/-- A sum that is taken for a 64-bit number. -/
def sum (first second : Nat) : m Nat := do
  require (first + second < UInt64.size)
  return first + second

/-- A difference that is taken for a number. -/
def difference (first second : Nat) : m Nat := do
  require (second ≤ first)
  return first - second

def slice (data : Array UInt8) (start stop : Nat) : m (Array UInt8) := do
  require (start ≤ stop ∧ stop ≤ data.size)
  return data.extract start stop

def item (items : List α) (place : Nat) : m (Option α) := do
  require (place < items.length)
  return items[place]?

end Host

end FlowDisasm
