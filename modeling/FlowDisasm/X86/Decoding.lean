import FlowDisasm.Bytes.Word

/-!
# Reading an instruction byte by byte

A decoding is either finished, known to be no instruction, or waiting for one more byte. So what it finds
in a byte list depends on the bytes it took and on nothing behind them, and it can only run out of bytes
by asking for the one behind the last.
-/
namespace FlowDisasm.X86

/-- A reading of bytes that is finished, refused, or waiting for the next byte. -/
inductive Decoding (α : Type) where
  | done (value : α)
  | undefined
  | next (read : UInt8 → Decoding α)

/-- What a decoding makes of a byte list. -/
inductive Outcome (α : Type) where
  /-- A value, with the number of bytes taken for it. -/
  | found (value : α) (taken : Nat)
  | undefined
  /-- The bytes end inside. -/
  | truncated

namespace Decoding

variable {α β : Type}

def andThen : Decoding α → (α → Decoding β) → Decoding β
  | done value, following => following value
  | undefined, _ => undefined
  | next read, following => next fun byte => (read byte).andThen following

instance : Monad Decoding where
  pure := done
  bind := andThen

/-- Applies a decoding to bytes, of which some number was taken before. -/
def runFrom (taken : Nat) : Decoding α → List UInt8 → Outcome α
  | done value, _ => .found value taken
  | undefined, _ => .undefined
  | next _, [] => .truncated
  | next read, byte :: rest => (read byte).runFrom (taken + 1) rest

def run (decoding : Decoding α) (bytes : List UInt8) : Outcome α :=
  decoding.runFrom 0 bytes

def byte : Decoding UInt8 := next done

def bytes : Nat → Decoding (List UInt8)
  | 0 => pure []
  | count + 1 => do
    let first ← byte
    let rest ← bytes count
    return first :: rest

def word {ω : Type} [Bytes.Word ω] : Decoding ω := do
  let bytes ← bytes (Bytes.Word.width ω)
  return Bytes.decode bytes

/-- A decoding that takes bytes from a list finds the same behind any other bytes. -/
theorem runFrom_append {decoding : Decoding α} {value : α} {start taken : Nat}
    {front : List UInt8} (behind : List UInt8)
    (h : decoding.runFrom start front = .found value taken) :
    decoding.runFrom start (front ++ behind) = .found value taken := by
  induction decoding generalizing start front with
  | done found => simpa [runFrom] using h
  | undefined => simp [runFrom] at h
  | next read ih =>
    cases front with
    | nil => simp [runFrom] at h
    | cons first rest => exact ih first h

end Decoding

end FlowDisasm.X86
