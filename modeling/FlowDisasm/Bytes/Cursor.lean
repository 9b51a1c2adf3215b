import FlowDisasm.Bytes.Buffer

/-!
# Cursors

A cursor is a place in a byte array that is read from front to back. An action on it reports what it
read or why it could not, together with where it left the cursor. Actions that fail leave it where it
was; only a text whose characters are missing leaves it behind the length byte.
-/
namespace FlowDisasm.Bytes

/-- A place in a byte array. -/
structure Cursor where
  data : Array UInt8
  position : Nat := 0

namespace Cursor

/-- What an action on a cursor reads, or its error, and the cursor it leaves. -/
abbrev Action (α : Type) := ExceptT Error (StateM Cursor) α

def hasMore (cursor : Cursor) : Bool :=
  cursor.position < cursor.data.size

/-- The position a number of bytes further, if it is not behind the end. -/
def endPosition (count : Nat) : Action Nat := do
  let cursor ← get
  if cursor.position + count ≤ cursor.data.size then return cursor.position + count
  else throw .outOfBounds

/-- Goes to a position; the end of the data is one. -/
def seek (position : Nat) : Action Unit := do
  let cursor ← get
  if position ≤ cursor.data.size then set { cursor with position }
  else throw .outOfBounds

def skip (count : Nat) : Action Unit := do
  let position ← endPosition count
  modify fun cursor => { cursor with position }

/-- The next word, which stays unread. -/
def peek {α : Type} [Word α] : Action α := do
  let cursor ← get
  match read? cursor.data cursor.position with
  | some word => return word
  | none => throw .outOfBounds

def word {α : Type} [Word α] : Action α := do
  let word ← peek
  modify fun cursor => { cursor with position := cursor.position + Word.width α }
  return word

def bytes (count : Nat) : Action (List UInt8) := do
  let cursor ← get
  match range? cursor.data cursor.position count with
  | some bytes =>
    set { cursor with position := cursor.position + count }
    return bytes
  | none => throw .outOfBounds

/-- The Latin-1 text whose length is told by the byte in front of it. -/
def text : Action String := do
  let length : UInt8 ← word
  let characters ← bytes length.toNat
  return String.ofList (characters.map fun byte => Char.ofNat byte.toNat)

end Cursor

end FlowDisasm.Bytes
