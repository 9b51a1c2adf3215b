import FlowDisasm.Bytes.Word
import FlowDisasm.Error

/-!
# Reading and writing inside a byte array

A range is either wholly inside the array or it cannot be read or written at all. A buffer is an array
with the place of the next access, which moves only when the access succeeds.
-/
namespace FlowDisasm.Bytes

/-- The bytes of a range, if all of it is inside the data. -/
def range? (data : Array UInt8) (start count : Nat) : Option (List UInt8) :=
  if start + count ≤ data.size then some (data.extract start (start + count)).toList else none

def read? {α : Type} [Word α] (data : Array UInt8) (start : Nat) : Option α :=
  (range? data start (Word.width α)).map decode

/-- The data with bytes laid over it from a place on. -/
def overlay (data : Array UInt8) (start : Nat) : List UInt8 → Array UInt8
  | [] => data
  | byte :: rest => overlay (data.setIfInBounds start byte) (start + 1) rest

def write? {α : Type} [Word α] (data : Array UInt8) (start : Nat) (word : α) :
    Option (Array UInt8) :=
  if start + Word.width α ≤ data.size then some (overlay data start (encode word)) else none

@[simp] theorem size_overlay (data : Array UInt8) (start : Nat) (bytes : List UInt8) :
    (overlay data start bytes).size = data.size := by
  induction bytes generalizing data start with
  | nil => rfl
  | cons byte rest ih => simp [overlay, ih]

theorem range?_eq_none_iff (data : Array UInt8) (start count : Nat) :
    range? data start count = none ↔ data.size < start + count := by
  unfold range?
  split
  · simp only [reduceCtorEq, false_iff]; omega
  · simp only [true_iff]; omega

theorem length_of_range? {data : Array UInt8} {start count : Nat} {bytes : List UInt8}
    (h : range? data start count = some bytes) : bytes.length = count := by
  unfold range? at h
  split at h
  · obtain rfl := Option.some.inj h
    simp only [Array.length_toList, Array.size_extract]
    omega
  · simp at h

/-- A byte array with the place of the next access. -/
structure Buffer where
  data : Array UInt8
  offset : Nat := 0

namespace Buffer

variable {α : Type} [Word α]

/-- The word at the start of the data. -/
def read (buffer : Buffer) : Except Error α :=
  match read? buffer.data 0 with
  | some word => .ok word
  | none => .error .outOfBounds

/-- The word at the offset, and the buffer with the offset behind it. -/
def readNext (buffer : Buffer) : Except Error (α × Buffer) :=
  match read? buffer.data buffer.offset with
  | some word => .ok (word, { buffer with offset := buffer.offset + Word.width α })
  | none => .error .outOfBounds

/-- The buffer with a word at the start of the data. -/
def write (buffer : Buffer) (word : α) : Except Error Buffer :=
  match write? buffer.data 0 word with
  | some data => .ok { buffer with data }
  | none => .error .outOfBounds

/-- The buffer with a word at the offset and the offset behind it. -/
def writeNext (buffer : Buffer) (word : α) : Except Error Buffer :=
  match write? buffer.data buffer.offset word with
  | some data => .ok { data, offset := buffer.offset + Word.width α }
  | none => .error .outOfBounds

end Buffer

end FlowDisasm.Bytes
