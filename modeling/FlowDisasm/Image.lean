import FlowDisasm.Bytes.Word
import FlowDisasm.Error

/-!
# Images

An image is the bytes of a program at the address where it runs. Addresses are 64-bit numbers, so an
image may reach the top of the 32-bit address space or go over it. A read that is not wholly inside
names the first requested address that is not. Of 64-bit numbers it may ask for a range whose end is
none of them; then there is no answer at all, not even an error.
-/
namespace FlowDisasm

/-- Bytes that start at an address. -/
structure Image where
  base : UInt32
  bytes : ByteArray

namespace Image

/-- The address behind the last byte. -/
def limit (image : Image) : Nat :=
  image.base.toNat + image.bytes.size

def contains (image : Image) (address : Nat) : Bool :=
  image.base.toNat ≤ address && address < image.limit

/-- The bytes at an address, as many as there are up to a given number. -/
def window (image : Image) (address count : Nat) : List UInt8 :=
  if image.contains address then
    let start := address - image.base.toNat
    (image.bytes.extract start (start + count)).data.toList
  else []

/-- The bytes at an address, a given number of them. -/
def read (image : Image) (address count : Nat) : Except Error (List UInt8) :=
  if image.contains address then
    if address + count ≤ image.limit then .ok (image.window address count)
    else .error (.addressOutOfRange image.limit)
  else .error (.addressOutOfRange address)

/-- A read that counts from the base in 64-bit numbers, so that the end of the range can overflow. -/
def fetch? (image : Image) (address count : Nat) : Option (Except Error (List UInt8)) :=
  if image.contains address && UInt64.size ≤ address - image.base.toNat + count then none
  else some (image.read address count)

def fetchWord? {α : Type} [Bytes.Word α] (image : Image) (address : Nat) : Option (Except Error α) :=
  (image.fetch? address (Bytes.Word.width α)).map (Except.map Bytes.decode)

theorem length_window_le (image : Image) (address count : Nat) :
    (image.window address count).length ≤ count := by
  unfold window
  split
  · rw [Array.length_toList, ByteArray.data_extract, Array.size_extract]; omega
  · simp

end Image

end FlowDisasm
