import FlowDisasm.Text.Hex
import FlowDisasm.X86.Register

/-!
# Segmented addresses

Listings show flat offsets as a segment and an offset in it. In 16-bit code the segment is the one of the
64K block, as real mode would address it. In 32-bit code it is the number of the last registered start at
or below the offset, counted from one in the order of registration, and the offset stays flat.
-/
namespace FlowDisasm

/-- An offset with the segment that it is shown in. -/
structure SegmentedAddress where
  segment : UInt16
  offset : UInt32
  width : X86.Width
  deriving DecidableEq

/-- The number of the last start at or below an offset, where counting begins behind some starts. -/
def lastStart (offset : UInt32) (before : Nat) (found : UInt16) : List UInt32 → UInt16
  | [] => found
  | start :: starts =>
    lastStart offset (before + 1)
      (if start ≤ offset then UInt16.ofNat (before + 1) else found) starts

namespace SegmentedAddress

/-- The segmented address of an offset, for code of a width and registered segment starts. -/
def of (starts : List UInt32) (offset : UInt32) (width : X86.Width) : SegmentedAddress :=
  match width with
  | .bits16 =>
    { segment := ((offset >>> 16) <<< 12).toUInt16, offset := offset &&& 0xFFFF, width }
  | .bits32 => { segment := lastStart offset 0 0 starts, offset, width }

/-- The address some bytes further; in 16-bit code it stays in its segment. -/
def advance (address : SegmentedAddress) (count : UInt32) : SegmentedAddress :=
  let offset := match address.width with
    | .bits16 => (address.offset + count) &&& 0xFFFF
    | .bits32 => address.offset + count
  { address with offset }

def text (address : SegmentedAddress) : String :=
  Text.hexPadded 4 address.segment.toNat ++ ":"
    ++ Text.hexPadded (2 * address.width.bytes) address.offset.toNat

end SegmentedAddress

end FlowDisasm
