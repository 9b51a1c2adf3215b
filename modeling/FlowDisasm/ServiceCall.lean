import FlowDisasm.Bytes.Word
import FlowDisasm.ServiceName
import FlowDisasm.Text.Hex

/-!
# Service calls

Drivers call each other by a software interrupt with a few bytes of data behind it. In protected mode the
bytes behind such an interrupt are no instruction; a listing shows them with the interrupt and explains
them.
-/
namespace FlowDisasm

/-- A convention for software interrupts with data behind them. -/
structure ServiceCall where
  vector : UInt8
  /-- Bytes of data behind the interrupt. -/
  trailing : UInt32
  /-- What a listing says about the data. -/
  annotate : List UInt8 → Option String

namespace ServiceCall

def driverVector : UInt8 := 0x20

/-- What a listing says about a call between drivers: the two numbers, and the names that are known.
The highest bit of the service tells a jump from a call and is no part of the number. -/
def describeDriverCall : List UInt8 → Option String
  | s0 :: s1 :: d0 :: d1 :: _ =>
    let service : UInt16 := Bytes.decode [s0, s1] &&& 0x7FFF
    let driver : UInt16 := Bytes.decode [d0, d1]
    let serviceName :=
      if driver = ServiceName.managerNumber then ServiceName.managerService? service else none
    let names := (ServiceName.driver? driver).toList ++ serviceName.toList
    some ("\t; VxdCall 0x" ++ Text.hexPadded 4 driver.toNat ++ ",0x"
      ++ Text.hexPadded 4 service.toNat ++ String.join (names.map (" " ++ ·)))
  | _ => none

/-- The convention of calls between drivers, on any vector: a service and a driver number. -/
def driverCall (vector : UInt8) : ServiceCall where
  vector := vector
  trailing := 4
  annotate := describeDriverCall

end ServiceCall

end FlowDisasm
