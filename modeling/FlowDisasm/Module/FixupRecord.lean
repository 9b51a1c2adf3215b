import FlowDisasm.Bytes.Fields
import FlowDisasm.Error

/-!
# Fixup records

A record names one target and the places in a page that refer to it: one place, or a counted list. The
records of a page stand one after the other, and each tells its own length. A stream is read as a whole
or refused at its first record that is not well formed.
-/
namespace FlowDisasm.Module

open Bytes (Layout field encode)

/-- How a place refers to its target. -/
inductive FixupKind where
  | offset32
  | relative32
  deriving DecidableEq

namespace FixupKind

def ofSource? (source : UInt8) : Option FixupKind :=
  if source &&& 0x0F = 7 then some offset32
  else if source &&& 0x0F = 8 then some relative32
  else none

def code : FixupKind → UInt8
  | offset32 => 7
  | relative32 => 8

def name : FixupKind → String
  | offset32 => "Offset32"
  | relative32 => "Relative32"

end FixupKind

/-- A record with its position in the stream of its page. -/
structure FixupRecord where
  position : Nat
  kind : FixupKind
  object : UInt8
  offset : UInt32
  /-- Places relative to the page; negative ones belong to the page before. -/
  sources : List Int16
  deriving DecidableEq

namespace FixupRecord

/-- Set in a source byte that asks for a 16:16 alias. -/
def aliasFlag : UInt8 := 0x10

/-- Set in a source byte whose places are a counted list. -/
def listFlag : UInt8 := 0x20

/-- Set in a target byte whose offset has four bytes. -/
def wideFlag : UInt8 := 0x10

def targetLayout (wide : Bool) : Layout (UInt8 × UInt32) := do
  let object : UInt8 ← field
  if wide then
    let offset : UInt32 ← field
    return (object, offset)
  else
    let offset : UInt16 ← field
    return (object, offset.toUInt32)

/-- What stands behind the two bytes that tell the shape of a record. -/
def bodyLayout (isList wide : Bool) : Layout ((UInt8 × UInt32) × List Int16) := do
  if isList then
    let count : UInt8 ← field
    let target ← targetLayout wide
    let sources ← Layout.repeat field count.toNat
    return (target, sources)
  else
    let source : Int16 ← field
    let target ← targetLayout wide
    return (target, [source])

/-- The record at the front of a stream and what is behind it. -/
def take (position : Nat) : List UInt8 → Except FixupFault (FixupRecord × List UInt8)
  | source :: target :: rest =>
    match FixupKind.ofSource? source with
    | none => .error (.addressType source)
    | some kind =>
      if source &&& aliasFlag != 0 then .error (.alias source)
      else if target != 0 && target != wideFlag then .error (.targetType target)
      else
        match bodyLayout (source &&& listFlag != 0) (target == wideFlag) rest with
        | none => .error .truncated
        | some (((object, offset), sources), rest) =>
          .ok ({ position, kind, object, offset, sources }, rest)
  | _ => .error .truncated

/-- The records of a stream of which the front was read, or the position and the fault of the first
one that is not well formed. Every record takes some bytes, so there are no more records than bytes. -/
def readFrom (position : Nat) : Nat → List UInt8 → Except (Nat × FixupFault) (List FixupRecord)
  | _, [] => .ok []
  | 0, _ => .error (position, .truncated)
  | fuel + 1, bytes =>
    match take position bytes with
    | .error fault => .error (position, fault)
    | .ok (record, rest) =>
      match readFrom (position + (bytes.length - rest.length)) fuel rest with
      | .error failure => .error failure
      | .ok records => .ok (record :: records)

/-- The error of a record in the stream of a page, with the first bytes of the record. -/
def failure (page : UInt32) (stream : List UInt8) (position : Nat) (fault : FixupFault) : Error :=
  .fixup page position fault ((stream.drop position).take 16)

/-- The records of the stream of a page. -/
def readAll (page : UInt32) (stream : List UInt8) : Except Error (List FixupRecord) :=
  match readFrom 0 stream.length stream with
  | .ok records => .ok records
  | .error (position, fault) => .error (failure page stream position fault)

end FixupRecord

end FlowDisasm.Module
