import FlowDisasm.Proofs.X86.Decode
import Mathlib.Data.List.Basic

/-!
# Decoding is local

Decoding looks at bytes in their order and stops behind the last byte of the instruction. So an instruction depends on its
own bytes alone, whatever else an image holds, and an image that ends inside of it lacks exactly the byte at its end.
-/
namespace FlowDisasm.X86

namespace Decoding

variable {α : Type} {decoding : Decoding α} {value : α} {start taken less : Nat} {bytes : List UInt8}

/-- A decoding waits for every byte that it takes. -/
theorem runFrom_take_of_lt (h : decoding.runFrom start bytes = .found value taken)
    (hless : start + less < taken) : decoding.runFrom start (bytes.take less) = .truncated := by
  induction decoding generalizing start bytes less with
  | done found =>
    obtain ⟨rfl, rfl⟩ := Outcome.found.inj h
    omega
  | undefined => cases h
  | next read ih =>
    cases bytes with
    | nil => cases h
    | cons first rest =>
      cases less with
      | zero => rfl
      | succ less =>
        rw [List.take_succ_cons]
        exact ih first h (by omega)

end Decoding

variable {cpu : Cpu} {image other : Image} {offset : UInt32} {width : Width} {instruction : Instruction}
  {less : Nat}

/-- Bytes that end inside an instruction, and with them the image, are missing the one behind them. -/
theorem decode_of_short (h : decode cpu image offset width = .ok instruction)
    (hless : less < instruction.bytes.length)
    (hwindow : other.window offset.toNat maxLength = instruction.bytes.take less) :
    decode cpu other offset width = .error (.addressOutOfRange (offset.toNat + less)) := by
  obtain ⟨⟨found, hrun, -⟩, -, hfits⟩ := decode_found h
  have hshort : (operation width).run (other.window offset.toNat maxLength) = .truncated := by
    rw [hwindow]
    exact Decoding.runFrom_take_of_lt hrun (by omega)
  have hlength : (other.window offset.toNat maxLength).length = less := by
    rw [hwindow, List.length_take_of_le (Nat.le_of_lt hless)]
  rw [decode, hshort]
  simp only [hlength]
  rw [if_pos (by omega)]

/-- The bytes of an instruction are the bytes of the image at its addresses. -/
theorem getElem?_bytes (h : decode cpu image offset width = .ok instruction) {index : Nat}
    (hindex : index < instruction.bytes.length) :
    instruction.bytes[index]? = image.byte? (offset.toNat + index) := by
  obtain ⟨-, hwindow, -⟩ := decode_found h
  obtain ⟨hbase, -⟩ := Image.contains_iff.mp (decode_contains h)
  rw [← Image.getElem?_window hbase hindex, ← hwindow]

/-- Decoding is local, and a cut is told precisely. An instruction has between one and fifteen bytes, which are those of
the image at its addresses. Any other image with these bytes at these addresses, whatever is around them, gives the same
instruction. Any image that has only the first of them, of which the one that is cut off at the next address is one,
lacks the byte at that address. -/
theorem decode_local (h : decode cpu image offset width = .ok instruction) :
    1 ≤ instruction.bytes.length ∧ instruction.bytes.length ≤ 15 ∧
    (∀ index < instruction.bytes.length, ∃ byte, instruction.bytes[index]? = some byte ∧
      image.byte? (offset.toNat + index) = some byte) ∧
    (∀ other : Image,
      (∀ index < instruction.bytes.length,
        other.byte? (offset.toNat + index) = image.byte? (offset.toNat + index)) →
      decode cpu other offset width = .ok instruction) ∧
    (∀ less < instruction.bytes.length,
      decode cpu (image.cut (offset.toNat + less)) offset width =
        .error (.addressOutOfRange (offset.toNat + less))) ∧
    ∀ less < instruction.bytes.length, ∀ other : Image,
      (∀ index < less, other.byte? (offset.toNat + index) = image.byte? (offset.toNat + index)) →
      other.byte? (offset.toNat + less) = none →
      decode cpu other offset width = .error (.addressOutOfRange (offset.toNat + less)) := by
  obtain ⟨-, -, hfits⟩ := decode_found h
  have hcut {less : Nat} (hless : less < instruction.bytes.length) {other : Image}
      (hsame : ∀ index < less,
        other.byte? (offset.toNat + index) = image.byte? (offset.toNat + index))
      (hend : other.byte? (offset.toNat + less) = none) :
      decode cpu other offset width = .error (.addressOutOfRange (offset.toNat + less)) := by
    have hlength : (instruction.bytes.take less).length = less := List.length_take_of_le (Nat.le_of_lt hless)
    refine decode_of_short h hless (Image.window_of_byte? (by omega) (fun index hindex => ?_) ?_)
    · rw [hlength] at hindex
      rw [hsame index hindex, List.getElem?_take_of_lt hindex, getElem?_bytes h (by omega)]
    · rw [hlength]
      exact fun _ => hend
  refine ⟨(decode_bytes h).1, hfits, fun index hindex => ?_, fun other hsame => ?_,
    fun less hless => ?_, fun less hless other => hcut hless⟩
  · exact ⟨_, List.getElem?_eq_getElem hindex,
      (getElem?_bytes h hindex).symm.trans (List.getElem?_eq_getElem hindex)⟩
  · have hwindow : other.window offset.toNat instruction.bytes.length = instruction.bytes := by
      refine Image.window_of_byte? (Nat.le_refl _) (fun index hindex => ?_) fun hlt => ?_
      · rw [hsame index hindex, getElem?_bytes h hindex]
      · exact absurd hlt (Nat.lt_irrefl _)
    rw [decode_of_window h hwindow, ← decode_offset h]
  · exact hcut hless (fun index hindex => Image.byte?_cut (by omega)) Image.byte?_cut_self

/-- A move of a word to the stack: a prefix, an opcode, two bytes of an address with four bytes of displacement, and two
bytes of a value. -/
def movedWord : List UInt8 := [0x66, 0xC7, 0x84, 0x24, 0x78, 0x56, 0x34, 0x12, 0xCD, 0xAB]

theorem decode_local_movedWord :
    (decode .i80386 ⟨0x1000, ⟨(movedWord ++ [0x90]).toArray⟩⟩ 0x1000 .bits32).map Instruction.bytes =
      .ok movedWord ∧
    decode .i80386 (Image.cut ⟨0x1000, ⟨(movedWord ++ [0x90]).toArray⟩⟩ 0x1009) 0x1000 .bits32 =
      .error (.addressOutOfRange 0x1009) := by
  have hbytes : (decode .i80386 ⟨0x1000, ⟨(movedWord ++ [0x90]).toArray⟩⟩ 0x1000 .bits32).map
      Instruction.bytes = .ok movedWord := by
    decide +kernel
  refine ⟨hbytes, ?_⟩
  cases h : decode .i80386 ⟨0x1000, ⟨(movedWord ++ [0x90]).toArray⟩⟩ 0x1000 .bits32 with
  | error error =>
    rw [h] at hbytes
    cases hbytes
  | ok instruction =>
    rw [h] at hbytes
    obtain ⟨-, -, -, -, hcut, -⟩ := decode_local h
    refine hcut 9 ?_
    rw [Except.ok.inj hbytes]
    decide

end FlowDisasm.X86
