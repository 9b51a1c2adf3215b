import FlowDisasm.Proofs.Exploration.Accounting
import FlowDisasm.Proofs.Exploration.Following
import FlowDisasm.Proofs.Exploration.Footprint
import FlowDisasm.Proofs.Exploration.Progress

/-!
# The end of the image

Code that runs up to the end of the image ends there, as long as an address follows that a walk can look at.
An analysis misses bytes if a root lies below the image, or if the image ends inside an instruction or its
data. There are two more ways, both by code that ends exactly where the image does: behind the last
32-bit address comes zero, where an image that lies above it has no bytes, and no data of a service call are
asked for at an address that has to be in the image all the same.
-/
namespace FlowDisasm

namespace Subject

/-- Code goes on behind the instruction at a place, and the image ends with the instruction and its data. Far
calls and conditional branches without a destination fail wherever they stand. -/
structure EndsImage (subject : Subject) (place : Root) (instruction : X86.Instruction) : Prop where
  decoded : subject.decodeAt place = .ok instruction
  goesOn : instruction.operation.flow.goesOn
  clear : ∀ obstacle, subject.course instruction place.mode = .error obstacle →
    ∃ error, obstacle = .missingData error
  ends : subject.endAt place = subject.image.limit

variable {subject : Subject} {root place next : Root} {trace : List Root}
  {instruction : X86.Instruction} {mode : Mode} {count : UInt32} {address : Nat}

/-- The address behind an instruction is in the image, or the image ends with the instruction. -/
theorem contains_next_or (hlimit : subject.image.limit ≤ UInt32.size)
    (h : subject.decodeAt place = .ok instruction) :
    subject.image.contains instruction.next.toNat = true ∧
        instruction.next.toNat = place.offset.toNat + instruction.bytes.length ∨
      place.offset.toNat + instruction.bytes.length = subject.image.limit := by
  have hbase := (bounds_of_decodeAt h).1
  have hend : place.offset.toNat + instruction.bytes.length ≤ subject.image.limit :=
    (X86.decode_bytes h).2.1
  rcases Nat.lt_or_eq_of_le hend with hlt | heq
  · have hnext := toNat_next_of_lt h (by omega)
    exact .inl ⟨Image.contains_iff.mpr ⟨by omega, by omega⟩, hnext⟩
  · exact .inr heq

/-- What a walk passes is all in the image, if that lies above zero. -/
theorem endAt_le_limit (hlimit : subject.image.limit ≤ UInt32.size) (hbase : 0 < subject.image.base.toNat)
    (h : subject.decodeAt place = .ok instruction) {course : Course}
    (hcourse : subject.course instruction place.mode = .ok course) :
    subject.endAt place ≤ subject.image.limit := by
  have hend : place.offset.toNat + instruction.bytes.length ≤ subject.image.limit :=
    (X86.decode_bytes h).2.1
  rw [endAt_of_ok h]
  cases hcount : subject.trailing? instruction place.mode with
  | none =>
    rw [dataCount_of_none hcount]
    exact hend
  | some count =>
    obtain ⟨data, hdata⟩ := read_of_course hcourse hcount
    obtain ⟨hlow, -, hfits, -⟩ := Image.read_eq_ok hdata
    -- At zero the data would be below the image.
    have hsize : place.offset.toNat + instruction.bytes.length < UInt32.size := by
      by_contra hover
      have hnext := toNat_next_of_eq h (by omega)
      omega
    rw [toNat_next_of_lt h hsize] at hfits
    rwa [dataCount_of_trailing? hcount]

/-- A place that follows another and is not in the image is zero, behind code that ends with the address
space. -/
theorem Follows.outside (h : subject.Follows place next) (hlimit : subject.image.limit ≤ UInt32.size)
    (hlow : next.offset.toNat < subject.image.base.toNat) :
    next.offset.toNat = 0 ∧ subject.image.limit = UInt32.size ∧
      ∃ instruction, subject.EndsImage place instruction ∧
        subject.trailing? instruction place.mode ≠ some 0 := by
  obtain ⟨instruction, hread, hcourse, hgoes, rfl⟩ := h
  have hbase : 0 < subject.image.base.toNat := by omega
  have hend := endAt_le_limit hlimit hbase hread hcourse
  have hbehind := toNat_behind hread
  have hstart := (bounds_of_decodeAt hread).1
  have hover : subject.endAt place = UInt32.size := by
    by_contra hne
    rw [Nat.mod_eq_of_lt (by omega)] at hbehind
    have := endAt_of_ok hread
    omega
  rw [hover, Nat.mod_self] at hbehind
  refine ⟨hbehind, by omega, instruction, ⟨hread, hgoes, ?_, by omega⟩, fun hnone => ?_⟩
  · intro obstacle hobstacle
    cases hcourse.symm.trans hobstacle
  -- To read no data behind the instruction, zero has to be in the image.
  · obtain ⟨data, hdata⟩ := read_of_course hcourse hnone
    have hlow := (Image.read_eq_ok hdata).1
    rw [endAt_of_ok hread, dataCount_of_trailing? hnone] at hover
    have hnext := toNat_next_of_eq hread hover
    omega

/-- Data behind an address of the image are missing only if they do not fit. -/
theorem limit_lt_of_read_error {start : Nat} {error : Error}
    (hin : subject.image.contains start = true)
    (h : subject.image.read start count.toNat = .error error) :
    subject.image.limit < start + count.toNat := by
  obtain ⟨hbase, hlt⟩ := Image.contains_iff.mp hin
  by_contra hfits
  have hok := Image.read_window hbase hlt (Nat.le_of_not_lt hfits)
  cases hok.symm.trans h

theorem not_contains_of_read_error {start : Nat} {error : Error}
    (h : subject.image.read start (0 : UInt32).toNat = .error error) :
    ¬subject.image.contains start = true := by
  intro hin
  have hover := limit_lt_of_read_error hin h
  exact absurd (Image.contains_iff.mp hin).2 (by simpa using hover.le)

/-- Behind code that ends with the image is the image's end, or zero if that is no 32-bit number. -/
theorem EndsImage.toNat_behind (h : subject.EndsImage place instruction) :
    (subject.behind instruction place.mode).offset.toNat = subject.image.limit % UInt32.size := by
  rw [Subject.toNat_behind h.decoded, h.ends]

/-- Where the code ends with the image, nothing keeps a walk from passing it but a service call without data. -/
theorem EndsImage.course_eq (h : subject.EndsImage place instruction)
    (hlimit : subject.image.limit ≤ UInt32.size)
    (hdata : subject.trailing? instruction place.mode = some 0 →
      subject.image.contains instruction.next.toNat = true) :
    subject.course instruction place.mode = .ok (subject.plan instruction place.mode) := by
  rcases subject.course_eq instruction place.mode with hok | ⟨⟨obstacle, hobstacle⟩, -⟩
  · exact hok
  · obtain ⟨error, rfl⟩ := h.clear obstacle hobstacle
    obtain ⟨count, hcount, hread⟩ := course_eq_missingData_iff.mp hobstacle
    have hend := endAt_of_ok h.decoded
    rw [h.ends, dataCount_of_trailing? hcount] at hend
    rcases contains_next_or hlimit h.decoded with ⟨hin, hnext⟩ | hlast
    · have hover := limit_lt_of_read_error hin hread
      omega
    · have hzero : count = 0 := UInt32.toNat_inj.mp (show count.toNat = 0 by omega)
      subst hzero
      exact absurd (hdata hcount) (not_contains_of_read_error hread)

end Subject

namespace Exploration

variable {subject : Subject} {state after : Exploration} {walk : Walk} {place : Root}
  {met trace : List Root} {result : Option Error} {walks added address : Nat}
  {instruction : X86.Instruction}

/-! ## Missing bytes -/

end Exploration

namespace Session

open Exploration

end Session

end FlowDisasm
