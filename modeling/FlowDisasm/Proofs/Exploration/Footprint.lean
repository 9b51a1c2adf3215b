import FlowDisasm.Proofs.Exploration.ControlFlow

/-!
# Where instructions and their data lie

An instruction covers its own bytes and the data that belong to it, which lie behind it except where the
address space ends between the two. Code goes on behind both.
-/
namespace FlowDisasm.Subject

def dataCount (subject : Subject) (instruction : X86.Instruction) (mode : Mode) : Nat :=
  ((subject.trailing? instruction mode).getD 0).toNat

/-- The addresses of an instruction's bytes, and of the data bytes that belong to it. -/
def footprint (subject : Subject) (place : Root) : List Nat :=
  match subject.decodeAt place with
  | .ok instruction =>
    List.range' place.offset.toNat instruction.bytes.length ++
      List.range' instruction.next.toNat (subject.dataCount instruction place.mode)
  | .error _ => []

/-- The address behind as many bytes as an instruction and its data have. -/
def endAt (subject : Subject) (place : Root) : Nat :=
  place.offset.toNat + (subject.footprint place).length

variable {subject : Subject} {place : Root} {instruction : X86.Instruction} {mode : Mode}
  {course : Course} {count : UInt32} {error : Error}

theorem dataCount_of_trailing? (h : subject.trailing? instruction mode = some count) :
    subject.dataCount instruction mode = count.toNat := by
  rw [dataCount, h]
  rfl

theorem dataCount_of_none (h : subject.trailing? instruction mode = none) :
    subject.dataCount instruction mode = 0 := by
  rw [dataCount, h]
  rfl

theorem footprint_of_ok (h : subject.decodeAt place = .ok instruction) :
    subject.footprint place = List.range' place.offset.toNat instruction.bytes.length ++
      List.range' instruction.next.toNat (subject.dataCount instruction place.mode) := by
  rw [footprint, h]

theorem endAt_of_ok (h : subject.decodeAt place = .ok instruction) :
    subject.endAt place = place.offset.toNat + instruction.bytes.length +
      subject.dataCount instruction place.mode := by
  rw [endAt, footprint_of_ok h, List.length_append, List.length_range', List.length_range',
    Nat.add_assoc]

/-- Addresses behind an instruction are 32-bit numbers. -/
theorem toNat_next (h : subject.decodeAt place = .ok instruction) :
    instruction.next.toNat =
      (place.offset.toNat + instruction.bytes.length) % UInt32.size := by
  have hoffset : instruction.offset = place.offset := X86.decode_offset h
  rw [X86.Instruction.next, hoffset, UInt32.toNat_add, UInt32.toNat_ofNat', Nat.add_mod_mod]

/-- An instruction is followed by the address behind it, or by zero if it ends with the address space. -/
theorem toNat_next_of_lt (h : subject.decodeAt place = .ok instruction)
    (hlt : place.offset.toNat + instruction.bytes.length < UInt32.size) :
    instruction.next.toNat = place.offset.toNat + instruction.bytes.length := by
  rw [toNat_next h, Nat.mod_eq_of_lt hlt]

theorem toNat_next_of_eq (h : subject.decodeAt place = .ok instruction)
    (heq : place.offset.toNat + instruction.bytes.length = UInt32.size) :
    instruction.next.toNat = 0 := by
  rw [toNat_next h, heq, Nat.mod_self]

/-- Code goes on at a 32-bit address as well. -/
theorem toNat_behind (h : subject.decodeAt place = .ok instruction) :
    (subject.behind instruction place.mode).offset.toNat = subject.endAt place % UInt32.size := by
  have hsum : (subject.behind instruction place.mode).offset.toNat =
      (instruction.next.toNat + subject.dataCount instruction place.mode) % UInt32.size :=
    UInt32.toNat_add _ _
  rw [hsum, toNat_next h, Nat.mod_add_mod, endAt_of_ok h]

/-- A footprint with ascending addresses has its data right behind its instruction. -/
theorem footprint_of_ascending (h : subject.decodeAt place = .ok instruction)
    (hascending : (subject.footprint place).Pairwise (· < ·)) :
    subject.dataCount instruction place.mode = 0 ∨
      instruction.next.toNat = place.offset.toNat + instruction.bytes.length := by
  rcases Nat.eq_zero_or_pos (subject.dataCount instruction place.mode) with hzero | hpos
  · exact .inl hzero
  · right
    have hlength := (X86.decode_bytes h).1
    have hnext := toNat_next h
    have hless := Nat.mod_le (place.offset.toNat + instruction.bytes.length) UInt32.size
    rw [footprint_of_ok h, List.pairwise_append] at hascending
    have hlast := hascending.2.2 (place.offset.toNat + instruction.bytes.length - 1)
      (List.mem_range'_1.mpr (by omega)) instruction.next.toNat (List.mem_range'_1.mpr (by omega))
    omega

/-- With the data right behind its instruction, a footprint is a single stretch. -/
theorem footprint_eq_range' (h : subject.decodeAt place = .ok instruction)
    (hnext : subject.dataCount instruction place.mode = 0 ∨
      instruction.next.toNat = place.offset.toNat + instruction.bytes.length) :
    subject.footprint place = List.range' place.offset.toNat
      (instruction.bytes.length + subject.dataCount instruction place.mode) := by
  rw [footprint_of_ok h]
  rcases hnext with hzero | hbehind
  · rw [hzero, List.range'_zero, List.append_nil, Nat.add_zero]
  · rw [hbehind, List.range'_append_1]

/-! ## Data in the image -/

/-- Only interrupts have data. -/
theorem flow_of_trailing? (hcount : subject.trailing? instruction mode = some count) :
    instruction.operation.flow = .int :=
  Decidable.byContradiction fun hne =>
    Option.some_ne_none count (hcount.symm.trans (trailing?_of_ne_int hne))

/-- An instruction that leads somewhere has its data in the image. -/
theorem read_of_course (hcourse : subject.course instruction mode = .ok course)
    (hcount : subject.trailing? instruction mode = some count) :
    ∃ data, subject.image.read instruction.next.toNat count.toNat = .ok data := by
  have hint := flow_of_trailing? hcount
  simp only [Subject.course, hint, hcount] at hcourse
  cases hdata : subject.image.read instruction.next.toNat count.toNat with
  | ok data => exact ⟨data, rfl⟩
  | error error => simp [hdata] at hcourse

theorem farCourse_error {obstacle : Obstacle} (h : farCourse instruction mode = .error obstacle) :
    obstacle = .farTarget := by
  unfold farCourse at h
  split at h
  · cases h
  · cases h
  · split at h <;> cases h
  · split at h
    · cases h
    · exact (Except.error.inj h).symm
  · exact (Except.error.inj h).symm

/-- Data are what is missing where there are some that cannot be read, and nowhere else. -/
theorem course_eq_missingData_iff :
    subject.course instruction mode = .error (.missingData error) ↔
      ∃ count, subject.trailing? instruction mode = some count ∧
        subject.image.read instruction.next.toNat count.toNat = .error error := by
  constructor
  · intro h
    cases hflow : instruction.operation.flow with
    | int =>
      simp only [course, hflow] at h
      cases hcount : subject.trailing? instruction mode with
      | none => simp [hcount] at h
      | some count =>
        cases hread : subject.image.read instruction.next.toNat count.toNat with
        | ok data => simp [hcount, hread] at h
        | error found =>
          simp only [hcount, hread, Except.error.injEq, Obstacle.missingData.injEq] at h
          exact ⟨count, rfl, h ▸ hread⟩
    | mov =>
      simp only [course, hflow] at h
      split at h <;> cases h
    | jmp | call | ret | retf | iret | other =>
      simp only [course, hflow] at h
      cases h
    | jcc | loop =>
      simp only [course, hflow] at h
      split at h <;> cases h
    | jmpFar =>
      simp only [course, hflow] at h
      cases farCourse_error h
    | callFar =>
      simp only [course, hflow] at h
      split at h
      · cases h
      · rename_i obstacle hfar
        obtain rfl := Except.error.inj h
        cases farCourse_error hfar
  · rintro ⟨count, hcount, hread⟩
    simp only [course, flow_of_trailing? hcount, hcount, hread]

end FlowDisasm.Subject
