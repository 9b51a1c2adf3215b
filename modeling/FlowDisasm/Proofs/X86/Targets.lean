import FlowDisasm.Proofs.X86.Branches

/-!
# Targets of near branches

The distance of a near branch is read twice: once as the operand of the encoding, and once more out of the bytes at
the end of the instruction, of which the first byte that is no mark tells how many there are. Both are the same for
every operation that a processor runs, so a near branch is shown with its one operand and goes where it says.
-/
namespace FlowDisasm.X86

open Decoding

variable {setting : Setting} {encoding : Encoding} {form : Form} {slot : Slot} {operand : Operand}
  {operands : List (Slot × Operand)} {bytes : List UInt8} {displacement : Int32} {size : Nat}

/-! ## Distances in slots -/

/-- A register or memory is no distance. -/
theorem Slot.selected_ne_relative (register : Register) (extent : Option Extent) :
    selected encoding register extent ≠ .relative displacement size := by
  unfold selected
  split <;> nofun

/-- Only the slots of distances read one. -/
theorem Slot.isDistance_of_reads (h : (slot.read setting encoding).Reads bytes (.relative displacement size)) :
    slot.isDistance = true := by
  induction slot with
  | rel8 | rel => rfl
  | hidden slot ih | implied slot ih | narrowed slot ih => exact ih h
  | rm | sized | memory | memoryBySize | memoryByMark | table | multimediaRm | vectorRm =>
    exact absurd (reads_pure.mp h).2.symm (selected_ne_relative _ _)
  | segmentTarget | segment =>
    rw [Slot.read] at h
    split at h
    · cases (reads_pure.mp h).2
    · cases h
  | imm8 | imm8Signed | imm16 | direct =>
    obtain ⟨_, _, found, -, -, hpure⟩ := reads_bind.mp h
    cases (reads_pure.mp hpure).2
  | immOperand =>
    rw [Slot.read] at h
    split at h
    all_goals
      obtain ⟨_, _, found, -, -, hpure⟩ := reads_bind.mp h
      cases (reads_pure.mp hpure).2
  | farPointer =>
    rw [Slot.read, Slot.readFar] at h
    split at h
    all_goals
      obtain ⟨_, _, offset, -, -, hselector⟩ := reads_bind.mp h
      obtain ⟨_, _, selector, -, -, hpure⟩ := reads_bind.mp hselector
      cases (reads_pure.mp hpure).2
  | _ => cases (reads_pure.mp h).2

theorem isDistance_of_readAll {slots : List Slot} (h : (Slot.readAll setting encoding slots).Reads bytes operands)
    (hmem : (slot, .relative displacement size) ∈ operands) : slots.any Slot.isDistance = true := by
  induction slots generalizing bytes operands with
  | nil =>
    obtain ⟨-, rfl⟩ := reads_pure.mp h
    cases hmem
  | cons first slots ih =>
    obtain ⟨_, _, operand, -, hfirst, hrest⟩ := reads_bind.mp h
    obtain ⟨_, _, others, -, hothers, hpure⟩ := reads_bind.mp hrest
    obtain ⟨-, rfl⟩ := reads_pure.mp hpure
    rw [List.any_cons, Bool.or_eq_true]
    rcases List.mem_cons.mp hmem with hsame | hmem
    · obtain ⟨rfl, rfl⟩ := Prod.mk.inj hsame
      exact .inl (Slot.isDistance_of_reads hfirst)
    · exact .inr (ih hothers hmem)

theorem reads_single (h : (Slot.readAll setting encoding [slot]).Reads bytes operands) :
    ∃ operand, operands = [(slot, operand)] ∧ (slot.read setting encoding).Reads bytes operand := by
  obtain ⟨front, back, operand, rfl, hoperand, hrest⟩ := reads_bind.mp h
  obtain ⟨_, _, others, rfl, hothers, hpure⟩ := reads_bind.mp hrest
  obtain ⟨rfl, rfl⟩ := reads_pure.mp hothers
  obtain ⟨rfl, rfl⟩ := reads_pure.mp hpure
  rw [List.append_nil, List.append_nil]
  exact ⟨operand, rfl, hoperand⟩

theorem reads_rel8 (h : (Slot.rel8.read setting encoding).Reads bytes operand) :
    bytes.length = 1 ∧ operand = .relative (spelledDistance bytes) bytes.length := by
  obtain ⟨_, _, distance, rfl, hdistance, hpure⟩ := reads_bind.mp h
  obtain ⟨rfl, rfl⟩ := reads_pure.mp hpure
  obtain ⟨hlength, rfl⟩ := reads_word hdistance
  rw [List.append_nil, spelledDistance, hlength]
  exact ⟨rfl, rfl⟩

theorem reads_rel (h : (Slot.rel.read setting encoding).Reads bytes operand) :
    bytes.length = setting.operandSize.bytes ∧
      operand = .relative (spelledDistance bytes) bytes.length := by
  rw [Slot.read, Slot.readBranch] at h
  cases hsize : setting.operandSize
  all_goals
    rw [hsize] at h
    obtain ⟨_, _, distance, rfl, hdistance, hpure⟩ := reads_bind.mp h
    obtain ⟨rfl, rfl⟩ := reads_pure.mp hpure
    obtain ⟨hlength, rfl⟩ := reads_word hdistance
    rw [List.append_nil, spelledDistance, hlength]
    exact ⟨rfl, rfl⟩

/-! ## Distances in operations -/

/-- No processor runs what came later. -/
theorem Cpu.not_runs_of_later (cpu : Cpu) (h : form.era = .later) :
    cpu.runs (form.eraIn setting) = false := by
  have hlatest : form.eraIn setting = .later := by
    change form.feature.era = .later at h
    unfold Form.eraIn Form.features
    dsimp only
    split
    all_goals
      simp only [List.map_cons, List.map_nil, h]
      rfl
  rw [hlatest]
  cases cpu <;> rfl

/-- The bytes of a near branch with a distance, in code of a width: marks, an opcode of one or two bytes, and the
distance. It takes one byte behind some opcodes, and the bytes of the operand size in force behind the others. -/
structure NearBranch (width : Width) (bytes front code tail : List UInt8) : Prop where
  bytes_eq : bytes = front ++ code ++ tail
  marks : ∀ byte ∈ front, byte ∈ marks
  /-- The first byte that is no mark is that of the opcode. -/
  opcode : opcodeOf? bytes = code.head?
  tail : ShortCode code ∧ tail.length = 1 ∨
    NearCode code ∧ tail.length = (width.behind front).bytes

/-- The operation of a near branch with a distance, which is its only operand. -/
structure Operation.Jumps (operation : Operation) (distance : List UInt8) (targetWidth : Width) : Prop where
  operands : operation.operands = [.relative (spelledDistance distance) distance.length]
  shown : operation.shown = [.relative (spelledDistance distance) distance.length]
  targetWidth : operation.targetWidth = targetWidth

variable {width : Width} {found : Operation} {cpu : Cpu}

/-- A form whose only slot is a distance makes the distance the only operand. -/
theorem Form.made_jumps (hslot : slot = .rel8 ∨ slot = .rel) (hwide : form.has .wideTarget = false) :
    (form.made setting encoding [(slot, .relative (spelledDistance bytes) bytes.length)]).Jumps bytes
      setting.operandSize := by
  have htarget : form.targetWidth setting = setting.operandSize := by
    rw [Form.targetWidth, hwide]
    rfl
  rcases hslot with rfl | rfl <;> exact ⟨rfl, rfl, htarget⟩

/-- If a processor runs an operation with a distance, its form has a slot for it. -/
theorem not_still_of_reads (h : (form.read setting encoding).Reads bytes found)
    (hruns : cpu.runs found.era = true) (hmem : .relative displacement size ∈ found.operands) :
    ¬form.Still := by
  obtain ⟨operands, hoperands, rfl⟩ := Form.reads_read h
  rintro (hlater | hstill)
  · exact Bool.false_ne_true ((cpu.not_runs_of_later hlater).symm.trans hruns)
  · obtain ⟨⟨slot, operand⟩, hoperand, rfl⟩ := List.mem_map.mp hmem
    have hslot := isDistance_of_readAll hoperands (List.mem_filter.mp hoperand).1
    rw [hslot] at hstill
    cases hstill

/-- A distance that a processor finds among the operands is the only one, and stands at the end. -/
theorem nearBranch_of_reads (h : (operation width).Reads bytes found) (hruns : cpu.runs found.era = true)
    (hmem : .relative displacement size ∈ found.operands) :
    ∃ front code tail, NearBranch width bytes front code tail ∧
      found.Jumps tail (width.behind front) := by
  obtain ⟨front, code, tail, setting, last, entry, hbytes, hmarked, hopcode, htabled, hentry⟩ :=
    reads_operation h
  refine ⟨front, code, tail, ?_⟩
  rw [← hmarked.operandSize]
  rcases Entry.reads_read hentry with ⟨form, encoding, hplain, hread⟩ | ⟨form, encoding, _, hchosen, hread⟩
  · obtain ⟨-, hstill | ⟨hslots, hwide⟩⟩ := htabled.steers.plain form hplain
    · exact absurd hstill (not_still_of_reads hread hruns hmem)
    obtain ⟨operands, hoperands, rfl⟩ := Form.reads_read hread
    rcases hslots with ⟨hslots, hshort⟩ | ⟨hslots, hnear⟩
    · rw [hslots] at hoperands
      obtain ⟨operand, rfl, hoperand⟩ := reads_single hoperands
      obtain ⟨hlength, rfl⟩ := reads_rel8 hoperand
      exact ⟨⟨hbytes, hmarked.marks, hopcode, .inl ⟨hshort, hlength⟩⟩,
        Form.made_jumps (.inl rfl) hwide⟩
    · rw [hslots] at hoperands
      obtain ⟨operand, rfl, hoperand⟩ := reads_single hoperands
      obtain ⟨hlength, rfl⟩ := reads_rel hoperand
      rw [hmarked.operandSize] at hlength
      exact ⟨⟨hbytes, hmarked.marks, hopcode, .inr ⟨hnear, hlength⟩⟩,
        Form.made_jumps (.inr rfl) hwide⟩
  · exact absurd (htabled.steers.choice form hchosen).2 (not_still_of_reads hread hruns hmem)

/-! ## Distances taken out of the bytes -/

namespace NearBranch

variable {front code tail : List UInt8}

theorem drop_eq (h : NearBranch width bytes front code tail) :
    bytes.drop (bytes.length - tail.length) = tail := by
  have hlength : bytes.length - tail.length = (front ++ code).length := by
    rw [h.bytes_eq, List.length_append, Nat.add_sub_cancel]
  rw [hlength, h.bytes_eq, List.drop_left]

/-- The opcode tells how long the distance is. -/
theorem distanceSize_eq (h : NearBranch width bytes front code tail) :
    distanceSize bytes (width.behind front) = tail.length := by
  rw [distanceSize, h.opcode]
  rcases h.tail with ⟨⟨opcode, rfl, hshort⟩, hlength⟩ | ⟨hnear, hlength⟩
  · rw [hlength, List.head?_cons, Option.any_some, if_pos hshort]
  · have hlong : (code.head?.any isShortBranch) = false := by
      rcases hnear with rfl | rfl | ⟨_, rfl, -⟩ <;> rfl
    rw [hlong, hlength]
    rfl

end NearBranch

/-- What is taken out of the bytes of an operation is what its encoding told, if a processor runs it. -/
theorem recovered_of_reads (h : (operation width).Reads bytes found) (hruns : cpu.runs found.era = true) :
    found.recovered bytes = found := by
  have hsame : ∀ operand ∈ found.operands, operand.recovered bytes found.targetWidth = operand := by
    intro operand hmem
    cases operand with
    | relative displacement size =>
      obtain ⟨front, code, tail, hbranch, hjumps⟩ := nearBranch_of_reads h hruns hmem
      rw [hjumps.operands, List.mem_singleton] at hmem
      rw [hmem, hjumps.targetWidth]
      simp only [Operand.recovered, hbranch.distanceSize_eq, trailingDistance, hbranch.drop_eq]
    | _ => rfl
  rw [Operation.recovered, List.map_congr_left hsame, List.map_id']

/-! ## Near branches -/

/-- Every operation is made from a form of the tables. -/
theorem made_of_reads {P : Form → Prop}
    (hforms : ∀ {code : List UInt8} {entry : Entry}, Tabled code entry → entry.All P P)
    (h : (operation width).Reads bytes found) :
    ∃ (setting : Setting) (form : Form) (encoding : Encoding) (operands : List (Slot × Operand))
      (rest : List UInt8), P form ∧ (Slot.readAll setting encoding form.slots).Reads rest operands ∧
      found = form.made setting encoding operands := by
  obtain ⟨front, code, tail, setting, last, entry, -, -, -, htabled, hentry⟩ := reads_operation h
  rcases Entry.reads_read hentry with ⟨form, encoding, hplain, hread⟩ | ⟨form, encoding, _, hchosen, hread⟩
  · obtain ⟨operands, hoperands, hmade⟩ := Form.reads_read hread
    exact ⟨setting, form, encoding, operands, _, (hforms htabled).plain form hplain, hoperands, hmade⟩
  · obtain ⟨operands, hoperands, hmade⟩ := Form.reads_read hread
    exact ⟨setting, form, encoding, operands, _, (hforms htabled).choice form hchosen, hoperands, hmade⟩

/-- A near branch is made from a form with a single target. -/
theorem Tabled.singleTarget {code : List UInt8} {entry : Entry} (h : Tabled code entry) :
    entry.All Form.SingleTarget Form.SingleTarget :=
  h.steers.imp (fun _ => And.left) fun _ => And.left

theorem alias?_of_no_aliases (h : form.aliases = []) (operands : List (Slot × Operand)) :
    form.alias? operands = none := by
  unfold Form.alias?
  split
  · rw [h]
    rfl
  · rfl

/-- A near branch has one operand in its encoding, and its text shows just that one. -/
theorem made_of_singleTarget (h : form.SingleTarget) (hnear : form.flow.isNear = true)
    (hoperands : (Slot.readAll setting encoding form.slots).Reads bytes operands) :
    ∃ operand, (form.made setting encoding operands).operands = [operand] ∧
      (form.made setting encoding operands).shown = [operand] := by
  obtain ⟨haliases, hslots⟩ := h hnear
  have hsingle : ∃ slot, form.slots = [slot] ∧ slot.isListed = true ∧ slot.isShown = true ∧
      ∀ operand, slot.shownAs operand = operand := by
    rcases hslots with hslots | hslots | hslots
    all_goals exact ⟨_, hslots, rfl, rfl, fun _ => rfl⟩
  obtain ⟨slot, hslot, hlisted, hshown, has⟩ := hsingle
  rw [hslot] at hoperands
  obtain ⟨operand, rfl, -⟩ := reads_single hoperands
  refine ⟨operand, ?_, ?_⟩
  · simp [Form.made, hlisted]
  · simp [Form.made, Form.shown, alias?_of_no_aliases haliases, hshown, has]

variable {image : Image} {offset target : UInt32} {instruction : Instruction}

/-- What stands in front of the operands of an operation. -/
def Operation.heading (operation : Operation) : String :=
  String.join (operation.words.map (· ++ " ")) ++ operation.mnemonic
    ++ (if operation.far then "\tFAR" else "")

/-- The operation of a decoded instruction is the one that its bytes encode. -/
theorem decode_reads (h : decode cpu image offset width = .ok instruction) :
    (operation width).Reads instruction.bytes instruction.operation ∧
      cpu.runs instruction.operation.era = true := by
  obtain ⟨⟨found, hrun, hruns, hoperation⟩, -, -⟩ := decode_found h
  have hreads := reads_of_run hrun
  rw [hoperation, recovered_of_reads hreads hruns]
  exact ⟨hreads, hruns⟩

theorem decode_single (h : decode cpu image offset width = .ok instruction)
    (hnear : instruction.operation.flow.isNear = true) :
    ∃ operand, instruction.operation.operands = [operand] ∧
      instruction.operation.shown = [operand] := by
  obtain ⟨setting, form, encoding, operands, rest, hsingle, hoperands, hmade⟩ :=
    made_of_reads Tabled.singleTarget (decode_reads h).1
  rw [hmade] at hnear ⊢
  exact made_of_singleTarget hsingle hnear hoperands

/-- An instruction with a destination has the distance to it as its first operand. -/
theorem Instruction.relative_of_target (h : instruction.target? = some target) :
    ∃ displacement size, instruction.first? = some (.relative displacement size) ∧
      target = instruction.next + displacement.toUInt32 := by
  unfold target? at h
  split at h
  · rename_i displacement size hfirst
    exact ⟨displacement, size, hfirst, (Option.some.inj h).symm⟩
  · cases h

/-- Where a near branch goes in its segment is told by the distance that leads to its target. -/
theorem nearTarget?_of_first? (h : decode cpu image offset width = .ok instruction)
    (hfirst : instruction.first? = some (.relative displacement size)) :
    instruction.nearTarget? = some (instruction.segmentTarget displacement) := by
  obtain ⟨hreads, hruns⟩ := decode_reads h
  obtain ⟨front, code, tail, -, hjumps⟩ := nearBranch_of_reads hreads hruns (List.mem_of_mem_head? hfirst)
  rw [Instruction.first?, hjumps.operands] at hfirst
  cases hfirst
  rw [Instruction.nearTarget?, hjumps.shown]
  rfl

/-- The text of a near branch with a distance: its destination is the only operand. -/
theorem text_of_target (h : decode cpu image offset width = .ok instruction)
    (hnear : instruction.operation.flow.isNear = true) (htarget : instruction.target? = some target)
    (label : Option String) :
    instruction.text label =
      instruction.operation.heading ++ "\t" ++ instruction.destinationText label := by
  obtain ⟨operand, hoperands, hshown⟩ := decode_single h hnear
  obtain ⟨displacement, size, hfirst, -⟩ := Instruction.relative_of_target htarget
  rw [Instruction.first?, hoperands] at hfirst
  obtain rfl : operand = .relative displacement size := Option.some.inj hfirst
  rw [Instruction.text, Operation.text, hshown]
  simp [Operation.heading, Operand.text, String.append_assoc]

/-! ## Addresses -/

/-- A distance is the number that its bytes spell, extended with its sign. -/
theorem toInt_spelledDistance (h : bytes.length = 1 ∨ bytes.length = 2 ∨ bytes.length = 4) :
    (spelledDistance bytes).toInt = (Bytes.value bytes : Int).bmod (Bytes.span bytes.length) := by
  rcases h with h | h | h
  · rw [spelledDistance, h]
    exact (Int8.toInt_toInt32 _).trans Int8.toInt_ofNat'
  · rw [spelledDistance, h]
    exact (Int16.toInt_toInt32 _).trans Int16.toInt_ofNat'
  · rw [spelledDistance, h]
    exact Int32.toInt_ofNat'

theorem NearBranch.toInt_tail {front code tail : List UInt8} (h : NearBranch width bytes front code tail) :
    (spelledDistance tail).toInt = (Bytes.value tail : Int).bmod (Bytes.span tail.length) := by
  apply toInt_spelledDistance
  rcases h.tail with ⟨-, hlength⟩ | ⟨-, hlength⟩
  · exact .inl hlength
  · rw [hlength]
    cases width.behind front
    · exact .inr (.inl rfl)
    · exact .inr (.inr rfl)

theorem toInt_emod_size (displacement : Int32) :
    displacement.toInt % UInt32.size = displacement.toUInt32.toNat := by
  have hbits : displacement.toInt = (displacement.toUInt32.toNat : Int).bmod UInt32.size :=
    BitVec.toInt_eq_toNat_bmod displacement.toBitVec
  rw [hbits, Int.bmod_emod]
  have hlt := displacement.toUInt32.toNat_lt
  unfold UInt32.size
  omega

/-- The target of a distance is a sum that wraps around at the end of the address space. -/
theorem Instruction.toNat_target (instruction : Instruction) (displacement : Int32) :
    ((instruction.next + displacement.toUInt32).toNat : Int) =
      (instruction.offset.toNat + instruction.bytes.length + displacement.toInt) % UInt32.size := by
  have hdisplacement := toInt_emod_size displacement
  unfold UInt32.size at *
  rw [Instruction.next, UInt32.toNat_add, UInt32.toNat_add, UInt32.toNat_ofNat']
  omega

theorem Width.shift_bits16 : 1 <<< Width.bits16.bits = UInt16.size := rfl

theorem Width.shift_bits32 : 1 <<< Width.bits32.bits = UInt32.size := rfl

/-- Where a branch goes in its segment is where it goes at all, if the low half of the address is looked at. -/
theorem Instruction.segmentTarget_mod (instruction : Instruction) (displacement : Int32) :
    instruction.segmentTarget displacement % UInt16.size =
      (instruction.next + displacement.toUInt32).toNat % UInt16.size := by
  have htarget := instruction.toNat_target displacement
  unfold segmentTarget pointer
  cases instruction.width <;> cases instruction.operation.targetWidth
  all_goals
    simp only [Width.shift_bits16, Width.shift_bits32, UInt16.size, UInt32.size] at htarget ⊢
    omega

/-- In code of 32 bits a branch to a destination of 32 bits goes anywhere. -/
theorem Instruction.segmentTarget_eq {instruction : Instruction} (hwidth : instruction.width = .bits32)
    (htarget : instruction.operation.targetWidth = .bits32) (displacement : Int32) :
    instruction.segmentTarget displacement = (instruction.next + displacement.toUInt32).toNat := by
  have hsum := instruction.toNat_target displacement
  unfold segmentTarget pointer
  rw [hwidth, htarget]
  simp only [Width.shift_bits32, UInt32.size] at hsum ⊢
  omega

/-- The two readings of a near branch agree: the operand that is taken out of the bytes is the one that text
shows. Whatever marks stand in front of it, the number of bytes that is told by the first byte that is no mark
is the number of bytes behind the opcode, and the distance is what these spell, extended with their sign. The
target is the sum of the address behind the instruction and of the distance. In its low half it is where the
operand of the encoding leads in the segment, and it is just that in code of 32 bits with operands of 32
bits. -/
theorem decode_targets (h : decode cpu image offset width = .ok instruction)
    (hmem : .relative displacement size ∈ instruction.operation.operands) :
    ∃ front code tail, NearBranch width instruction.bytes front code tail ∧
      instruction.operation.operands = [.relative displacement size] ∧
      instruction.operation.shown = [.relative displacement size] ∧
      distanceSize instruction.bytes instruction.operation.targetWidth = tail.length ∧
      size = tail.length ∧
      displacement.toInt = (Bytes.value tail : Int).bmod (Bytes.span tail.length) ∧
      ∃ target own, instruction.target? = some target ∧ instruction.nearTarget? = some own ∧
        (target.toNat : Int) =
          (offset.toNat + instruction.bytes.length + displacement.toInt) % UInt32.size ∧
        own % UInt16.size = target.toNat % UInt16.size ∧
        (width = .bits32 → width.behind front = .bits32 → own = target.toNat) := by
  obtain ⟨hreads, hruns⟩ := decode_reads h
  obtain ⟨front, code, tail, hbranch, hjumps⟩ := nearBranch_of_reads hreads hruns hmem
  rw [hjumps.operands, List.mem_singleton] at hmem
  obtain ⟨rfl, rfl⟩ := Operand.relative.inj hmem
  have hfirst : instruction.first? = some (.relative (spelledDistance tail) tail.length) := by
    rw [Instruction.first?, hjumps.operands]
    rfl
  refine ⟨front, code, tail, hbranch, hjumps.operands, hjumps.shown, ?_, rfl, hbranch.toInt_tail,
    instruction.next + (spelledDistance tail).toUInt32, instruction.segmentTarget (spelledDistance tail),
    ?_, nearTarget?_of_first? h hfirst, ?_, instruction.segmentTarget_mod _, fun hwidth hbehind => ?_⟩
  · rw [hjumps.targetWidth, hbranch.distanceSize_eq]
  · rw [Instruction.target?, hfirst]
  · rw [instruction.toNat_target, decode_offset h]
  · exact Instruction.segmentTarget_eq ((decode_width h).trans hwidth) (hjumps.targetWidth.trans hbehind) _

/-- A conditional jump back by sixteen bytes: a hint, the mark for operands of 32 bits in code of 16 bits, an opcode of
two bytes, and the distance. -/
def hintedJump : List UInt8 :=
  [0x2E, 0x66, 0x0F, 0x85, 0xF0, 0xFF, 0xFF, 0xFF]

/-- Above the first segment, its target is not the one in the segment. -/
theorem decode_targets_hintedJump :
    (decode .i80386 ⟨0x12340, ⟨hintedJump.toArray⟩⟩ 0x12340 .bits16).toOption.map (fun read =>
      (read.bytes, read.operation.operands, read.target?, read.nearTarget?)) =
      some (hintedJump, [.relative (-16) 4], some 0x12338, some 0x2338) ∧
    ∃ front code tail, NearBranch .bits16 hintedJump front code tail ∧ tail.length = 4 ∧
      (Bytes.value tail : Int).bmod (Bytes.span tail.length) = -16 := by
  have hfacts : (decode .i80386 ⟨0x12340, ⟨hintedJump.toArray⟩⟩ 0x12340 .bits16).toOption.map (fun read =>
      (read.bytes, read.operation.operands, read.target?, read.nearTarget?)) =
      some (hintedJump, [.relative (-16) 4], some 0x12338, some 0x2338) := by
    decide +kernel
  obtain ⟨instruction, hread, hfound⟩ := exists_of_facts hfacts
  obtain ⟨hbytes, hoperands, -, -⟩ : instruction.bytes = hintedJump ∧
      instruction.operation.operands = [.relative (-16) 4] ∧ instruction.target? = some 0x12338 ∧
      instruction.nearTarget? = some 0x2338 := by
    simpa only [Prod.mk.injEq] using hfound
  have hmem : .relative (-16) 4 ∈ instruction.operation.operands := by
    rw [hoperands]
    exact List.mem_singleton_self _
  obtain ⟨front, code, tail, hbranch, -, -, -, hsize, hdisplacement, -⟩ := decode_targets hread hmem
  exact ⟨hfacts, front, code, tail, hbytes ▸ hbranch, hsize.symm, hdisplacement.symm⟩

end FlowDisasm.X86
