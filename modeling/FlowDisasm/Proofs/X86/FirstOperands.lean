import FlowDisasm.Proofs.X86.Targets

/-!
# First operands

The part that an instruction has in control flow tells what its first operand can be: a distance for a conditional
branch, a distance or a place with an address for a jump or a call, a far address or memory with one for a branch
out of the segment, and a number for an interrupt. Distances are operands of near branches only.
-/
namespace FlowDisasm.X86

open Decoding

def Operand.IsDistance (operand : Operand) : Prop :=
  ∃ displacement size, operand = .relative displacement size

def Operand.IsPlace (operand : Operand) : Prop :=
  (∃ register, operand = .register register) ∨ ∃ reference extent, operand = .memory reference extent

/-- Whether an operand is a far address, or memory that holds one. -/
def Operand.IsFar (operand : Operand) : Prop :=
  (∃ reference extent, operand = .memory reference extent) ∨
    (∃ selector offset, operand = .far16 selector offset) ∨ ∃ selector offset, operand = .far32 selector offset

def Operand.IsNumber (operand : Operand) : Prop :=
  ∃ value size, operand = .immediate value size

/-- Whether an operand tells where an instruction with a part in control flow leads. -/
def Flow.Expects (flow : Flow) (operand : Operand) : Prop :=
  match flow with
  | .jcc | .loop => operand.IsDistance
  | .jmp | .call => operand.IsDistance ∨ operand.IsPlace
  | .jmpFar | .callFar => operand.IsFar
  | .int => operand.IsNumber
  | _ => False

/-- An operation that leads somewhere has just the operand that tells where, and only near branches have distances. -/
structure Operation.Directed (operation : Operation) : Prop where
  operand : operation.flow.leads = true → ∃ operand, operation.operands = [operand] ∧
    operation.flow.Expects operand
  distance : ∀ operand ∈ operation.operands, operand.IsDistance → operation.flow.isNear = true

variable {setting : Setting} {encoding : Encoding} {form : Form} {slot : Slot} {operand : Operand}
  {bytes : List UInt8} {found : Operation} {cpu : Cpu} {width : Width}

/-! ## Slots that lead somewhere -/

theorem Slot.selected_isPlace (encoding : Encoding) (register : Register) (extent : Option Extent) :
    (selected encoding register extent).IsPlace := by
  unfold selected
  split
  · exact .inr ⟨_, _, rfl⟩
  · exact .inl ⟨_, rfl⟩

theorem reads_distance (hslot : slot = .rel8 ∨ slot = .rel) (h : (slot.read setting encoding).Reads bytes operand) :
    operand.IsDistance := by
  rcases hslot with rfl | rfl
  · exact ⟨_, _, (reads_rel8 h).2⟩
  · exact ⟨_, _, (reads_rel h).2⟩

theorem reads_farPointer (h : (Slot.farPointer.read setting encoding).Reads bytes operand) : operand.IsFar := by
  rw [Slot.read, Slot.readFar] at h
  cases hsize : setting.operandSize
  all_goals
    rw [hsize] at h
    obtain ⟨_, _, offset, -, -, hselector⟩ := reads_bind.mp h
    obtain ⟨_, _, selector, -, -, hpure⟩ := reads_bind.mp hselector
    obtain ⟨-, rfl⟩ := reads_pure.mp hpure
  · exact .inr (.inl ⟨selector, offset, rfl⟩)
  · exact .inr (.inr ⟨selector, offset, rfl⟩)

theorem reads_imm8 (h : (Slot.imm8.read setting encoding).Reads bytes operand) : operand.IsNumber := by
  obtain ⟨_, _, value, -, -, hpure⟩ := reads_bind.mp h
  obtain ⟨-, rfl⟩ := reads_pure.mp hpure
  exact ⟨_, _, rfl⟩

theorem reads_sized {size : Size} (h : ((Slot.sized size).read setting encoding).Reads bytes operand) :
    operand.IsPlace := by
  obtain ⟨-, rfl⟩ := reads_pure.mp h
  exact Slot.selected_isPlace _ _ _

theorem reads_memoryBySize {narrow wide : Extent} (hmemory : encoding.reference.isSome = true)
    (h : ((Slot.memoryBySize narrow wide).read setting encoding).Reads bytes operand) : operand.IsFar := by
  obtain ⟨reference, hreference⟩ := Option.isSome_iff_exists.mp hmemory
  obtain ⟨-, rfl⟩ := reads_pure.mp h
  rw [Slot.selected, hreference]
  exact .inl ⟨_, _, rfl⟩

/-! ## Forms -/

/-- A form with one slot that is listed makes an operation with one operand. -/
theorem Form.reads_single (hslots : form.slots = [slot]) (hlisted : slot.isListed = true)
    (h : (form.read setting encoding).Reads bytes found) :
    ∃ operand, found.operands = [operand] ∧ (slot.read setting encoding).Reads bytes operand := by
  obtain ⟨operands, hoperands, rfl⟩ := Form.reads_read h
  rw [hslots] at hoperands
  obtain ⟨operand, rfl, hoperand⟩ := X86.reads_single hoperands
  exact ⟨operand, by simp [Form.made, hlisted], hoperand⟩

theorem Form.flow_of_reads (h : (form.read setting encoding).Reads bytes found) : found.flow = form.flow := by
  obtain ⟨operands, -, rfl⟩ := Form.reads_read h
  rfl

/-- Where a form has no distance, its operation has none. -/
theorem Form.not_isDistance_of_reads (hslots : form.slots.any Slot.isDistance = false)
    (h : (form.read setting encoding).Reads bytes found) (hmem : operand ∈ found.operands) :
    ¬operand.IsDistance := by
  obtain ⟨operands, hoperands, rfl⟩ := Form.reads_read h
  rintro ⟨displacement, size, rfl⟩
  obtain ⟨⟨slot, operand⟩, hoperand, rfl⟩ := List.mem_map.mp hmem
  have hslot := isDistance_of_readAll hoperands (List.mem_filter.mp hoperand).1
  rw [hslots] at hslot
  cases hslot

/-- Slots that a form of another kind takes hold no distance. -/
theorem Flow.Takes.any_isDistance {flow : Flow} {slots : List Slot} (h : flow.Takes slots)
    (hnear : flow.isNear = false) : slots.any Slot.isDistance = false := by
  cases flow <;> simp_all [Flow.isNear]

/-- A form that takes the slots of its kind makes an operation that is directed. -/
theorem Form.directed_of_takes (htakes : form.flow.Takes form.slots)
    (h : (form.read setting encoding).Reads bytes found) : found.Directed := by
  have hflow := Form.flow_of_reads h
  refine ⟨fun hleads => ?_, fun operand hmem hdistance => ?_⟩
  · rw [hflow] at hleads ⊢
    cases hkind : form.flow with
    | jcc | loop | jmp | call =>
      rw [hkind] at htakes
      obtain ⟨slot, hslots, hlisted, hslot⟩ : ∃ slot, form.slots = [slot] ∧ slot.isListed = true ∧
          (slot = .rel8 ∨ slot = .rel) := by
        rcases htakes with hslots | hslots
        · exact ⟨_, hslots, rfl, .inl rfl⟩
        · exact ⟨_, hslots, rfl, .inr rfl⟩
      obtain ⟨operand, hoperands, hread⟩ := Form.reads_single hslots hlisted h
      have hdistance := reads_distance hslot hread
      first
        | exact ⟨operand, hoperands, hdistance⟩
        | exact ⟨operand, hoperands, .inl hdistance⟩
    | jmpFar | callFar =>
      rw [hkind] at htakes
      obtain ⟨operand, hoperands, hread⟩ := Form.reads_single htakes rfl h
      exact ⟨operand, hoperands, reads_farPointer hread⟩
    | int =>
      rw [hkind] at htakes
      obtain ⟨operand, hoperands, hread⟩ := Form.reads_single htakes rfl h
      exact ⟨operand, hoperands, reads_imm8 hread⟩
    | _ =>
      rw [hkind] at hleads
      cases hleads
  · cases hnear : found.flow.isNear with
    | true => rfl
    | false =>
      rw [hflow] at hnear
      exact absurd hdistance (Form.not_isDistance_of_reads (htakes.any_isDistance hnear) h hmem)

/-- A form that leads nowhere makes an operation that is directed, if a processor runs it. -/
theorem Form.Idle.directed (hidle : form.Idle) (h : (form.read setting encoding).Reads bytes found)
    (hruns : cpu.runs found.era = true) : found.Directed := by
  refine ⟨fun hleads => ?_, fun operand hmem hdistance => ?_⟩
  · rw [Form.flow_of_reads h, hidle.1] at hleads
    cases hleads
  · obtain ⟨displacement, size, rfl⟩ := hdistance
    exact absurd hidle.2 (not_still_of_reads h hruns hmem)

/-! ## Indirect branches -/

/-- A form behind its addressing byte has a memory operand if the byte selects memory. -/
theorem Form.reads_selected {opcode : UInt8} {modRM : ModRM}
    (h : (form.readSelected setting opcode modRM).Reads bytes found) :
    ∃ encoding rest, (modRM.isMemory = true → encoding.reference.isSome = true) ∧
      (form.read setting encoding).Reads rest found := by
  unfold Form.readSelected at h
  split at h
  case isTrue hregister =>
    refine ⟨_, bytes, fun hmemory => ?_, h⟩
    rw [hmemory] at hregister
    cases hregister
  case isFalse =>
    split at h
    · obtain ⟨_, _, _, -, -, hrefused⟩ := reads_bind.mp h
      cases hrefused
    · obtain ⟨_, rest, reference, -, -, hread⟩ := reads_bind.mp h
      exact ⟨_, rest, fun _ => rfl, hread⟩

/-- A jump or call through a register or memory is directed. -/
theorem Form.directed_of_sized {size : Size} (hslots : form.slots = [.sized size])
    (hflow : form.flow = .jmp ∨ form.flow = .call ∨ form.flow.leads = false)
    (h : (form.read setting encoding).Reads bytes found) : found.Directed := by
  have hstill : form.slots.any Slot.isDistance = false := by rw [hslots]; rfl
  refine ⟨fun hleads => ?_, fun operand hmem hdistance => ?_⟩
  · rw [Form.flow_of_reads h] at hleads ⊢
    obtain ⟨operand, hoperands, hread⟩ := Form.reads_single hslots rfl h
    refine ⟨operand, hoperands, ?_⟩
    rcases hflow with hjump | hcall | hother
    · rw [hjump]
      exact .inr (reads_sized hread)
    · rw [hcall]
      exact .inr (reads_sized hread)
    · rw [hother] at hleads
      cases hleads
  · exact absurd hdistance (Form.not_isDistance_of_reads hstill h hmem)

/-- A far branch through memory is directed. -/
theorem Form.directed_of_memory {narrow wide : Extent} (hslots : form.slots = [.memoryBySize narrow wide])
    (hfar : form.flow.isFar = true) (hmemory : encoding.reference.isSome = true)
    (h : (form.read setting encoding).Reads bytes found) : found.Directed := by
  have hstill : form.slots.any Slot.isDistance = false := by rw [hslots]; rfl
  refine ⟨fun _ => ?_, fun operand hmem hdistance => ?_⟩
  · rw [Form.flow_of_reads h]
    obtain ⟨operand, hoperands, hread⟩ := Form.reads_single hslots rfl h
    have hoperand := reads_memoryBySize hmemory hread
    refine ⟨operand, hoperands, ?_⟩
    cases hflow : form.flow <;> simp_all [Flow.isFar, Flow.Expects]
  · exact absurd hdistance (Form.not_isDistance_of_reads hstill h hmem)

theorem OneByte.directed_stepGroup {opcode : UInt8} (h : (stepGroup.read setting opcode).Reads bytes found) :
    found.Directed := by
  unfold stepGroup at h
  obtain ⟨byte, _, -, hform⟩ := reads_byte_bind.mp h
  dsimp only at hform
  split at hform
  case h_1 => cases hform
  case h_2 form hchoose =>
    obtain ⟨encoding, rest, hmemory, hread⟩ := Form.reads_selected hform
    split at hchoose
    case h_1 | h_2 | h_7 =>
      cases hchoose
      exact Form.directed_of_sized rfl (.inr (.inr rfl)) hread
    case h_3 =>
      cases hchoose
      exact Form.directed_of_sized rfl (.inr (.inl rfl)) hread
    case h_5 =>
      cases hchoose
      exact Form.directed_of_sized rfl (.inl rfl) hread
    case h_4 | h_6 =>
      split at hchoose
      case isTrue hmodRM =>
        cases hchoose
        exact Form.directed_of_memory rfl rfl (hmemory hmodRM) hread
      case isFalse => cases hchoose
    case h_8 => cases hchoose

/-! ## Operations -/

/-- Every operation that a processor runs is directed. -/
theorem directed_of_reads (h : (operation width).Reads bytes found) (hruns : cpu.runs found.era = true) :
    found.Directed := by
  obtain ⟨_, _, rest, _, _, entry, -, -, -, htabled, hentry⟩ := reads_operation h
  rcases htabled.leads with rfl | hleads
  · exact OneByte.directed_stepGroup hentry
  · rcases Entry.reads_read hentry with ⟨form, encoding, hplain, hread⟩ | ⟨form, encoding, _, hchosen, hread⟩
    · rcases (hleads.plain form hplain).2 with hlater | htakes
      · obtain ⟨operands, -, rfl⟩ := Form.reads_read hread
        exact absurd ((cpu.not_runs_of_later hlater).symm.trans hruns) (by decide)
      · exact Form.directed_of_takes htakes hread
    · exact (hleads.choice form hchosen).directed hread hruns

theorem decode_directed {image : Image} {offset : UInt32} {instruction : Instruction}
    (h : decode cpu image offset width = .ok instruction) : instruction.operation.Directed :=
  directed_of_reads (decode_reads h).1 (decode_reads h).2

end FlowDisasm.X86
