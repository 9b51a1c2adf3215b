import FlowDisasm.Proofs.Text.Plain
import FlowDisasm.Proofs.X86.Targets

/-!
# Mnemonics and texts of instructions

All mnemonics that a processor at hand can meet are plain text, and no mnemonic stands for one with an operand there.
What later processors have is never shown, so the tables of their operations do not matter. Registers, numbers and
memory operands are plain too, and so is the text of every decoded instruction if the label in it is.
-/
namespace FlowDisasm.X86

open Text (Plain plain_append plain_join plain_intercalate)

/-- A form with plain mnemonics of its own, or one that no processor at hand has. -/
def Form.Spelled (form : Form) : Prop :=
  form.era = .later ∨ Plain form.name ∧ Plain form.wideName ∧ form.aliases = []

def Entry.Spelled (entry : Entry) : Prop :=
  entry.All Form.Spelled Form.Spelled

variable {form : Form} {choice : Option Form} {name : String}

@[simp] theorem Form.spelled_mk (name wideName : String) (slots : List Slot) (kind : Mnemonic) (feature : Feature)
    (traits : List Trait) (aliases : List (Nat × String)) :
    Form.Spelled ⟨name, wideName, slots, kind, feature, traits, aliases⟩ ↔
      feature.era = .later ∨ Plain name ∧ Plain wideName ∧ aliases = [] := Iff.rfl

theorem Form.Late.spelled (h : form.Late) : form.Spelled :=
  .inl h.2

theorem Every.spelled (h : Every Form.Late choice) : Every Form.Spelled choice :=
  h.imp fun _ => Form.Late.spelled

theorem Entry.Late.spelled {entry : Entry} (h : entry.Late) : entry.Spelled :=
  h.imp (fun _ => Form.Late.spelled) fun _ => Form.Late.spelled

@[simp] theorem Entry.spelled_plain : (Entry.plain form).Spelled ↔ form.Spelled := Entry.all_plain

@[simp] theorem Entry.spelled_always : (Entry.always form).Spelled ↔ form.Spelled := Entry.all_always

@[simp] theorem Entry.spelled_undefined {count : Nat} : (Entry.undefined count).Spelled := Entry.all_undefined

theorem Entry.spelled_modRM {choose : ModRM → Option Form} :
    (Entry.modRM choose).Spelled ↔ ∀ modRM, Every Form.Spelled (choose modRM) := Entry.all_modRM

theorem Entry.spelled_modRMOr {choose : ModRM → Option Form} {remainder : ModRM → Remainder} :
    (Entry.modRMOr choose remainder).Spelled ↔ ∀ modRM, Every Form.Spelled (choose modRM) := Entry.all_modRMOr

theorem Entry.spelled_registers {choose : ModRM → Option Form} :
    (Entry.registers choose).Spelled ↔ ∀ modRM, Every Form.Spelled (choose modRM) := Entry.all_registers

/-! ## Opcodes of one byte -/

namespace OneByte

@[simp] theorem plain_arithmeticName (operation : Fin 8) : Plain (arithmeticName operation) := by
  revert operation
  decide

@[simp] theorem plain_conditionName (condition : Fin 16) : Plain (conditionName condition) := by
  revert condition
  decide

@[simp] theorem plain_shiftName (operation : Fin 8) : Plain (shiftName operation) := by
  revert operation
  decide

theorem spelled_arithmeticRows (opcode : Nat) : (arithmeticRows opcode).Spelled := by
  unfold arithmeticRows arithmetic
  repeat' split
  all_goals simp +decide [segmentStack]

theorem spelled_registerRows (opcode : Nat) : (registerRows opcode).Spelled := by
  unfold registerRows
  repeat' split
  all_goals simp +decide

theorem spelled_row6 (low : Nat) : (row6 low).Spelled := by
  unfold row6
  split <;> simp +decide

theorem spelled_memoryOr (remainder : ModRM → Remainder) (h : form.Spelled) : (memoryOr remainder form).Spelled := by
  rw [memoryOr, Entry.spelled_modRMOr]
  intro modRM
  split <;> simp [h]

theorem spelled_row8 (low : Nat) : (row8 low).Spelled := by
  have hgroup (size : Size) (immediate : Slot) : (arithmeticGroup size immediate).Spelled := by
    rw [arithmeticGroup, Entry.spelled_modRM]
    simp
  have hpop : popGroup.Spelled := by
    rw [popGroup, Entry.spelled_modRMOr]
    intro modRM
    split <;> simp +decide
  unfold row8
  split
  case h_14 => exact Entry.all_memoryOnly (by simp +decide)
  all_goals simp +decide [hgroup, hpop]

theorem spelled_row9 (setting : Setting) (low : Nat) : (row9 setting low).Spelled := by
  unfold row9 idle
  repeat' split
  all_goals simp +decide

theorem spelled_rowA (low : Nat) : (rowA low).Spelled := by
  unfold rowA
  split <;> simp +decide

theorem spelled_rowB (low : Nat) : (rowB low).Spelled := by
  unfold rowB
  split <;> simp +decide

theorem spelled_shiftGroup (size : Size) (count : Slot) (feature : Feature) : (shiftGroup size count feature).Spelled := by
  rw [shiftGroup, Entry.spelled_modRM]
  simp

theorem spelled_rowC (low : Nat) : (rowC low).Spelled := by
  have hmove (size : Size) (immediate : Slot) {beside : Form} (h : beside.era = .later) :
      (immediateMove size immediate beside).Spelled := by
    rw [immediateMove, Entry.spelled_modRM]
    intro modRM
    repeat' split
    · simp +decide
    · exact every_some.mpr (.inl h)
    · exact every_none
  unfold rowC
  split
  case h_5 | h_6 => exact spelled_memoryOr _ (by simp +decide [farLoad])
  case h_7 | h_8 => exact hmove _ _ rfl
  all_goals simp +decide [spelled_shiftGroup]

theorem spelled_rowD (low : Nat) : (rowD low).Spelled := by
  unfold rowD
  split <;> simp +decide [spelled_shiftGroup]

theorem spelled_rowE (setting : Setting) (low : Nat) : (rowE setting low).Spelled := by
  unfold rowE counting emptied
  repeat' split
  all_goals simp +decide

theorem spelled_stepGroup : stepGroup.Spelled := by
  rw [stepGroup, Entry.spelled_modRM]
  intro modRM
  repeat' split
  all_goals simp +decide

theorem spelled_rowF (low : Nat) : (rowF low).Spelled := by
  have hunary (size : Size) (immediate : Slot) : (unaryGroup size immediate).Spelled := by
    rw [unaryGroup, Entry.spelled_modRM]
    intro modRM
    rw [every_some]
    split <;> simp +decide
  have hbyte : byteStepGroup.Spelled := by
    rw [byteStepGroup, Entry.spelled_modRM]
    intro modRM
    split <;> simp +decide
  unfold rowF
  split <;> simp +decide [hunary, hbyte, spelled_stepGroup]

theorem spelled_entry (setting : Setting) (opcode : Nat) : (entry setting opcode).Spelled := by
  unfold entry
  repeat' split
  case h_3.isTrue => exact spelled_memoryOr _ (by simp +decide)
  all_goals simp +decide [shortJump, spelled_arithmeticRows, spelled_registerRows, spelled_row6, spelled_row8,
    spelled_row9, spelled_rowA, spelled_rowB, spelled_rowC, spelled_rowD, spelled_rowE, spelled_rowF]

end OneByte

/-! ## Opcodes behind the escape byte -/

namespace Machine

theorem spelled_selectorGroup : selectorGroup.Spelled := by
  rw [selectorGroup, Entry.spelled_modRM]
  intro modRM
  split <;> simp +decide

theorem spelled_statusGroup (setting : Setting) : (statusGroup setting).Spelled := by
  rw [statusGroup, Entry.spelled_modRM]
  intro modRM
  repeat' split
  all_goals simp +decide [(late_singleForm _ _).spelled, (late_later _ _).spelled]

theorem spelled_exchangeGroup (setting : Setting) : (exchangeGroup setting).Spelled := by
  rw [exchangeGroup, Entry.spelled_modRM]
  intro modRM
  repeat' split
  all_goals simp +decide [(late_map_later _ _).spelled, (late_later _ _).spelled]

end Machine

namespace TwoByte

@[simp] theorem spelled_bare {feature : Feature} (h : Plain name) : (bare name feature).Spelled :=
  Entry.spelled_plain.mpr (.inr ⟨h, h, rfl⟩)

theorem spelled_unmarked (setting : Setting) (name : String) : (unmarked setting name).Spelled := by
  unfold unmarked bare
  split <;> simp

theorem spelled_row0 (setting : Setting) (low : Nat) : (row0 setting low).Spelled := by
  unfold row0
  repeat' split
  all_goals simp +decide [Machine.spelled_selectorGroup, Machine.spelled_statusGroup,
    Machine.late_prefetchGroup.spelled, Paired.late_entry.spelled]

theorem spelled_row1 (setting : Setting) (low : Nat) : (row1 setting low).Spelled := by
  unfold row1
  split
  all_goals simp [Machine.hint, (late_later _ _).spelled, Machine.late_cacheHintGroup.spelled,
    (Machine.late_demotionGroup setting).spelled, (Machine.late_trackingGroup setting).spelled,
    Machine.late_idleGroup.spelled, (Vector.late_entry setting _).spelled]

theorem spelled_row2 (setting : Setting) (low : Nat) : (row2 setting low).Spelled := by
  have hcontrol (slots : List Slot) : (controlMove slots).Spelled := by
    rw [controlMove, Entry.spelled_registers]
    intro modRM
    split <;> simp +decide
  have hdebug (slots : List Slot) : (debugMove slots).Spelled := by
    rw [debugMove, Entry.spelled_registers]
    simp +decide
  unfold row2
  repeat' split
  all_goals simp [hcontrol, hdebug, (Vector.late_entry setting _).spelled]

theorem spelled_row3 (setting : Setting) (low : Nat) : (row3 setting low).Spelled := by
  unfold row3
  split <;> simp +decide [spelled_unmarked]

theorem spelled_rowA (setting : Setting) (low : Nat) : (rowA setting low).Spelled := by
  unfold rowA
  split
  all_goals simp +decide [segmentStack, bitForm, doubleShift, (Machine.late_digestGroup setting).spelled,
    (Machine.late_cipherGroup setting).spelled, (Machine.late_stateGroup setting).spelled]

theorem spelled_bitScan (setting : Setting) (counting : String) (h : Plain name) :
    (bitScan setting name counting).Spelled := by
  unfold bitScan
  split <;> simp [h]

theorem spelled_rowB (setting : Setting) (low : Nat) : (rowB setting low).Spelled := by
  have hload {name : String} (h : Plain name) : (farLoad name).Spelled := Entry.all_memoryOnly (.inr ⟨h, h, rfl⟩)
  have hbit : bitGroup.Spelled := by
    rw [bitGroup, Entry.spelled_modRM]
    intro modRM
    dsimp only
    split <;> simp +decide
  unfold rowB
  repeat' split
  all_goals simp +decide [bitForm, widening, hload, hbit, spelled_bitScan]

theorem spelled_rowC (setting : Setting) (low : Nat) : (rowC setting low).Spelled := by
  unfold rowC
  repeat' split
  all_goals simp +decide [Machine.spelled_exchangeGroup, (Vector.late_entry setting _).spelled]

theorem spelled_entry (setting : Setting) (opcode : Nat) : (entry setting opcode).Spelled := by
  unfold entry
  repeat' split
  all_goals simp +decide [conditionalMove, nearJump, conditionalSet, spelled_unmarked, spelled_row0, spelled_row1,
    spelled_row2, spelled_row3, spelled_rowA, spelled_rowB, spelled_rowC, (Vector.late_entry setting _).spelled]

end TwoByte

/-! ## Floats -/

namespace Float

@[simp] theorem plain_arithmeticName (operation : Fin 8) : Plain (arithmeticName operation) := by
  revert operation
  decide

theorem spelled_integerMove (extent : Extent) (reg : Fin 8) : Every Form.Spelled (integerMove extent reg) := by
  unfold integerMove
  split <;> simp +decide [fromMemory, toMemory]

theorem spelled_memoryForm (escape reg : Fin 8) : Every Form.Spelled (memoryForm escape reg) := by
  unfold memoryForm
  repeat' split
  all_goals simp +decide [fromMemory, toMemory, onControl, onEnvironment, onState, spelled_integerMove]

theorem spelled_onTop {feature : Feature} (h : Plain name) : (onTop name feature).Spelled := .inr ⟨h, h, rfl⟩

theorem spelled_onOther (h : Plain name) : (onOther name).Spelled := .inr ⟨h, h, rfl⟩

theorem spelled_comparing (h : Plain name) (rm : Fin 8) : (comparing name rm).Spelled := by
  unfold comparing
  split <;> simp [h, spelled_onTop]

theorem spelled_popping (h : Plain name) (rm : Fin 8) : (popping name rm).Spelled := by
  unfold popping
  split <;> simp [h, spelled_onOther]

theorem spelled_arithmeticForm (reg rm : Fin 8) : (arithmeticForm reg rm).Spelled := by
  have hname : Plain ("F" ++ arithmeticName reg) := plain_append.mpr ⟨by decide, plain_arithmeticName reg⟩
  unfold arithmeticForm
  dsimp only
  split
  · exact spelled_comparing hname rm
  · exact spelled_onTop hname

theorem spelled_functionForm (number : Nat) : (functionForm number).Spelled := by
  unfold functionForm bare
  split <;> simp +decide

theorem spelled_loadForm (reg rm : Fin 8) : Every Form.Spelled (loadForm reg rm) := by
  have hconstant (number : Nat) : Every Form.Spelled (constantForm number) := by
    unfold constantForm bare
    split <;> simp +decide
  unfold loadForm bare
  repeat' split
  all_goals simp +decide [spelled_comparing, spelled_functionForm, hconstant]

theorem spelled_registerForm (escape reg rm : Fin 8) : Every Form.Spelled (registerForm escape reg rm) := by
  have hcontrol : Every Form.Spelled (controlForm rm) := by
    unfold controlForm bare
    split <;> simp +decide
  have hmove (negated : Bool) : Every Form.Spelled (conditionalMove negated reg) :=
    every_map _ _ fun _ => .inl rfl
  unfold registerForm bare
  repeat' split
  all_goals simp +decide [storing, spelled_onTop, spelled_onOther, spelled_comparing, spelled_popping,
    spelled_arithmeticForm, spelled_loadForm, hcontrol, hmove]

theorem spelled_entry (opcode : Nat) : (entry opcode).Spelled := by
  rw [entry, Entry.spelled_modRMOr]
  intro modRM
  split
  · exact spelled_memoryForm _ _
  · exact spelled_registerForm _ _ _

end Float

/-- All forms of the tables are spelled. -/
theorem Tabled.spelled {code : List UInt8} {entry : Entry} (h : Tabled code entry) : entry.Spelled := by
  cases h with
  | oneByte setting opcode => exact OneByte.spelled_entry setting _
  | float opcode => exact Float.spelled_entry _
  | twoByte setting opcode => exact TwoByte.spelled_entry setting _
  | threeByte setting opcode => exact (ThreeByte.late_entry setting _).spelled
  | immediate setting opcode => exact (ThreeByte.late_immediateEntry setting _).spelled

/-! ## Operands -/

@[simp] theorem Register.plain_text (register : Register) : Plain register.text := by
  cases register with
  | floatTop => decide
  | byte number | word number | dword number | segment number | debug number | float number | multimedia number
  | vector number =>
    revert number
    decide

@[simp] theorem plain_numeral (value : Nat) : Plain (numeral value) := by
  unfold numeral
  split <;> simp

@[simp] theorem Reference.plain_text (reference : Reference) : Plain reference.text := by
  have hregisters : Plain reference.registersText := by
    unfold registersText
    repeat' split
    all_goals simp +decide
  have hdisplacement : Plain reference.displacementText := by
    unfold displacementText
    repeat' split
    all_goals simp +decide
  unfold text
  split <;> simp +decide [hregisters, hdisplacement]

@[simp] theorem Extent.plain_text (extent : Extent) : Plain extent.text := by
  cases extent with
  | floatEnvironment bytes | floatState bytes => simp +decide [text]
  | _ => decide

theorem Operand.plain_text {destination : String} (h : Plain destination) (operand : Operand) :
    Plain (operand.text destination) := by
  cases operand with
  | control number =>
    have hall : ∀ number : Fin 8, Plain s!"CR{number}" := by decide
    exact hall number
  | memory reference extent => cases extent <;> simp [text]
  | _ => simp +decide [text, h]

/-! ## Instructions -/

theorem Form.plain_words (form : Form) (setting : Setting) (onMemory : Bool) :
    ∀ word ∈ form.words setting onMemory, Plain word := by
  have hsegment : ∀ number : Fin 8, Plain (Register.segmentName number) := by decide
  simp only [words, List.forall_mem_append, and_assoc]
  refine ⟨?_, ?_, ?_, ?_, ?_, ?_, ?_⟩
  all_goals
    repeat' split
    all_goals simp +decide [hsegment]

/-- An operation is plain up to its operands if a processor runs it. -/
theorem plain_of_reads {cpu : Cpu} {width : Width} {bytes : List UInt8} {found : Operation}
    (h : (operation width).Reads bytes found) (hruns : cpu.runs found.era = true) :
    (∀ word ∈ found.words, Plain word) ∧ Plain found.mnemonic := by
  obtain ⟨setting, form, encoding, operands, rest, hspelled, -, rfl⟩ := made_of_reads Tabled.spelled h
  refine ⟨form.plain_words setting _, ?_⟩
  rcases hspelled with hlater | ⟨hname, hwide, haliases⟩
  · exact absurd ((cpu.not_runs_of_later hlater).symm.trans hruns) (by decide)
  · change Plain (form.mnemonic setting operands)
    rw [Form.mnemonic, alias?_of_no_aliases haliases, Option.getD_none]
    split
    · exact hname
    · exact hwide

theorem Operation.plain_text {found : Operation} {destination : String} (hwords : ∀ word ∈ found.words, Plain word)
    (hmnemonic : Plain found.mnemonic) (hdestination : Plain destination) : Plain (found.text destination) := by
  have hfront : Plain (String.join (found.words.map (· ++ " "))) := by
    refine plain_join fun text htext => ?_
    obtain ⟨word, hword, rfl⟩ := List.mem_map.mp htext
    exact plain_append.mpr ⟨hwords word hword, by decide⟩
  have hoperands : Plain (", ".intercalate (found.shown.map (Operand.text destination))) := by
    refine plain_intercalate (by decide) fun text htext => ?_
    obtain ⟨operand, -, rfl⟩ := List.mem_map.mp htext
    exact operand.plain_text hdestination
  have hfar : Plain (if found.far then "\tFAR" else "") := by split <;> decide
  have htab : Plain (if found.shown.isEmpty then "" else "\t") := by split <;> decide
  simp only [text, plain_append]
  exact ⟨⟨⟨⟨hfront, hmnemonic⟩, hfar⟩, htab⟩, hoperands⟩

theorem Instruction.plain_destinationText (instruction : Instruction) {label : Option String}
    (h : ∀ name ∈ label, Plain name) : Plain (instruction.destinationText label) := by
  unfold destinationText
  split
  case h_1 name => exact h name rfl
  case h_2 =>
    dsimp only
    split
    · split <;> simp
    · simp
  all_goals simp

/-- The text of a decoded instruction is plain if a label in it is. -/
theorem decode_plain {cpu : Cpu} {image : Image} {offset : UInt32} {width : Width} {instruction : Instruction}
    {label : Option String} (h : decode cpu image offset width = .ok instruction)
    (hlabel : ∀ name ∈ label, Plain name) : Plain (instruction.text label) := by
  obtain ⟨hreads, hruns⟩ := decode_reads h
  obtain ⟨hwords, hmnemonic⟩ := plain_of_reads hreads hruns
  exact Operation.plain_text hwords hmnemonic (instruction.plain_destinationText hlabel)

end FlowDisasm.X86
