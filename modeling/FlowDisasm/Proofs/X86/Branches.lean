import FlowDisasm.Proofs.Exploration.ControlFlow
import FlowDisasm.Proofs.X86.Quiet

/-!
# Near branches in the opcode tables

A form that branches inside its segment has one operand, which is a distance or a place that holds an
address, and no mnemonic that stands for an operand. A distance that some processor at hand can find is the
only operand of its form, which stands alone for its opcode, and the opcode tells how long the distance is.
Most rows of the tables have neither branches nor interrupts, and it is enough to look at the others.
-/
namespace FlowDisasm.X86

/-- A near branch has a single operand, which its text shows. -/
def Form.SingleTarget (form : Form) : Prop :=
  form.flow.isNear = true → form.aliases = [] ∧
    (form.slots = [.rel8] ∨ form.slots = [.rel] ∨ form.slots = [.sized .operand])

/-- A form of which bytes behind the opcode tell that it is meant has no distance. -/
def Form.Calm (form : Form) : Prop :=
  form.SingleTarget ∧ form.Still

/-- A form that stands alone for its opcode has a distance of one byte where that is short, and one of the
operand size where it is near; then its destination has the operand size too. -/
def Form.Steers (short near : Prop) (form : Form) : Prop :=
  form.SingleTarget ∧
    (form.Still ∨ (form.slots = [.rel8] ∧ short ∨ form.slots = [.rel] ∧ near) ∧
      form.has .wideTarget = false)

/-- Whether the operands of an instruction tell where execution goes, or what is called. -/
@[simp]
def Flow.leads : Flow → Bool
  | .int | .jmp | .jmpFar | .call | .callFar | .jcc | .loop => true
  | _ => false

/-- A form that leads nowhere, and has no distance that a processor at hand finds. -/
def Form.Idle (form : Form) : Prop :=
  form.flow.leads = false ∧ form.Still

/-- The slots that a form of a kind has if it stands alone for its opcode. -/
@[simp]
def Flow.Takes (flow : Flow) (slots : List Slot) : Prop :=
  match flow with
  | .jmp | .call | .jcc | .loop => slots = [.rel8] ∨ slots = [.rel]
  | .jmpFar | .callFar => slots = [.farPointer]
  | .int => slots = [.imm8]
  | _ => slots.any Slot.isDistance = false

/-- A form that stands alone for its opcode and leads where its slots tell. -/
def Form.Leads (short near : Prop) (form : Form) : Prop :=
  form.Steers short near ∧ (form.era = .later ∨ form.flow.Takes form.slots)

variable {form : Form} {short near : Prop}

theorem Form.SingleTarget.of_not_near (h : form.flow.isNear = false) : form.SingleTarget := by
  intro hnear
  rw [h] at hnear
  cases hnear

theorem Form.Steers.imp {short' near' : Prop} (h : form.Steers short near) (hshort : short → short')
    (hnear : near → near') : form.Steers short' near' :=
  ⟨h.1, h.2.imp_right (And.imp_left (Or.imp (And.imp_right hshort) (And.imp_right hnear)))⟩

@[simp] theorem Form.calm_mk (name wideName : String) (slots : List Slot) (kind : Mnemonic) (feature : Feature)
    (traits : List Trait) (aliases : List (Nat × String)) :
    Form.Calm ⟨name, wideName, slots, kind, feature, traits, aliases⟩ ↔
      ((classify kind (traits.contains .far)).isNear = true → aliases = [] ∧
        (slots = [.rel8] ∨ slots = [.rel] ∨ slots = [.sized .operand])) ∧
      (feature.era = .later ∨ slots.any Slot.isDistance = false) := Iff.rfl

@[simp] theorem Form.steers_mk (name wideName : String) (slots : List Slot) (kind : Mnemonic) (feature : Feature)
    (traits : List Trait) (aliases : List (Nat × String)) :
    Form.Steers short near ⟨name, wideName, slots, kind, feature, traits, aliases⟩ ↔
      ((classify kind (traits.contains .far)).isNear = true → aliases = [] ∧
        (slots = [.rel8] ∨ slots = [.rel] ∨ slots = [.sized .operand])) ∧
      ((feature.era = .later ∨ slots.any Slot.isDistance = false) ∨
        (slots = [.rel8] ∧ short ∨ slots = [.rel] ∧ near) ∧
          traits.contains .wideTarget = false) := Iff.rfl

theorem Form.Calm.steers (h : form.Calm) : form.Steers short near :=
  ⟨h.1, .inl h.2⟩

@[simp] theorem Form.idle_mk (name wideName : String) (slots : List Slot) (kind : Mnemonic) (feature : Feature)
    (traits : List Trait) (aliases : List (Nat × String)) :
    Form.Idle ⟨name, wideName, slots, kind, feature, traits, aliases⟩ ↔
      (classify kind (traits.contains .far)).leads = false ∧ (feature.era = .later ∨ slots.any Slot.isDistance = false) := Iff.rfl

theorem Form.Idle.calm (h : form.Idle) : form.Calm := by
  refine ⟨.of_not_near ?_, h.2⟩
  have hleads := h.1
  cases hflow : form.flow <;> simp_all [Flow.isNear]

theorem Form.Quiet.idle (h : form.Quiet) : form.Idle := by
  refine ⟨?_, h.2⟩
  rw [h.1]
  rfl

@[simp] theorem Form.leads_mk (name wideName : String) (slots : List Slot) (kind : Mnemonic) (feature : Feature)
    (traits : List Trait) (aliases : List (Nat × String)) :
    Form.Leads short near ⟨name, wideName, slots, kind, feature, traits, aliases⟩ ↔
      Form.Steers short near ⟨name, wideName, slots, kind, feature, traits, aliases⟩ ∧
        (feature.era = .later ∨ (classify kind (traits.contains .far)).Takes slots) := Iff.rfl

theorem Form.Idle.leads (h : form.Idle) : form.Leads short near := by
  refine ⟨h.calm.steers, h.2.imp_right fun hstill => ?_⟩
  have hleads := h.1
  cases hflow : form.flow <;> simp_all

theorem Form.Leads.imp {short' near' : Prop} (h : form.Leads short near) (hshort : short → short')
    (hnear : near → near') : form.Leads short' near' :=
  h.imp_left fun hsteers => hsteers.imp hshort hnear

/-! ## Entries -/

def Entry.Idle (entry : Entry) : Prop :=
  entry.All Form.Idle Form.Idle

def Entry.Leads (short near : Prop) (entry : Entry) : Prop :=
  entry.All (Form.Leads short near) Form.Idle

@[simp] theorem idle_later (name : String) (slots : List Slot) : (Marked.later name slots).Idle :=
  (quiet_later name slots).idle

theorem Entry.Quiet.idle {entry : Entry} (h : entry.Quiet) : entry.Idle :=
  h.imp (fun _ => Form.Quiet.idle) fun _ => Form.Quiet.idle

theorem Entry.Late.idle {entry : Entry} (h : entry.Late) : entry.Idle :=
  h.quiet.idle

theorem Entry.Idle.leads {entry : Entry} (h : entry.Idle) : entry.Leads short near :=
  h.imp (fun _ => Form.Idle.leads) fun _ => id

theorem Entry.Leads.imp {entry : Entry} {short' near' : Prop} (h : entry.Leads short near) (hshort : short → short')
    (hnear : near → near') : entry.Leads short' near' :=
  All.imp h (fun _ hform => hform.imp hshort hnear) fun _ => id

theorem Entry.Leads.steers {entry : Entry} (h : entry.Leads short near) :
    entry.All (Form.Steers short near) Form.Calm :=
  All.imp h (fun _ => And.left) fun _ => Form.Idle.calm

@[simp] theorem Entry.idle_plain : (Entry.plain form).Idle ↔ form.Idle := Entry.all_plain

@[simp] theorem Entry.idle_always : (Entry.always form).Idle ↔ form.Idle := Entry.all_always

@[simp] theorem Entry.idle_modRM {choose : ModRM → Option Form} :
    (Entry.modRM choose).Idle ↔ ∀ modRM form, choose modRM = some form → form.Idle := Entry.all_modRM

@[simp] theorem Entry.idle_undefined {count : Nat} : (Entry.undefined count).Idle := Entry.all_undefined

/-! ## Opcodes of one byte -/

namespace OneByte

theorem idle_arithmeticRows (opcode : Nat) : (arithmeticRows opcode).Idle := by
  unfold arithmeticRows arithmetic
  repeat' split
  all_goals simp [segmentStack]

theorem idle_registerRows (opcode : Nat) : (registerRows opcode).Idle := by
  simp [registerRows]

theorem idle_row6 (low : Nat) : (row6 low).Idle := by
  unfold row6
  split <;> simp

theorem idle_memoryOr (remainder : ModRM → Remainder) (h : form.Idle) : (memoryOr remainder form).Idle := by
  simp only [memoryOr, Entry.Idle, Entry.all_modRMOr]
  intro modRM other hother
  split at hother
  · exact Option.some.inj hother ▸ h
  · cases hother

theorem idle_bound : bound.Idle :=
  idle_memoryOr _ ⟨rfl, .inr rfl⟩

theorem idle_popGroup : popGroup.Idle := by
  simp [popGroup, Entry.Idle]

theorem idle_row8 (low : Nat) : (row8 low).Idle := by
  unfold row8
  split
  case h_14 => exact Entry.all_memoryOnly ⟨rfl, .inr rfl⟩
  all_goals simp [arithmeticGroup, idle_popGroup]

theorem idle_idle (setting : Setting) : (idle setting).Idle := by
  unfold idle
  repeat' split
  all_goals simp

theorem leads_row9 (setting : Setting) (low : Nat) : (row9 setting low).Leads short near := by
  unfold row9
  split
  case h_4 => simp [Entry.Leads, Flow.isNear]
  all_goals exact Entry.Idle.leads (by simp [idle_idle])

theorem idle_rowA (low : Nat) : (rowA low).Idle := by
  unfold rowA
  split <;> simp

theorem idle_rowB (low : Nat) : (rowB low).Idle := by
  unfold rowB
  split <;> simp

theorem idle_immediateMove (size : Size) {immediate : Slot} {beside : Form}
    (himmediate : immediate.isDistance = false) (h : beside.Idle) :
    (immediateMove size immediate beside).Idle := by
  simp only [immediateMove, Entry.idle_modRM]
  intro modRM other hother
  split at hother
  · obtain rfl := Option.some.inj hother
    simp [himmediate]
  · split at hother
    · exact Option.some.inj hother ▸ h
    · cases hother

theorem leads_rowC (low : Nat) : (rowC low).Leads short near := by
  unfold rowC
  split
  case h_5 | h_6 => exact (idle_memoryOr _ ⟨rfl, .inr rfl⟩).leads
  case h_7 => exact (idle_immediateMove _ rfl ⟨rfl, .inr rfl⟩).leads
  -- The start of a transaction has a distance, but came later.
  case h_8 => exact (idle_immediateMove _ rfl ⟨rfl, .inl rfl⟩).leads
  case h_14 => simp [Entry.Leads, Flow.isNear]
  all_goals exact Entry.Idle.leads (by simp [shiftGroup])

theorem idle_rowD (low : Nat) : (rowD low).Idle := by
  unfold rowD
  split <;> simp [shiftGroup]

theorem leads_rowE (setting : Setting) (low : Nat) :
    (rowE setting low).Leads (low < 4 ∨ low = 0xB) (low = 8 ∨ low = 9) := by
  unfold rowE
  split
  case h_4 => cases setting.addressSize <;> simp [Entry.Leads, Flow.isNear, emptied]
  all_goals simp [Entry.Leads, Flow.isNear, counting]

theorem steers_stepGroup : stepGroup.All (Form.Steers short near) Form.Calm := by
  simp only [stepGroup, Entry.all_modRM]
  intro modRM other hother
  repeat' split at hother
  all_goals cases hother
  all_goals simp [Flow.isNear]

theorem idle_rowF (low : Nat) (hlow : low ≠ 0xF) : (rowF low).Idle := by
  have hunary : ∀ size, ∀ immediate : Slot, immediate.isDistance = false →
      (unaryGroup size immediate).Idle := by
    intro size immediate himmediate
    simp only [unaryGroup, Entry.idle_modRM]
    intro modRM other hother
    obtain rfl := Option.some.inj hother
    split <;> simp [himmediate]
  have hbyte : byteStepGroup.Idle := by
    simp only [byteStepGroup, Entry.idle_modRM]
    intro modRM other hother
    split at hother
    all_goals cases hother
    all_goals exact ⟨rfl, .inr rfl⟩
  unfold rowF
  split
  case h_13 => exact absurd rfl hlow
  all_goals simp [hunary .byte .imm8 rfl, hunary .operand .immOperand rfl, hbyte]

/-- Only the last opcode chooses between forms that lead anywhere. -/
theorem leads_entry (setting : Setting) (opcode : Nat) : entry setting opcode = stepGroup ∨
    (entry setting opcode).Leads
      (opcode = 0xEB ∨ 0x70 ≤ opcode ∧ opcode ≤ 0x7F ∨ 0xE0 ≤ opcode ∧ opcode ≤ 0xE3)
      (opcode = 0xE8 ∨ opcode = 0xE9) := by
  unfold entry
  split
  case h_4 hrow =>
    have hshort : 0x70 ≤ opcode ∧ opcode ≤ 0x7F := by omega
    exact .inr (by simp [shortJump, hshort, Entry.Leads])
  case h_11 hrow =>
    refine .inr ((leads_rowE setting _).imp ?_ ?_)
    · omega
    · omega
  case h_12 =>
    by_cases hlow : opcode % 16 = 0xF
    · exact .inl (by rw [hlow]; rfl)
    · exact .inr (idle_rowF _ hlow).leads
  case h_3 =>
    split
    · exact .inr idle_bound.leads
    · exact .inr (idle_row6 _).leads
  case h_1 | h_2 => exact .inr (idle_registerRows _).leads
  case h_5 => exact .inr (idle_row8 _).leads
  case h_6 => exact .inr (leads_row9 setting _)
  case h_7 => exact .inr (idle_rowA _).leads
  case h_8 => exact .inr (idle_rowB _).leads
  case h_9 => exact .inr (leads_rowC _)
  case h_10 => exact .inr (idle_rowD _).leads
  case h_13 => exact .inr (idle_arithmeticRows _).leads

end OneByte

/-! ## Opcodes behind the escape byte -/

namespace TwoByte

@[simp] theorem idle_bare (name : String) (feature : Feature) : (bare name feature).Idle :=
  Entry.idle_plain.mpr ⟨rfl, .inr rfl⟩

theorem idle_row0 (setting : Setting) (low : Nat) : (row0 setting low).Idle := by
  unfold row0
  repeat' split
  all_goals simp [Machine.quiet_selectorGroup.idle, (Machine.quiet_statusGroup setting).idle,
    Machine.late_prefetchGroup.idle, Paired.late_entry.idle]

theorem idle_row1 (setting : Setting) (low : Nat) : (row1 setting low).Idle := by
  unfold row1
  split
  all_goals simp [Machine.hint,
    Machine.late_cacheHintGroup.idle, (Machine.late_demotionGroup setting).idle,
    (Machine.late_trackingGroup setting).idle, Machine.late_idleGroup.idle,
    (Vector.late_entry setting _).idle]

theorem idle_row2 (setting : Setting) (low : Nat) : (row2 setting low).Idle := by
  have hcontrol : ∀ slots : List Slot, slots.any Slot.isDistance = false → (controlMove slots).Idle := by
    intro slots hslots
    rw [controlMove, Entry.Idle, Entry.all_registers]
    intro modRM form hform
    split at hform
    · exact Option.some.inj hform ▸ ⟨rfl, .inr hslots⟩
    · cases hform
  have hdebug : ∀ slots : List Slot, slots.any Slot.isDistance = false → (debugMove slots).Idle := by
    intro slots hslots
    rw [debugMove, Entry.Idle, Entry.all_registers]
    intro modRM form hform
    exact Option.some.inj hform ▸ ⟨rfl, .inr hslots⟩
  unfold row2
  repeat' split
  all_goals simp [hcontrol, hdebug, (Vector.late_entry setting _).idle]

theorem idle_unmarked (setting : Setting) (name : String) : (unmarked setting name).Idle := by
  unfold unmarked
  split <;> simp

theorem idle_row3 (setting : Setting) (low : Nat) : (row3 setting low).Idle := by
  unfold row3
  split <;> simp [idle_unmarked]

theorem idle_rowA (setting : Setting) (low : Nat) : (rowA setting low).Idle := by
  unfold rowA
  split
  all_goals simp [segmentStack, bitForm, doubleShift,
    (Machine.late_digestGroup setting).idle, (Machine.late_cipherGroup setting).idle,
    (Machine.late_stateGroup setting).idle]

theorem idle_bitScan (setting : Setting) (name counting : String) : (bitScan setting name counting).Idle := by
  unfold bitScan
  split <;> simp

theorem idle_rowB (setting : Setting) (low : Nat) : (rowB setting low).Idle := by
  have hload : ∀ name, (farLoad name).Idle := fun name => Entry.all_memoryOnly ⟨rfl, .inr rfl⟩
  have hbit : bitGroup.Idle := by
    rw [bitGroup, Entry.idle_modRM]
    intro modRM form hform
    dsimp only at hform
    split at hform
    case h_5 => cases hform
    all_goals exact Option.some.inj hform ▸ ⟨rfl, .inr rfl⟩
  unfold rowB
  repeat' split
  all_goals simp [bitForm, widening, hload, hbit, idle_bitScan]

theorem idle_rowC (setting : Setting) (low : Nat) : (rowC setting low).Idle := by
  unfold rowC
  repeat' split
  all_goals simp [(Machine.quiet_exchangeGroup setting).idle, (Vector.late_entry setting _).idle]

theorem leads_entry (setting : Setting) (opcode : Nat) :
    (entry setting opcode).Leads short (0x80 ≤ opcode ∧ opcode ≤ 0x8F) := by
  unfold entry
  split
  case h_6 hrow =>
    have hnear : 0x80 ≤ opcode ∧ opcode ≤ 0x8F := by omega
    simp [nearJump, hnear, Entry.Leads]
  case h_11 =>
    repeat' split
    all_goals exact Entry.Idle.leads (by simp [idle_unmarked, (Vector.late_entry setting _).idle])
  all_goals exact Entry.Idle.leads (by simp [conditionalMove, conditionalSet, idle_row0, idle_row1, idle_row2,
    idle_row3, idle_rowA, idle_rowB, idle_rowC])

end TwoByte

/-! ## All opcodes -/

def ShortCode (code : List UInt8) : Prop :=
  ∃ opcode, code = [opcode] ∧ isShortBranch opcode = true

def NearCode (code : List UInt8) : Prop :=
  code = [0xE8] ∨ code = [0xE9] ∨ ∃ opcode, code = [0x0F, opcode] ∧ 0x80 ≤ opcode ∧ opcode ≤ 0x8F

theorem isShortBranch_iff {opcode : UInt8} : isShortBranch opcode = true ↔
    opcode.toNat = 0xEB ∨ 0x70 ≤ opcode.toNat ∧ opcode.toNat ≤ 0x7F ∨
      0xE0 ≤ opcode.toNat ∧ opcode.toNat ≤ 0xE3 := by
  simp only [isShortBranch, Bool.or_eq_true, Bool.and_eq_true, decide_eq_true_eq,
    UInt8.le_iff_toNat_le, ← UInt8.toNat_inj, or_assoc]
  rfl

theorem Tabled.leads {code : List UInt8} {entry : Entry} (h : Tabled code entry) :
    entry = OneByte.stepGroup ∨ entry.Leads (ShortCode code) (NearCode code) := by
  cases h with
  | oneByte setting opcode =>
    refine (OneByte.leads_entry setting opcode.toNat).imp_right fun hleads => hleads.imp ?_ ?_
    · exact fun hshort => ⟨opcode, rfl, isShortBranch_iff.mpr hshort⟩
    · rintro (hcall | hjump)
      · obtain rfl : opcode = 0xE8 := UInt8.toNat_inj.mp hcall
        exact .inl rfl
      · obtain rfl : opcode = 0xE9 := UInt8.toNat_inj.mp hjump
        exact .inr (.inl rfl)
  | float opcode => exact .inr (Float.quiet_entry _).idle.leads
  | twoByte setting opcode =>
    refine .inr ((TwoByte.leads_entry setting opcode.toNat).imp id ?_)
    rintro ⟨hlow, hhigh⟩
    exact .inr (.inr ⟨opcode, rfl, UInt8.le_iff_toNat_le.mpr hlow, UInt8.le_iff_toNat_le.mpr hhigh⟩)
  | threeByte setting opcode => exact .inr (ThreeByte.late_entry _ _).idle.leads
  | immediate setting opcode => exact .inr (ThreeByte.late_immediateEntry _ _).idle.leads

theorem Tabled.steers {code : List UInt8} {entry : Entry} (h : Tabled code entry) :
    entry.All (Form.Steers (ShortCode code) (NearCode code)) Form.Calm := by
  rcases h.leads with rfl | hleads
  · exact OneByte.steers_stepGroup
  · exact hleads.steers

end FlowDisasm.X86
