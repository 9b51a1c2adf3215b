import FlowDisasm.Proofs.X86.Forms

/-!
# Tables without branches

The operations on floats, on the multimedia registers and on the state of the machine take no part in
control flow: execution goes on behind each of them, whatever stands in front of the opcode. No processor at hand
finds a distance in one of them. Most of them, and all those on the multimedia registers, came later than any processor
at hand.
-/
namespace FlowDisasm.X86

@[simp]
def Slot.isDistance : Slot → Bool
  | rel8 | rel => true
  | hidden slot | implied slot | narrowed slot => slot.isDistance
  | _ => false

/-- A form without a distance, or one that no processor at hand has. -/
def Form.Still (form : Form) : Prop :=
  form.era = .later ∨ form.slots.any Slot.isDistance = false

/-- A form that takes no part in control flow. -/
def Form.Quiet (form : Form) : Prop :=
  form.flow = .other ∧ form.Still

/-- A form that no processor at hand has, and that takes no part in control flow. -/
def Form.Late (form : Form) : Prop :=
  form.flow = .other ∧ form.era = .later

def Every (P : Form → Prop) (choice : Option Form) : Prop :=
  ∀ form, choice = some form → P form

variable {form : Form} {choice : Option Form} {P Q : Form → Prop}

@[simp] theorem Form.quiet_mk (name wideName : String) (slots : List Slot) (kind : Mnemonic) (feature : Feature)
    (traits : List Trait) (aliases : List (Nat × String)) :
    Form.Quiet ⟨name, wideName, slots, kind, feature, traits, aliases⟩ ↔
      classify kind (traits.contains .far) = .other ∧ (feature.era = .later ∨ slots.any Slot.isDistance = false) := Iff.rfl

@[simp] theorem Form.late_mk (name wideName : String) (slots : List Slot) (kind : Mnemonic) (feature : Feature)
    (traits : List Trait) (aliases : List (Nat × String)) :
    Form.Late ⟨name, wideName, slots, kind, feature, traits, aliases⟩ ↔
      classify kind (traits.contains .far) = .other ∧ feature.era = .later := Iff.rfl

theorem Form.Late.quiet (h : form.Late) : form.Quiet :=
  ⟨h.1, .inl h.2⟩

@[simp] theorem kind_later (name : String) (slots : List Slot) :
    (Marked.later name slots).kind = .other := rfl

@[simp] theorem feature_later (name : String) (slots : List Slot) :
    (Marked.later name slots).feature = .later := rfl

@[simp] theorem late_later (name : String) (slots : List Slot) : (Marked.later name slots).Late :=
  ⟨rfl, rfl⟩

@[simp] theorem quiet_later (name : String) (slots : List Slot) : (Marked.later name slots).Quiet :=
  (late_later name slots).quiet

/-! ## Choices -/

theorem Every.imp (h : Every P choice) (hforms : ∀ form, P form → Q form) : Every Q choice :=
  fun form hform => hforms form (h form hform)

@[simp] theorem every_none : Every P none := nofun

@[simp] theorem every_some : Every P (some form) ↔ P form := by
  simp [Every]

theorem every_map (names : Option String) (make : String → Form) (h : ∀ name, P (make name)) :
    Every P (names.map make) := by
  cases names with
  | none => exact every_none
  | some name => exact every_some.mpr (h name)

@[simp] theorem every_only (expected mark : Mark) :
    Every P (Marked.only expected mark form) ↔ mark = expected → P form := by
  unfold Marked.only
  by_cases hmark : mark = expected <;> simp [hmark]

theorem Every.quiet (h : Every Form.Late choice) : Every Form.Quiet choice :=
  h.imp fun _ => Form.Late.quiet

@[simp] theorem late_map_later (names : Option String) (slots : List Slot) :
    Every Form.Late (names.map (Marked.later · slots)) :=
  every_map names _ fun name => late_later name slots

@[simp] theorem late_onEitherFile (mark : Mark) (name : String) (rest : List Slot) :
    Every Form.Late (Marked.onEitherFile mark name rest) := by
  cases mark <;> simp [Marked.onEitherFile]

/-! ## Entries -/

/-- The form that an entry stands for alone has one property, and those of which it chooses have another. -/
structure Entry.All (alone chosen : Form → Prop) (entry : Entry) : Prop where
  plain : ∀ form, entry = .plain form → alone form
  choice : ∀ form, entry.Chooses form → chosen form

namespace Entry

@[simp] theorem all_plain : (plain form).All P Q ↔ P form := by
  constructor
  · intro h
    exact h.plain form rfl
  · intro h
    refine ⟨?_, nofun⟩
    rintro _ ⟨⟩
    exact h

@[simp] theorem all_modRM {choose : ModRM → Option Form} :
    (modRM choose).All P Q ↔ ∀ modRM form, choose modRM = some form → Q form := by
  constructor
  · intro h modRM form hchoose
    exact h.choice form (.modRM hchoose)
  · intro h
    refine ⟨nofun, ?_⟩
    rintro form ⟨⟩
    rename_i modRM hchoose
    exact h modRM form hchoose

@[simp] theorem all_registers {choose : ModRM → Option Form} :
    (registers choose).All P Q ↔ ∀ modRM form, choose modRM = some form → Q form := by
  constructor
  · intro h modRM form hchoose
    exact h.choice form (.registers hchoose)
  · intro h
    refine ⟨nofun, ?_⟩
    rintro form ⟨⟩
    rename_i modRM hchoose
    exact h modRM form hchoose

@[simp] theorem all_modRMOr {choose : ModRM → Option Form} {remainder : ModRM → Remainder} :
    (modRMOr choose remainder).All P Q ↔ ∀ modRM form, choose modRM = some form → Q form := by
  constructor
  · intro h modRM form hchoose
    exact h.choice form (.modRMOr hchoose)
  · intro h
    refine ⟨nofun, ?_⟩
    rintro form ⟨⟩
    rename_i modRM hchoose
    exact h modRM form hchoose

@[simp] theorem all_suffixed {choose : UInt8 → Option Form} :
    (suffixed choose).All P Q ↔ ∀ last form, choose last = some form → Q form := by
  constructor
  · intro h last form hchoose
    exact h.choice form (.suffixed hchoose)
  · intro h
    refine ⟨nofun, ?_⟩
    rintro form ⟨⟩
    rename_i last hchoose
    exact h last form hchoose

@[simp] theorem all_undefined {count : Nat} : (undefined count).All P Q := ⟨nofun, nofun⟩

@[simp] theorem all_always : (always form).All P Q ↔ Q form := by
  rw [always, all_modRM]
  constructor
  · intro h
    exact h (ModRM.ofByte 0) form rfl
  · rintro h modRM other hother
    exact Option.some.inj hother ▸ h

theorem all_memoryOnly (h : Q form) : (memoryOnly form).All P Q := by
  simp only [memoryOnly, all_modRM]
  intro modRM other hother
  split at hother
  · exact Option.some.inj hother ▸ h
  · cases hother

theorem All.imp {alone chosen : Form → Prop} {entry : Entry} (h : entry.All P Q)
    (halone : ∀ form, P form → alone form) (hchosen : ∀ form, Q form → chosen form) :
    entry.All alone chosen where
  plain form hform := halone form (h.plain form hform)
  choice form hform := hchosen form (h.choice form hform)

end Entry

def Entry.Quiet (entry : Entry) : Prop :=
  entry.All Form.Quiet Form.Quiet

def Entry.Late (entry : Entry) : Prop :=
  entry.All Form.Late Form.Late

theorem Entry.Late.quiet {entry : Entry} (h : entry.Late) : entry.Quiet :=
  h.imp (fun _ => Form.Late.quiet) fun _ => Form.Late.quiet

theorem Entry.quiet_modRM {choose : ModRM → Option Form} :
    (Entry.modRM choose).Quiet ↔ ∀ modRM, Every Form.Quiet (choose modRM) :=
  Entry.all_modRM

theorem Entry.late_modRM {choose : ModRM → Option Form} :
    (Entry.modRM choose).Late ↔ ∀ modRM, Every Form.Late (choose modRM) :=
  Entry.all_modRM

/-! ## Multimedia operations -/

namespace Vector

@[simp] theorem late_onRegisters (name : String) (slots : List Slot) :
    (onRegisters name slots).Late := ⟨rfl, rfl⟩

theorem late_moveForm (mark : Mark) (opcode : Nat) (modRM : ModRM) :
    Every Form.Late (moveForm mark opcode modRM) := by
  unfold moveForm
  repeat' split
  all_goals simp

theorem late_floatForm (mark : Mark) (low : Nat) (modRM : ModRM) :
    Every Form.Late (floatForm mark low modRM) := by
  unfold floatForm
  repeat' split
  all_goals simp

theorem late_shiftForm (mark : Mark) (low : Nat) (modRM : ModRM) :
    Every Form.Late (shiftForm mark low modRM) := by
  unfold shiftForm
  split <;> simp

theorem late_fieldForm (mark : Mark) (opcode : Nat) (modRM : ModRM) :
    Every Form.Late (fieldForm mark opcode modRM) := by
  unfold fieldForm
  repeat' split
  all_goals simp

theorem late_maskedStore (setting : Setting) : Every Form.Late (maskedStore setting) := by
  unfold maskedStore
  cases hmark : setting.mark <;> simp [Marked.onEitherFile]

theorem late_transferForm (mark : Mark) (opcode : Nat) (modRM : ModRM) :
    Every Form.Late (transferForm mark opcode modRM) := by
  have hcomparison : Every Form.Late (comparisonForm mark) := every_map _ _ fun _ => ⟨rfl, rfl⟩
  unfold transferForm
  repeat' split
  all_goals simp [hcomparison]

theorem late_entry (setting : Setting) (opcode : Nat) : (entry setting opcode).Late := by
  rw [entry, Entry.late_modRM]
  intro modRM
  repeat' split
  all_goals simp [late_moveForm, late_floatForm, late_shiftForm, late_fieldForm, late_maskedStore,
    late_transferForm]

end Vector

theorem Paired.late_entry : Paired.entry.Late := by
  rw [Paired.entry, Entry.Late, Entry.all_suffixed]
  intro last
  exact late_map_later _ _

namespace ThreeByte

@[simp] theorem late_ifMemory (modRM : ModRM) (h : Every Form.Late choice) :
    Every Form.Late (ifMemory modRM choice) := by
  unfold ifMemory
  split
  · exact h
  · exact every_none

theorem late_cipherForm (mark : Mark) (modRM : ModRM) (round withKey : String) :
    Every Form.Late (cipherForm mark modRM round withKey) := by
  unfold cipherForm
  repeat' split
  all_goals simp

theorem late_singleForm (mark : Mark) (opcode : Nat) (modRM : ModRM) :
    Every Form.Late (singleForm mark opcode modRM) := by
  have hwide : Every Form.Late ((wideCipherName modRM.reg).bind fun name =>
      Marked.only .equal mark (Marked.later name [.memory none])) := by
    cases wideCipherName modRM.reg <;> simp
  unfold singleForm
  repeat' split
  all_goals simp [hwide, late_cipherForm]

theorem late_singleImmediateForm (mark : Mark) (opcode : Nat) (modRM : ModRM) :
    Every Form.Late (singleImmediateForm mark opcode modRM) := by
  unfold singleImmediateForm
  repeat' split
  all_goals simp

theorem late_entry (setting : Setting) (opcode : Nat) : (entry setting opcode).Late := by
  rw [entry, Entry.late_modRM]
  intro modRM
  split <;> simp [late_singleForm]

theorem late_immediateEntry (setting : Setting) (opcode : Nat) :
    (immediateEntry setting opcode).Late := by
  rw [immediateEntry, Entry.late_modRM]
  intro modRM
  dsimp only
  split <;> simp [late_singleImmediateForm]

end ThreeByte

/-! ## The state of the machine -/

namespace Machine

theorem late_singleForm (mark : Mark) (selector : Nat) : Every Form.Late (singleForm mark selector) := by
  unfold singleForm
  repeat' split
  all_goals simp

theorem quiet_selectorGroup : selectorGroup.Quiet := by
  rw [selectorGroup, Entry.quiet_modRM]
  intro modRM
  split <;> simp

theorem quiet_statusGroup (setting : Setting) : (statusGroup setting).Quiet := by
  rw [statusGroup, Entry.quiet_modRM]
  intro modRM
  repeat' split
  all_goals simp [(late_singleForm _ _).quiet]

theorem late_prefetchGroup : prefetchGroup.Late := by
  rw [prefetchGroup, Entry.late_modRM]
  intro modRM
  by_cases hmemory : modRM.isMemory <;> simp [hmemory, hint]

theorem late_cacheHintGroup : cacheHintGroup.Late := by
  rw [cacheHintGroup, Entry.late_modRM]
  intro modRM
  by_cases hmemory : modRM.isMemory <;> simp [hmemory, hint]
  all_goals split <;> simp

theorem late_stateGroup (setting : Setting) : (stateGroup setting).Late := by
  rw [stateGroup, Entry.late_modRM]
  intro modRM
  repeat' split
  all_goals simp

theorem quiet_exchangeGroup (setting : Setting) : (exchangeGroup setting).Quiet := by
  rw [exchangeGroup, Entry.quiet_modRM]
  intro modRM
  repeat' split
  all_goals simp [(late_map_later _ _).quiet]

theorem late_trackingGroup (setting : Setting) : (trackingGroup setting).Late := by
  rw [trackingGroup, Entry.late_modRM]
  intro modRM
  rw [every_some]
  repeat' split
  all_goals simp [hint]

theorem late_demotionGroup (setting : Setting) : (demotionGroup setting).Late := by
  rw [demotionGroup, Entry.late_modRM]
  intro modRM
  rw [every_some]
  split <;> simp [hint]

theorem late_idleGroup : idleGroup.Late := by
  rw [idleGroup, Entry.late_modRM]
  intro modRM
  rw [every_some]
  split <;> simp [hint]

@[simp] theorem late_cipher (name : String) : (cipher name).Late := ⟨rfl, rfl⟩

theorem late_digestGroup (setting : Setting) : (digestGroup setting).Late := by
  rw [digestGroup, Entry.late_modRM]
  intro modRM
  dsimp only
  repeat' split
  all_goals simp

theorem late_cipherGroup (setting : Setting) : (cipherGroup setting).Late := by
  rw [cipherGroup, Entry.late_modRM]
  intro modRM
  repeat' split
  all_goals simp

end Machine

/-! ## Floats -/

namespace Float

theorem quiet_integerMove (extent : Extent) (reg : Fin 8) : Every Form.Quiet (integerMove extent reg) := by
  unfold integerMove
  split <;> simp [fromMemory, toMemory]

theorem quiet_memoryForm (escape reg : Fin 8) : Every Form.Quiet (memoryForm escape reg) := by
  unfold memoryForm
  repeat' split
  all_goals simp [fromMemory, toMemory, onControl, onEnvironment, onState, quiet_integerMove]

@[simp] theorem quiet_bare (name : String) (feature : Feature) : (bare name feature).Quiet := ⟨rfl, .inr rfl⟩

@[simp] theorem quiet_onTop (name : String) (feature : Feature) : (onTop name feature).Quiet := ⟨rfl, .inr rfl⟩

@[simp] theorem quiet_onOther (name : String) : (onOther name).Quiet := ⟨rfl, .inr rfl⟩

@[simp] theorem quiet_storing (name : String) : (storing name).Quiet := ⟨rfl, .inr rfl⟩

theorem quiet_comparing (name : String) (rm : Fin 8) : (comparing name rm).Quiet := by
  unfold comparing
  split <;> simp

theorem quiet_popping (name : String) (rm : Fin 8) : (popping name rm).Quiet := by
  unfold popping
  split <;> simp

theorem quiet_arithmeticForm (reg rm : Fin 8) : (arithmeticForm reg rm).Quiet := by
  unfold arithmeticForm
  dsimp only
  split
  · exact quiet_comparing _ _
  · exact quiet_onTop _ _

theorem quiet_functionForm (number : Nat) : (functionForm number).Quiet := by
  unfold functionForm
  split <;> exact quiet_bare _ _

theorem quiet_constantForm (number : Nat) : Every Form.Quiet (constantForm number) := by
  unfold constantForm
  split <;> simp

theorem quiet_controlForm (rm : Fin 8) : Every Form.Quiet (controlForm rm) := by
  unfold controlForm
  split <;> simp

theorem quiet_conditionalMove (negated : Bool) (reg : Fin 8) :
    Every Form.Quiet (conditionalMove negated reg) :=
  every_map _ _ fun _ => quiet_onTop _ _

theorem quiet_loadForm (reg rm : Fin 8) : Every Form.Quiet (loadForm reg rm) := by
  unfold loadForm
  repeat' split
  all_goals simp [quiet_comparing, quiet_functionForm, quiet_constantForm]

theorem quiet_registerForm (escape reg rm : Fin 8) : Every Form.Quiet (registerForm escape reg rm) := by
  unfold registerForm
  repeat' split
  all_goals simp [quiet_comparing, quiet_popping, quiet_arithmeticForm,
    quiet_controlForm, quiet_conditionalMove, quiet_loadForm]

theorem quiet_entry (opcode : Nat) : (entry opcode).Quiet := by
  rw [entry, Entry.Quiet, Entry.all_modRMOr]
  intro modRM
  change Every Form.Quiet _
  split
  · exact quiet_memoryForm _ _
  · exact quiet_registerForm _ _ _

end Float

end FlowDisasm.X86
