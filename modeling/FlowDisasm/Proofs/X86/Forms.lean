import FlowDisasm.X86.Displacement
import FlowDisasm.X86.Opcode

/-!
# Every operation has a form

Whatever bytes a decoding meets, an operation that it finds was made from a form of one of the opcode
tables, with an operand for each of the form's slots. So what holds of all forms of the tables holds of
all operations. The bytes of an operation are its marks, its opcode, what its addressing takes, and those of
its operands.
-/
namespace FlowDisasm.X86

namespace Decoding

variable {α β : Type} {decoding : Decoding α} {value : α} {start : Nat} {bytes : List UInt8}

/-- A decoding finds a value in bytes of which it takes each one. -/
inductive Reads : Decoding α → List UInt8 → α → Prop
  | done {value : α} : Reads (done value) [] value
  | next {read : UInt8 → Decoding α} {byte : UInt8} {rest : List UInt8} {value : α}
      (h : Reads (read byte) rest value) : Reads (next read) (byte :: rest) value

theorem reads_of_runFrom (h : decoding.runFrom start bytes = .found value (start + bytes.length)) :
    decoding.Reads bytes value := by
  induction decoding generalizing start bytes with
  | done found =>
    obtain ⟨rfl, htaken⟩ := Outcome.found.inj h
    obtain rfl : bytes = [] := List.length_eq_zero_iff.mp (by omega)
    exact .done
  | undefined => cases h
  | next read ih =>
    cases bytes with
    | nil => cases h
    | cons first rest =>
      rw [List.length_cons, Nat.add_comm rest.length, ← Nat.add_assoc] at h
      exact .next (ih first h)

theorem reads_of_run (h : decoding.run bytes = .found value bytes.length) :
    decoding.Reads bytes value :=
  reads_of_runFrom (by rwa [Nat.zero_add])

@[simp] theorem reads_pure {found : α} :
    (pure found : Decoding α).Reads bytes value ↔ bytes = [] ∧ value = found := by
  constructor
  · intro h
    cases h
    exact ⟨rfl, rfl⟩
  · rintro ⟨rfl, rfl⟩
    exact .done

theorem reads_bind {following : α → Decoding β} {value : β} :
    (decoding >>= following).Reads bytes value ↔
      ∃ front back found, bytes = front ++ back ∧ decoding.Reads front found ∧
        (following found).Reads back value := by
  constructor
  · intro h
    induction decoding generalizing bytes with
    | done found => exact ⟨[], bytes, found, rfl, .done, h⟩
    | undefined => cases h
    | next read ih =>
      cases h with
      | @next _ byte rest _ hread =>
        obtain ⟨front, back, found, rfl, hfound, hfollowing⟩ := ih byte hread
        exact ⟨byte :: front, back, found, rfl, .next hfound, hfollowing⟩
  · rintro ⟨front, back, found, rfl, hfound, hfollowing⟩
    induction hfound with
    | done => exact hfollowing
    | next hread ih => exact .next (ih hfollowing)

theorem reads_byte {found : UInt8} : byte.Reads bytes found ↔ bytes = [found] := by
  constructor
  · rintro (_ | ⟨⟨⟩⟩)
    rfl
  · rintro rfl
    exact .next .done

/-- A decoding that starts with a byte takes it. -/
theorem reads_byte_bind {following : UInt8 → Decoding β} {value : β} :
    (byte >>= following).Reads bytes value ↔
      ∃ first rest, bytes = first :: rest ∧ (following first).Reads rest value := by
  rw [reads_bind]
  constructor
  · rintro ⟨front, back, found, rfl, hfound, hfollowing⟩
    obtain rfl := reads_byte.mp hfound
    exact ⟨found, back, rfl, hfollowing⟩
  · rintro ⟨first, rest, rfl, hfollowing⟩
    exact ⟨[first], rest, first, rfl, reads_byte.mpr rfl, hfollowing⟩

theorem reads_bytes {count : Nat} {found : List UInt8} (h : (Decoding.bytes count).Reads bytes found) :
    bytes = found ∧ bytes.length = count := by
  induction count generalizing bytes found with
  | zero =>
    obtain ⟨rfl, rfl⟩ := reads_pure.mp h
    exact ⟨rfl, rfl⟩
  | succ count ih =>
    obtain ⟨first, rest, rfl, hrest⟩ := reads_byte_bind.mp h
    obtain ⟨front, back, others, rfl, hothers, hpure⟩ := reads_bind.mp hrest
    obtain ⟨rfl, rfl⟩ := reads_pure.mp hpure
    obtain ⟨rfl, rfl⟩ := ih hothers
    exact ⟨by rw [List.append_nil], by rw [List.append_nil, List.length_cons]⟩

theorem reads_word {ω : Type} [Bytes.Word ω] {found : ω} (h : (word : Decoding ω).Reads bytes found) :
    bytes.length = Bytes.Word.width ω ∧ found = Bytes.decode bytes := by
  obtain ⟨front, back, others, rfl, hothers, hpure⟩ := reads_bind.mp h
  obtain ⟨rfl, rfl⟩ := reads_pure.mp hpure
  obtain ⟨rfl, hlength⟩ := reads_bytes hothers
  rw [List.append_nil]
  exact ⟨hlength, rfl⟩

end Decoding

open Decoding

variable {setting : Setting} {encoding : Encoding} {opcode : UInt8} {modRM : ModRM} {form : Form}
  {operation : Operation} {entry : Entry} {bytes : List UInt8}

/-! ## From operations to forms -/

def Form.made (form : Form) (setting : Setting) (encoding : Encoding)
    (operands : List (Slot × Operand)) : Operation where
  words := form.words setting encoding.reference.isSome
  mnemonic := form.mnemonic setting operands
  far := form.has .far
  flow := form.flow
  era := form.eraIn setting
  targetWidth := form.targetWidth setting
  operands := (operands.filter (·.1.isListed)).map (·.2)
  shown := form.shown operands

theorem Form.reads_read (h : (form.read setting encoding).Reads bytes operation) :
    ∃ operands, (Slot.readAll setting encoding form.slots).Reads bytes operands ∧
      operation = form.made setting encoding operands := by
  obtain ⟨front, back, operands, rfl, hoperands, hmade⟩ := reads_bind.mp h
  dsimp only at hmade
  split at hmade
  · cases hmade
  · obtain ⟨rfl, rfl⟩ := reads_pure.mp hmade
    rw [List.append_nil]
    exact ⟨operands, hoperands, rfl⟩

theorem Form.reads_readSelected (h : (form.readSelected setting opcode modRM).Reads bytes operation) :
    ∃ encoding rest, (form.read setting encoding).Reads rest operation := by
  unfold Form.readSelected at h
  split at h
  · exact ⟨_, bytes, h⟩
  · split at h
    · obtain ⟨_, _, found, -, -, hrefused⟩ := reads_bind.mp h
      cases hrefused
    · obtain ⟨_, rest, reference, -, -, hread⟩ := reads_bind.mp h
      exact ⟨_, rest, hread⟩

/-- The forms of which an entry chooses one by a byte behind the opcode. -/
inductive Entry.Chooses : Entry → Form → Prop
  | modRM {choose : ModRM → Option Form} {modRM : ModRM} {form : Form}
      (h : choose modRM = some form) : Chooses (.modRM choose) form
  | registers {choose : ModRM → Option Form} {modRM : ModRM} {form : Form}
      (h : choose modRM = some form) : Chooses (.registers choose) form
  | modRMOr {choose : ModRM → Option Form} {remainder : ModRM → Remainder} {modRM : ModRM}
      {form : Form} (h : choose modRM = some form) : Chooses (.modRMOr choose remainder) form
  | suffixed {choose : UInt8 → Option Form} {last : UInt8} {form : Form}
      (h : choose last = some form) : Chooses (.suffixed choose) form

/-- What is refused yields nothing. -/
theorem Remainder.not_reads (setting : Setting) (remainder : Remainder) :
    ¬(remainder.read setting).Reads bytes operation := by
  intro h
  cases remainder with
  | bytes count =>
    obtain ⟨_, _, taken, -, -, hrefused⟩ := reads_bind.mp h
    cases hrefused
  | addressed count =>
    obtain ⟨_, _, taken, -, -, hbyte⟩ := reads_bind.mp h
    obtain ⟨byte, _, -, hmemory⟩ := reads_byte_bind.mp hbyte
    dsimp only at hmemory
    split at hmemory
    · obtain ⟨_, _, reference, -, -, hrefused⟩ := reads_bind.mp hmemory
      cases hrefused
    · cases hmemory

theorem reads_readSuffixed {reference : Option Reference} {choose : UInt8 → Option Form}
    (h : (readSuffixed setting opcode modRM reference choose).Reads bytes operation) :
    ∃ last form encoding rest, choose last = some form ∧
      (form.read setting encoding).Reads rest operation := by
  obtain ⟨last, rest, -, hform⟩ := reads_byte_bind.mp h
  cases hchoose : choose last with
  | none =>
    rw [hchoose] at hform
    cases hform
  | some form =>
    rw [hchoose] at hform
    exact ⟨last, form, _, rest, hchoose, hform⟩

/-- An operation of an entry is made from its only form, with all bytes behind the opcode, or from one that
a byte there chooses. -/
theorem Entry.reads_read (h : (entry.read setting opcode).Reads bytes operation) :
    (∃ form encoding, entry = .plain form ∧ (form.read setting encoding).Reads bytes operation) ∨
      ∃ form encoding rest, entry.Chooses form ∧ (form.read setting encoding).Reads rest operation := by
  cases entry with
  | plain form => exact .inl ⟨form, _, rfl, h⟩
  | modRM choose =>
    obtain ⟨byte, _, -, hform⟩ := reads_byte_bind.mp h
    dsimp only at hform
    split at hform
    · cases hform
    · rename_i form hchoose
      obtain ⟨encoding, rest, hread⟩ := Form.reads_readSelected hform
      exact .inr ⟨form, encoding, rest, .modRM hchoose, hread⟩
  | registers choose =>
    obtain ⟨byte, rest, -, hform⟩ := reads_byte_bind.mp h
    dsimp only at hform
    split at hform
    · cases hform
    · rename_i form hchoose
      exact .inr ⟨form, _, rest, .registers hchoose, hform⟩
  | modRMOr choose remainder =>
    obtain ⟨byte, _, -, hform⟩ := reads_byte_bind.mp h
    dsimp only at hform
    split at hform
    · exact absurd hform (Remainder.not_reads _ _)
    · rename_i form hchoose
      obtain ⟨encoding, rest, hread⟩ := Form.reads_readSelected hform
      exact .inr ⟨form, encoding, rest, .modRMOr hchoose, hread⟩
  | suffixed choose =>
    obtain ⟨byte, _, -, hform⟩ := reads_byte_bind.mp h
    dsimp only at hform
    split at hform
    · obtain ⟨_, _, reference, -, -, hsuffixed⟩ := reads_bind.mp hform
      obtain ⟨last, form, encoding, rest, hchoose, hread⟩ := reads_readSuffixed hsuffixed
      exact .inr ⟨form, encoding, rest, .suffixed hchoose, hread⟩
    · obtain ⟨last, form, encoding, rest, hchoose, hread⟩ := reads_readSuffixed hform
      exact .inr ⟨form, encoding, rest, .suffixed hchoose, hread⟩
  | undefined count => exact absurd h (Remainder.not_reads setting (.bytes count))

/-- The entries of the opcode tables, with the bytes that select them. -/
inductive Tabled : List UInt8 → Entry → Prop
  | oneByte (setting : Setting) (opcode : UInt8) : Tabled [opcode] (OneByte.entry setting opcode.toNat)
  | float (opcode : UInt8) : Tabled [opcode] (Float.entry opcode.toNat)
  | twoByte (setting : Setting) (opcode : UInt8) :
      Tabled [0x0F, opcode] (TwoByte.entry setting opcode.toNat)
  | threeByte (setting : Setting) (opcode : UInt8) :
      Tabled [0x0F, 0x38, opcode] (ThreeByte.entry setting opcode.toNat)
  | immediate (setting : Setting) (opcode : UInt8) :
      Tabled [0x0F, 0x3A, opcode] (ThreeByte.immediateEntry setting opcode.toNat)

theorem reads_readEscaped (h : (readEscaped setting).Reads bytes operation) :
    ∃ code rest opcode entry, Tabled (0x0F :: code) entry ∧ bytes = code ++ rest ∧
      (entry.read setting opcode).Reads rest operation := by
  obtain ⟨second, behind, rfl, hentry⟩ := reads_byte_bind.mp h
  split at hentry
  · rename_i hescape
    obtain ⟨opcode, rest, rfl, hthree⟩ := reads_byte_bind.mp hentry
    subst hescape
    exact ⟨[0x38, opcode], rest, opcode, _, .threeByte setting opcode, rfl, hthree⟩
  · split at hentry
    · rename_i hescape
      obtain ⟨opcode, rest, rfl, himmediate⟩ := reads_byte_bind.mp hentry
      subst hescape
      exact ⟨[0x3A, opcode], rest, opcode, _, .immediate setting opcode, rfl, himmediate⟩
    · exact ⟨[second], behind, second, _, .twoByte setting second, rfl, hentry⟩

theorem reads_readOpcode (h : (readOpcode setting opcode).Reads bytes operation) :
    ∃ code rest last entry, Tabled (opcode :: code) entry ∧ bytes = code ++ rest ∧
      (entry.read setting last).Reads rest operation := by
  unfold readOpcode at h
  split at h
  · rename_i hescape
    subst hescape
    exact reads_readEscaped h
  · split at h
    · exact ⟨[], bytes, opcode, _, .float opcode, rfl, h⟩
    · exact ⟨[], bytes, opcode, _, .oneByte setting opcode, rfl, h⟩

/-! ## Marks -/

/-- The operand size in force behind marks, of which one changes that of the code. -/
def Width.behind (width : Width) (front : List UInt8) : Width :=
  if 0x66 ∈ front then width.other else width

/-- What marks in front of an opcode change. -/
structure Setting.Becomes (setting : Setting) (front : List UInt8) (after : Setting) : Prop where
  marks : ∀ byte ∈ front, byte ∈ X86.marks
  width : after.width = setting.width
  operandMark : after.operandMark = true ↔ setting.operandMark = true ∨ 0x66 ∈ front

theorem marked?_eq_some {byte : UInt8} {after : Setting} (h : setting.marked? byte = some after) :
    setting.Becomes [byte] after := by
  have hbyte : byte = UInt8.ofNat byte.toNat := UInt8.ofNat_toNat.symm
  unfold Setting.marked? at h
  split at h
  case h_12 => cases h
  all_goals
    rename_i hnumber
    rw [hnumber] at hbyte
    subst hbyte
    cases h
    exact ⟨List.forall_mem_singleton.mpr (by decide), rfl, by simp⟩

theorem marked?_eq_none {byte : UInt8} (h : setting.marked? byte = none) : byte ∉ marks := by
  intro hmark
  simp only [marks, List.mem_cons, List.not_mem_nil, or_false] at hmark
  rcases hmark with rfl | rfl | rfl | rfl | rfl | rfl | rfl | rfl | rfl | rfl | rfl
  all_goals cases h

namespace Setting.Becomes

variable {front more : List UInt8} {between after : Setting}

theorem nothing (setting : Setting) : setting.Becomes [] setting where
  marks := List.forall_mem_nil _
  width := rfl
  operandMark := by simp

theorem append (h : setting.Becomes front between) (hmore : between.Becomes more after) :
    setting.Becomes (front ++ more) after where
  marks := List.forall_mem_append.mpr ⟨h.marks, hmore.marks⟩
  width := hmore.width.trans h.width
  operandMark := by rw [hmore.operandMark, h.operandMark, List.mem_append, or_assoc]

/-- The operand size mark changes the operand size, however often it stands there. -/
theorem operandSize {width : Width} (h : Setting.Becomes { width } front after) :
    after.operandSize = width.behind front := by
  have hmark : after.operandMark = true ↔ 0x66 ∈ front := by simpa using h.operandMark
  simp only [Setting.operandSize, Width.behind, hmark, h.width]

/-- The first byte that is no mark is the one behind the marks. -/
theorem opcodeOf? (h : setting.Becomes front after) (hopcode : opcode ∉ X86.marks) (rest : List UInt8) :
    X86.opcodeOf? (front ++ opcode :: rest) = some opcode := by
  have hfront : front.find? (fun byte => !X86.marks.contains byte) = none := by
    rw [List.find?_eq_none]
    intro byte hbyte
    simp [h.marks byte hbyte]
  rw [X86.opcodeOf?, List.find?_append, hfront, Option.none_or]
  exact List.find?_cons_of_pos (by simpa using hopcode)

end Setting.Becomes

theorem reads_readOperation {count : Nat} (h : (readOperation setting count).Reads bytes operation) :
    ∃ front opcode code rest after last entry, bytes = front ++ opcode :: (code ++ rest) ∧
      setting.Becomes front after ∧ opcode ∉ marks ∧ Tabled (opcode :: code) entry ∧
      (entry.read after last).Reads rest operation := by
  induction count generalizing setting bytes with
  | zero => cases h
  | succ count ih =>
    obtain ⟨byte, behind, rfl, hmark⟩ := reads_byte_bind.mp h
    split at hmark
    · rename_i between hbetween
      obtain ⟨front, opcode, code, rest, after, last, entry, rfl, hmarked, hopcode, htabled, hread⟩ :=
        ih hmark
      exact ⟨byte :: front, opcode, code, rest, after, last, entry, rfl,
        (marked?_eq_some hbetween).append hmarked, hopcode, htabled, hread⟩
    · rename_i hnone
      obtain ⟨code, rest, last, entry, htabled, rfl, hread⟩ := reads_readOpcode hmark
      exact ⟨[], byte, code, rest, setting, last, entry, rfl, .nothing setting,
        marked?_eq_none hnone, htabled, hread⟩

/-- The bytes of an operation are its marks, those that select an entry of the tables, and those that the entry
reads. -/
theorem reads_operation {width : Width} (h : (X86.operation width).Reads bytes operation) :
    ∃ front code rest setting last entry, bytes = front ++ code ++ rest ∧
      Setting.Becomes { width } front setting ∧ opcodeOf? bytes = code.head? ∧ Tabled code entry ∧
      (entry.read setting last).Reads rest operation := by
  obtain ⟨front, opcode, code, rest, setting, last, entry, rfl, hmarked, hopcode, htabled, hread⟩ :=
    reads_readOperation h
  refine ⟨front, opcode :: code, rest, setting, last, entry, ?_, hmarked, ?_, htabled, hread⟩
  · rw [List.append_assoc, List.cons_append]
  · exact hmarked.opcodeOf? hopcode (code ++ rest)

end FlowDisasm.X86
