import FlowDisasm.Proofs.Text.Hex
import FlowDisasm.Text.Aligned

/-!
# Plain text

Plain text is made of printable characters, tabs and line feeds. Whatever is put together from plain text is plain,
and so are numbers and bytes in any radix.
-/
namespace FlowDisasm.Text

/-- A character of ASCII that has a shape, or a space. -/
def IsPrintable (c : Char) : Prop :=
  0x20 ≤ c.toNat ∧ c.toNat ≤ 0x7E

instance decidableIsPrintable (c : Char) : Decidable (IsPrintable c) :=
  inferInstanceAs (Decidable (_ ∧ _))

/-- A printable character, a tab or a line feed. -/
def IsPlain (c : Char) : Prop :=
  c = '\t' ∨ c = '\n' ∨ IsPrintable c

instance decidableIsPlain (c : Char) : Decidable (IsPlain c) :=
  inferInstanceAs (Decidable (_ ∨ _))

def Printable (text : String) : Prop :=
  ∀ c ∈ text.toList, IsPrintable c

instance decidablePrintable (text : String) : Decidable (Printable text) :=
  decidable_of_iff (text.toList.all fun c => decide (IsPrintable c)) (by simp [Printable])

def delete : Char := Char.ofNat 0x7F

def Plain (text : String) : Prop :=
  ∀ c ∈ text.toList, IsPlain c

instance decidablePlain (text : String) : Decidable (Plain text) :=
  decidable_of_iff (text.toList.all fun c => decide (IsPlain c)) (by simp [Plain])

variable {first second separator : String} {texts : List String}

@[simp] theorem printable_ofList {characters : List Char} :
    Printable (String.ofList characters) ↔ ∀ c ∈ characters, IsPrintable c := by
  rw [Printable, String.toList_ofList]

@[simp] theorem printable_singleton {c : Char} : Printable (String.singleton c) ↔ IsPrintable c := by
  simp [Printable]

@[simp] theorem printable_append : Printable (first ++ second) ↔ Printable first ∧ Printable second := by
  simp only [Printable, String.toList_append, List.forall_mem_append]

theorem printable_join (h : ∀ text ∈ texts, Printable text) : Printable (String.join texts) := by
  intro c hc
  rw [String.toList_join, List.mem_flatMap] at hc
  obtain ⟨text, htext, hc⟩ := hc
  exact h text htext c hc

theorem plain_of_printable {text : String} (h : Printable text) : Plain text :=
  fun c hc => .inr (.inr (h c hc))

@[simp] theorem plain_ofList {characters : List Char} :
    Plain (String.ofList characters) ↔ ∀ c ∈ characters, IsPlain c := by
  rw [Plain, String.toList_ofList]

@[simp] theorem plain_empty : Plain "" := nofun

@[simp] theorem plain_append : Plain (first ++ second) ↔ Plain first ∧ Plain second := by
  simp only [Plain, String.toList_append, List.forall_mem_append]

theorem plain_join (h : ∀ text ∈ texts, Plain text) : Plain (String.join texts) := by
  intro c hc
  rw [String.toList_join, List.mem_flatMap] at hc
  obtain ⟨text, htext, hc⟩ := hc
  exact h text htext c hc

theorem plain_intercalate (hseparator : Plain separator) (h : ∀ text ∈ texts, Plain text) :
    Plain (separator.intercalate texts) := by
  induction texts with
  | nil => simp
  | cons first texts ih =>
    rw [List.forall_mem_cons] at h
    cases texts with
    | nil => simpa using h.1
    | cons second texts =>
      rw [String.intercalate_cons_cons, plain_append, plain_append]
      exact ⟨⟨h.1, hseparator⟩, ih h.2⟩

/-! ## The control character -/

/-- A text of plain characters and of the control character, which is in it just if something holds. -/
structure PlainBut (P : Prop) (text : String) : Prop where
  characters : ∀ c ∈ text.toList, IsPlain c ∨ c = delete
  delete_iff : delete ∈ text.toList ↔ P

theorem Plain.delete_not_mem {text : String} (h : Plain text) : delete ∉ text.toList :=
  fun hdelete => absurd (h delete hdelete) (by decide)

theorem Plain.but {text : String} (h : Plain text) : PlainBut False text where
  characters c hc := .inl (h c hc)
  delete_iff := iff_false_intro h.delete_not_mem

namespace PlainBut

variable {P Q : Prop}

theorem congr {text : String} (h : PlainBut P text) (hiff : P ↔ Q) : PlainBut Q text where
  characters := h.characters
  delete_iff := h.delete_iff.trans hiff

theorem append (h : PlainBut P first) (hsecond : PlainBut Q second) : PlainBut (P ∨ Q) (first ++ second) where
  characters := by
    rw [String.toList_append, List.forall_mem_append]
    exact ⟨h.characters, hsecond.characters⟩
  delete_iff := by rw [String.toList_append, List.mem_append, h.delete_iff, hsecond.delete_iff]

theorem join {Part : Type} {parts : List Part} {text : Part → String} {P : Part → Prop}
    (h : ∀ part ∈ parts, PlainBut (P part) (text part)) :
    PlainBut (∃ part ∈ parts, P part) (String.join (parts.map text)) := by
  induction parts with
  | nil => exact plain_empty.but.congr (by simp)
  | cons part parts ih =>
    rw [List.forall_mem_cons] at h
    rw [List.map_cons, String.join_cons]
    exact (h.1.append (ih h.2)).congr (by simp)

end PlainBut

/-! ## Columns -/

@[simp] theorem printable_blanks (count : Nat) : Printable (blanks count) := by
  simp only [blanks, printable_ofList, List.mem_replicate]
  rintro c ⟨-, rfl⟩
  decide

@[simp] theorem plain_blanks (count : Nat) : Plain (blanks count) :=
  plain_of_printable (printable_blanks count)

@[simp] theorem printable_aligned {alignment : Alignment} {width : Nat} :
    Printable (aligned alignment width first) ↔ Printable first := by
  cases alignment <;> simp [aligned]

@[simp] theorem plain_aligned {alignment : Alignment} {width : Nat} :
    Plain (aligned alignment width first) ↔ Plain first := by
  cases alignment <;> simp [aligned]

/-! ## Numbers -/

theorem isPrintable_of_mem_capitalDigits {c : Char} (h : c ∈ capitalDigits) : IsPrintable c := by
  have hall : Printable "0123456789ABCDEF" := by decide
  exact hall c h

theorem isPrintable_of_mem_smallDigits {c : Char} (h : c ∈ smallDigits) : IsPrintable c := by
  have hall : Printable "0123456789abcdef" := by decide
  exact hall c h

theorem isPrintable_toDigits {radix value : Nat} {c : Char} (htwo : 1 < radix) (hradix : radix ≤ 16)
    (h : c ∈ Nat.toDigits radix value) : IsPrintable c := by
  have hall : ∀ digit : Fin 16, IsPrintable (Nat.digitChar digit.val) := by decide
  have hdigit {digit : Nat} (hless : digit < radix) : IsPrintable (Nat.digitChar digit) :=
    hall ⟨digit, Nat.lt_of_lt_of_le hless hradix⟩
  induction value using Nat.strongRecOn with
  | ind value ih =>
    by_cases hsmall : value < radix
    · rw [Nat.toDigits_of_lt_base hsmall, List.mem_singleton] at h
      exact h ▸ hdigit hsmall
    · rw [Nat.toDigits_of_base_le htwo (Nat.le_of_not_lt hsmall), List.mem_append, List.mem_singleton] at h
      rcases h with hfront | rfl
      · exact ih (value / radix) (Nat.div_lt_self (by omega) htwo) hfront
      · exact hdigit (Nat.mod_lt value (by omega))

@[simp] theorem plain_repr (value : Nat) : Plain value.repr := by
  apply plain_of_printable
  rw [Nat.repr, printable_ofList]
  exact fun c hc => isPrintable_toDigits (by decide) (by decide) hc

@[simp] theorem plain_hex (value : Nat) : Plain (hex value) := by
  apply plain_of_printable
  rw [hex, printable_ofList]
  exact fun c hc => isPrintable_of_mem_capitalDigits (mem_capitalDigits_of_mem_hexDigits hc)

@[simp] theorem printable_hexPadded (width value : Nat) : Printable (hexPadded width value) :=
  fun _ hc => isPrintable_of_mem_capitalDigits (mem_capitalDigits_of_mem_hexPadded hc)

@[simp] theorem plain_hexPadded (width value : Nat) : Plain (hexPadded width value) :=
  plain_of_printable (printable_hexPadded width value)

@[simp] theorem plain_hexLiteral (value : Nat) : Plain (hexLiteral value) :=
  plain_append.mpr ⟨by decide, plain_hex value⟩

/-! ## Bytes -/

@[simp] theorem printable_hexByte (byte : UInt8) : Printable (hexByte byte) := by
  intro c hc
  rw [hexByte_toList] at hc
  exact isPrintable_of_mem_capitalDigits (mem_capitalDigits_of_mem_byteDigits hc)

@[simp] theorem plain_hexByte (byte : UInt8) : Plain (hexByte byte) :=
  plain_of_printable (printable_hexByte byte)

@[simp] theorem printable_joinedBytes (bytes : List UInt8) : Printable (joinedBytes bytes) := by
  apply printable_join
  intro text htext
  obtain ⟨byte, -, rfl⟩ := List.mem_map.mp htext
  exact printable_hexByte byte

@[simp] theorem plain_joinedBytes (bytes : List UInt8) : Plain (joinedBytes bytes) :=
  plain_of_printable (printable_joinedBytes bytes)

end FlowDisasm.Text
