import FlowDisasm.Bytes.Fields

/-!
# What layouts accept

A field accepts the bytes of a word and nothing else, so a layout accepts exactly what is written by its
fields one after the other. Each statement leaves open what is behind the bytes that are taken.
-/
namespace FlowDisasm.Bytes

variable {α β : Type} {bytes rest : List UInt8}

/-- A byte is its own encoding. -/
theorem encode_byte (byte : UInt8) : encode byte = [byte] := by
  change [UInt8.ofNat byte.toNat] = [byte]
  rw [UInt8.ofNat_toNat]

theorem field_eq_some_iff [Word α] {word : α} :
    field bytes = some (word, rest) ↔ bytes = encode word ++ rest := by
  constructor
  · intro h
    unfold field at h
    dsimp only at h
    split at h
    · rename_i hlength
      obtain ⟨rfl, rfl⟩ := Prod.mk.inj (Option.some.inj h)
      rw [encode_decode _ hlength, List.take_append_drop]
    · cases h
  · rintro rfl
    exact field_encode word rest

namespace Layout

theorem bind_eq_some_iff {layout : Layout α} {following : α → Layout β} {value : β} :
    (layout >>= following) bytes = some (value, rest) ↔
      ∃ first between, layout bytes = some (first, between) ∧
        following first between = some (value, rest) := by
  change (layout bytes >>= fun taken => following taken.1 taken.2) = _ ↔ _
  rw [Option.bind_eq_bind, Option.bind_eq_some_iff, Prod.exists]

theorem pure_eq_some_iff {value found : α} :
    (pure value : Layout α) bytes = some (found, rest) ↔ value = found ∧ bytes = rest := by
  change some (value, bytes) = some (found, rest) ↔ _
  rw [Option.some.injEq, Prod.mk.injEq]

/-- A layout takes what is written for a value, and nothing else gives the value. -/
def Spells (layout : Layout α) (written : α → List UInt8) : Prop :=
  ∀ bytes rest value, layout bytes = some (value, rest) ↔ bytes = written value ++ rest

/-- Entries are written one behind the other. -/
theorem Spells.repeat {layout : Layout α} {written : α → List UInt8} (h : layout.Spells written)
    {count : Nat} {entries : List α} :
    (layout.repeat count) bytes = some (entries, rest) ↔
      entries.length = count ∧ bytes = entries.flatMap written ++ rest := by
  induction count generalizing bytes entries rest with
  | zero =>
    rw [Layout.repeat, pure_eq_some_iff, List.length_eq_zero_iff]
    constructor
    · rintro ⟨rfl, rfl⟩
      exact ⟨rfl, rfl⟩
    · rintro ⟨rfl, rfl⟩
      exact ⟨rfl, rfl⟩
  | succ count ih =>
    simp only [Layout.repeat, bind_eq_some_iff, pure_eq_some_iff, h _ _ _, ih]
    constructor
    · rintro ⟨first, between, rfl, others, behind, ⟨hlength, rfl⟩, rfl, rfl⟩
      exact ⟨congrArg Nat.succ hlength, by simp⟩
    · rintro ⟨hlength, rfl⟩
      cases entries with
      | nil => cases hlength
      | cons first others =>
        exact ⟨first, others.flatMap written ++ rest, by simp, others, rest,
          ⟨Nat.succ.inj hlength, rfl⟩, rfl, rfl⟩

/-- What a layout takes is, behind what was taken before it, what is written for its value. -/
def Recovers (layout : Layout α) (before : List UInt8) (written : α → List UInt8) : Prop :=
  ∀ bytes rest value, layout bytes = some (value, rest) → before ++ bytes = written value ++ rest

namespace Recovers

variable {before : List UInt8} {written : α → List UInt8} {first : β → List UInt8}

theorem pure {value : α} (h : before = written value) : (Pure.pure value : Layout α).Recovers before written := by
  intro bytes rest found hfound
  obtain ⟨rfl, rfl⟩ := pure_eq_some_iff.mp hfound
  rw [h]

theorem bind {layout : Layout β} {following : β → Layout α} (h : layout.Spells first)
    (hnext : ∀ entry, (following entry).Recovers (before ++ first entry) written) :
    (layout >>= following).Recovers before written := by
  intro bytes rest value hvalue
  obtain ⟨entry, between, hentry, hbetween⟩ := bind_eq_some_iff.mp hvalue
  rw [(h _ _ _).mp hentry, ← List.append_assoc]
  exact hnext entry between rest value hbetween

/-- A layout that reads back what is written spells it, if it takes nothing but that. -/
theorem spells {layout : Layout α} (h : layout.Recovers [] written)
    (hwritten : ∀ value rest, layout (written value ++ rest) = some (value, rest)) : layout.Spells written :=
  fun bytes rest value => ⟨h bytes rest value, fun hbytes => hbytes ▸ hwritten value rest⟩

end Recovers

theorem field_spells [Word α] : Spells (field : Layout α) encode :=
  fun _ _ _ => field_eq_some_iff

theorem repeat_field_eq_some_iff [Word α] {count : Nat} {words : List α} :
    (Layout.repeat field count) bytes = some (words, rest) ↔
      words.length = count ∧ bytes = words.flatMap encode ++ rest :=
  field_spells.repeat

theorem length_of_repeat {layout : Layout α} {count : Nat} {entries : List α}
    (h : (layout.repeat count) bytes = some (entries, rest)) : entries.length = count := by
  induction count generalizing bytes entries rest with
  | zero =>
    rw [Layout.repeat, pure_eq_some_iff] at h
    rw [← h.1, List.length_nil]
  | succ count ih =>
    simp only [Layout.repeat, bind_eq_some_iff, pure_eq_some_iff] at h
    obtain ⟨first, between, -, others, behind, hothers, rfl, -⟩ := h
    rw [List.length_cons, ih hothers]

theorem length_of_read?_repeat {layout : Layout α} {count : Nat} {entries : List α}
    (h : (layout.repeat count).read? bytes = some entries) : entries.length = count := by
  rw [read?, Option.map_eq_some_iff] at h
  obtain ⟨⟨found, rest⟩, hfound, rfl⟩ := h
  exact length_of_repeat hfound

/-! ## Layouts of a fixed size -/

/-- A layout accepts any bytes if there are enough of them, and takes a fixed number. -/
def Accepts (layout : Layout α) (count : Nat) : Prop :=
  ∀ bytes : List UInt8, count ≤ bytes.length →
    ∃ value rest, layout bytes = some (value, rest) ∧ bytes.length = count + rest.length

namespace Accepts

variable {layout : Layout α} {following : α → Layout β} {count more : Nat}

theorem pure (value : α) : Accepts (Pure.pure value : Layout α) 0 :=
  fun bytes _ => ⟨value, bytes, rfl, (Nat.zero_add _).symm⟩

theorem bind (h : layout.Accepts count) (hnext : ∀ value, (following value).Accepts more) :
    (layout >>= following).Accepts (count + more) := by
  intro bytes hbytes
  obtain ⟨first, between, hfirst, hbetween⟩ := h bytes (by omega)
  obtain ⟨value, rest, hvalue, hrest⟩ := hnext first between (by omega)
  exact ⟨value, rest, bind_eq_some_iff.mpr ⟨first, between, hfirst, hvalue⟩, by omega⟩

theorem field [Word α] : Accepts (field : Layout α) (Word.width α) := by
  intro bytes hbytes
  have hlength : (bytes.take (Word.width α)).length = Word.width α := by
    rw [List.length_take, Nat.min_eq_left hbytes]
  refine ⟨decode (bytes.take (Word.width α)), bytes.drop (Word.width α), ?_, ?_⟩
  · rw [field_eq_some_iff, encode_decode _ hlength, List.take_append_drop]
  · rw [List.length_drop]
    omega

/-- Fields are taken from the number of bytes one by one. -/
theorem field_bind [Word α] {next : α → Layout β} (hwidth : Word.width α ≤ count)
    (h : ∀ word, (next word).Accepts (count - Word.width α)) :
    (Bytes.field >>= next).Accepts count := by
  have hbind := field.bind h
  rwa [Nat.add_sub_cancel' hwidth] at hbind

theorem entries (h : layout.Accepts count) (times : Nat) :
    (layout.repeat times).Accepts (count * times) := by
  induction times with
  | zero => exact pure []
  | succ times ih =>
    rw [Nat.mul_succ, Nat.add_comm (count * times)]
    exact h.bind fun entry => ih.bind fun rest => pure (entry :: rest)

end Accepts

end Layout

end FlowDisasm.Bytes
