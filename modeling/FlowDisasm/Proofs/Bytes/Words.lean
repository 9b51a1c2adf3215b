import FlowDisasm.Proofs.Bytes.Fields
import FlowDisasm.Proofs.Bytes.Overlay
import Mathlib.Data.List.OfFn

/-!
# Words in a row

A range is made of its parts, so words in a row are read as a whole if and only if each of them is read at its
own place.
-/
namespace FlowDisasm.Bytes

variable {α : Type} [Word α] {data : Array UInt8} {start first second count : Nat}
  {front back : List UInt8} {word : α} {words : List α}

/-- A range is its front with the rest behind it. -/
theorem range?_append (hfront : front.length = first) :
    range? data start (first + second) = some (front ++ back) ↔
      range? data start first = some front ∧ range? data (start + first) second = some back := by
  simp only [range?_eq_some_iff, List.length_append, hfront]
  constructor
  · rintro ⟨hfit, hlength, hbytes⟩
    refine ⟨⟨by omega, trivial, fun index hindex => ?_⟩, by omega, by omega, fun index hindex => ?_⟩
    · rw [hbytes index (by omega), List.getElem?_append_left (by omega)]
    · rw [Nat.add_assoc, hbytes (first + index) (by omega), List.getElem?_append_right (by omega),
        hfront, Nat.add_sub_cancel_left]
  · rintro ⟨⟨-, -, hbytes⟩, hfit, hlength, hbehind⟩
    refine ⟨by omega, by omega, fun index hindex => ?_⟩
    by_cases hin : index < first
    · rw [hbytes index hin, List.getElem?_append_left (by omega)]
    · obtain ⟨distance, rfl⟩ : ∃ distance, index = first + distance := ⟨index - first, by omega⟩
      rw [← Nat.add_assoc, hbehind distance (by omega), List.getElem?_append_right (by omega),
        hfront, Nat.add_sub_cancel_left]

theorem read?_eq_some_iff :
    read? data start = some word ↔ range? data start (Word.width α) = some (encode word) := by
  rw [read?, Option.map_eq_some_iff]
  constructor
  · rintro ⟨bytes, hbytes, rfl⟩
    rw [hbytes, encode_decode bytes (length_of_range? hbytes)]
  · intro h
    exact ⟨_, h, decode_encode word⟩

theorem read?_eq_none_iff : (read? data start : Option α) = none ↔ data.size < start + Word.width α := by
  rw [read?, Option.map_eq_none_iff, range?_eq_none_iff]

/-- A single byte is read at its place. -/
theorem read?_byte (data : Array UInt8) (start : Nat) : (read? data start : Option UInt8) = data[start]? := by
  ext byte
  have hwidth : Word.width UInt8 = 1 := rfl
  rw [read?_eq_some_iff, encode_byte, hwidth, range?_eq_some_iff]
  constructor
  · rintro ⟨-, -, hbyte⟩
    exact hbyte 0 Nat.one_pos
  · intro hbyte
    obtain ⟨hfits, -⟩ := Array.getElem?_eq_some_iff.mp hbyte
    refine ⟨hfits, rfl, fun index hindex => ?_⟩
    obtain rfl := Nat.lt_one_iff.mp hindex
    exact hbyte

theorem length_flatMap_written {β : Type} {written : β → List UInt8} {size : Nat}
    (hsize : ∀ entry, (written entry).length = size) (entries : List β) :
    (entries.flatMap written).length = size * entries.length := by
  induction entries with
  | nil => rfl
  | cons entry entries ih =>
    rw [List.flatMap_cons, List.length_append, hsize, ih, List.length_cons, Nat.mul_succ,
      Nat.add_comm]

/-- Words in a row stand one behind the other. -/
theorem range?_words_iff :
    range? data start (Word.width α * words.length) = some (words.flatMap encode) ↔
      start ≤ data.size ∧
        ∀ index word, words[index]? = some word →
          read? data (start + Word.width α * index) = some word := by
  induction words generalizing start with
  | nil => simp [range?_eq_some_iff]
  | cons first words ih =>
    rw [List.length_cons, Nat.mul_succ, Nat.add_comm, List.flatMap_cons,
      range?_append (length_encode first), ← read?_eq_some_iff, ih]
    constructor
    · rintro ⟨hfirst, hfit, hrest⟩
      refine ⟨by omega, fun index word hword => ?_⟩
      cases index with
      | zero =>
        obtain rfl := Option.some.inj hword
        exact hfirst
      | succ index =>
        have hplace : start + Word.width α * (index + 1) =
            start + Word.width α + Word.width α * index := by rw [Nat.mul_succ]; omega
        rw [hplace]
        exact hrest index word hword
    · rintro ⟨-, hwords⟩
      have hfirst := hwords 0 first rfl
      rw [Nat.mul_zero, Nat.add_zero] at hfirst
      have hfit := (range?_eq_some_iff.mp (read?_eq_some_iff.mp hfirst)).1
      refine ⟨hfirst, hfit, fun index word hword => ?_⟩
      have hplace : start + Word.width α + Word.width α * index =
          start + Word.width α * (index + 1) := by rw [Nat.mul_succ]; omega
      rw [hplace]
      exact hwords (index + 1) word hword

/-- What a layout accepts is read wherever there are enough bytes. -/
theorem Layout.Accepts.read?_isSome_iff {β : Type} {layout : Layout β} (h : layout.Accepts count) :
    (∃ value, (range? data start count).bind layout.read? = some value) ↔
      start + count ≤ data.size := by
  constructor
  · rintro ⟨value, hvalue⟩
    obtain ⟨bytes, hbytes, -⟩ := Option.bind_eq_some_iff.mp hvalue
    exact (range?_eq_some_iff.mp hbytes).1
  · intro hfits
    obtain ⟨bytes, hbytes⟩ := range?_isSome hfits
    obtain ⟨value, rest, hvalue, -⟩ := h bytes (length_of_range? hbytes).ge
    refine ⟨value, Option.bind_eq_some_iff.mpr ⟨bytes, hbytes, ?_⟩⟩
    rw [Layout.read?, hvalue]
    rfl

/-- The entries of a table of fixed size are those whose bytes make it up. -/
theorem Layout.Spells.bind_repeat_eq_some_iff {β : Type} {layout : Layout β} {written : β → List UInt8}
    {size : Nat} {entries : List β} (h : layout.Spells written)
    (hsize : ∀ entry, (written entry).length = size) :
    ((range? data start (size * count)).bind (layout.repeat count).read?) = some entries ↔
      entries.length = count ∧ range? data start (size * count) = some (entries.flatMap written) := by
  simp only [Option.bind_eq_some_iff, Layout.read?, Option.map_eq_some_iff, Prod.exists, h.repeat,
    exists_and_right, exists_eq_right]
  constructor
  · rintro ⟨bytes, hbytes, rest, hlength, rfl⟩
    refine ⟨hlength, ?_⟩
    have hall := length_of_range? hbytes
    rw [List.length_append, length_flatMap_written hsize, hlength] at hall
    obtain rfl : rest = [] := List.eq_nil_of_length_eq_zero (by omega)
    rw [hbytes, List.append_nil]
  · rintro ⟨hlength, hbytes⟩
    exact ⟨_, hbytes, [], hlength, (List.append_nil _).symm⟩

/-- The fields of a row of words are the words of the row. -/
theorem bind_repeat_eq_some_iff : ((range? data start (Word.width α * count)).bind
      (Layout.repeat field count).read?) = some words ↔
    words.length = count ∧
      range? data start (Word.width α * count) = some (words.flatMap encode) :=
  Layout.field_spells.bind_repeat_eq_some_iff length_encode

/-- Words that can be read one by one are in a row. -/
theorem exists_words (h : ∀ index < count, ∃ word : α,
      read? data (start + Word.width α * index) = some word) :
    ∃ words : List α, words.length = count ∧ ∀ index word, words[index]? = some word →
      read? data (start + Word.width α * index) = some word := by
  choose word hword using h
  refine ⟨List.ofFn fun index : Fin count => word index index.isLt, List.length_ofFn, ?_⟩
  intro index found hfound
  obtain ⟨hindex, rfl⟩ := List.getElem?_eq_some_iff.mp hfound
  rw [List.getElem_ofFn]
  exact hword index _

end FlowDisasm.Bytes
