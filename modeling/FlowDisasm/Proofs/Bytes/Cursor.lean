import FlowDisasm.Bytes.Cursor
import FlowDisasm.Proofs.Bytes.Words
import Mathlib.Data.List.Basic

/-!
# What actions on a cursor take

A cursor stands between the bytes that were read and those that are left. An action takes bytes if it finds
its value in them wherever they stand and whatever is behind them, and leaves the cursor behind them. What
actions take in a row, they take one after the other. The other way round, an action that succeeds went over the
bytes of what it found.
-/
namespace FlowDisasm.Bytes

/-- A text of at most 255 Latin-1 characters. -/
structure ShortText where
  text : String
  latin : ∀ character ∈ text.toList, character.toNat < 256
  short : text.toList.length < 256

namespace ShortText

def characters (name : ShortText) : List UInt8 :=
  name.text.toList.map fun character => UInt8.ofNat character.toNat

def bytes (name : ShortText) : List UInt8 :=
  UInt8.ofNat name.text.toList.length :: name.characters

theorem length_bytes_le (name : ShortText) : name.bytes.length ≤ 256 := by
  rw [bytes, List.length_cons, characters, List.length_map]
  exact name.short

/-- The characters of a text are read back from their bytes. -/
theorem ofList_characters (name : ShortText) :
    String.ofList (name.characters.map fun byte => Char.ofNat byte.toNat) = name.text := by
  have hback (character : Char) (h : character ∈ name.text.toList) :
      Char.ofNat (UInt8.ofNat character.toNat).toNat = character := by
    rw [UInt8.toNat_ofNat_of_lt' (name.latin character h), Char.ofNat_toNat]
  rw [characters, List.map_map]
  refine (congrArg String.ofList ?_).trans String.ofList_toList
  exact (List.map_congr_left hback).trans (List.map_id _)

theorem toNat_ofNat_byte (byte : UInt8) : (Char.ofNat byte.toNat).toNat = byte.toNat := by
  have hvalid : byte.toNat.isValidChar := .inl (Nat.lt_trans byte.toNat_lt (by decide))
  rw [Char.ofNat, dif_pos hvalid]
  rfl

def ofBytes (bytes : List UInt8) (h : bytes.length < 256) : ShortText where
  text := String.ofList (bytes.map fun byte => Char.ofNat byte.toNat)
  latin := by
    intro character hmem
    rw [String.toList_ofList, List.mem_map] at hmem
    obtain ⟨byte, -, rfl⟩ := hmem
    rw [toNat_ofNat_byte]
    exact byte.toNat_lt
  short := by rwa [String.toList_ofList, List.length_map]

/-- The text of bytes is written as these bytes. -/
theorem bytes_ofBytes (bytes : List UInt8) (h : bytes.length < 256) :
    (ofBytes bytes h).bytes = UInt8.ofNat bytes.length :: bytes := by
  have hcharacters : (ofBytes bytes h).characters = bytes := by
    rw [characters, ofBytes, String.toList_ofList, List.map_map]
    refine (List.map_congr_left fun byte _ => ?_).trans (List.map_id _)
    rw [Function.comp_apply, toNat_ofNat_byte, UInt8.ofNat_toNat, id]
  rw [ShortText.bytes, hcharacters, ofBytes, String.toList_ofList, List.length_map]

end ShortText

namespace Cursor

variable {α β : Type} {action : Action α} {taken more : List UInt8} {value : α}

/-! ## What actions do -/

theorem run_bind (action : Action α) (next : α → Action β) (cursor : Cursor) :
    (action >>= next).run cursor =
      match action.run cursor with
      | (.ok value, after) => (next value).run after
      | (.error error, after) => (.error error, after) := by
  change (match action.run cursor with
    | (result, after) => (ExceptT.bindCont next result : StateM Cursor _) after) = _
  rcases action.run cursor with ⟨result, after⟩
  cases result <;> rfl

theorem run_get (cursor : Cursor) : (get : Action Cursor).run cursor = (.ok cursor, cursor) := rfl

theorem run_seek (position : Nat) (cursor : Cursor) : (seek position).run cursor =
    if position ≤ cursor.data.size then (.ok (), { cursor with position })
    else (.error .outOfBounds, cursor) := by
  simp only [seek, run_bind, run_get]
  split <;> rfl

theorem run_endPosition (count : Nat) (cursor : Cursor) : (endPosition count).run cursor =
    if cursor.position + count ≤ cursor.data.size then (.ok (cursor.position + count), cursor)
    else (.error .outOfBounds, cursor) := by
  simp only [endPosition, run_bind, run_get]
  split <;> rfl

theorem run_skip (count : Nat) (cursor : Cursor) : (skip count).run cursor =
    if cursor.position + count ≤ cursor.data.size then
      (.ok (), { cursor with position := cursor.position + count })
    else (.error .outOfBounds, cursor) := by
  simp only [skip, run_bind, run_endPosition]
  by_cases hfits : cursor.position + count ≤ cursor.data.size
  · rw [if_pos hfits, if_pos hfits]
    rfl
  · rw [if_neg hfits, if_neg hfits]

theorem run_peek [Word α] (cursor : Cursor) : (peek : Action α).run cursor =
    match read? cursor.data cursor.position with
    | some word => (.ok word, cursor)
    | none => (.error .outOfBounds, cursor) := by
  simp only [peek, run_bind, run_get]
  cases (read? cursor.data cursor.position : Option α) <;> rfl

theorem run_word [Word α] (cursor : Cursor) : (word : Action α).run cursor =
    match read? cursor.data cursor.position with
    | some word => (.ok word, { cursor with position := cursor.position + Word.width α })
    | none => (.error .outOfBounds, cursor) := by
  simp only [word, run_bind, run_peek]
  cases (read? cursor.data cursor.position : Option α) <;> rfl

theorem run_bytes (count : Nat) (cursor : Cursor) : (bytes count).run cursor =
    match range? cursor.data cursor.position count with
    | some bytes => (.ok bytes, { cursor with position := cursor.position + count })
    | none => (.error .outOfBounds, cursor) := by
  simp only [bytes, run_bind, run_get]
  cases range? cursor.data cursor.position count <;> rfl

theorem run_text (cursor : Cursor) : text.run cursor =
    match (read? cursor.data cursor.position : Option UInt8) with
    | some length =>
      match range? cursor.data (cursor.position + 1) length.toNat with
      | some characters =>
        (.ok (String.ofList (characters.map fun byte => Char.ofNat byte.toNat)),
          { cursor with position := cursor.position + 1 + length.toNat })
      | none => (.error .outOfBounds, { cursor with position := cursor.position + 1 })
    | none => (.error .outOfBounds, cursor) := by
  simp only [text, run_bind, run_word]
  cases (read? cursor.data cursor.position : Option UInt8) with
  | none => rfl
  | some length =>
    dsimp only
    rw [run_bytes]
    cases range? cursor.data (cursor.position + 1) length.toNat <;> rfl

/-! ## What actions take -/

def between (before behind : List UInt8) : Cursor where
  data := (before ++ behind).toArray
  position := before.length

theorem position_between (before behind : List UInt8) :
    (between before behind).position = before.length := rfl

theorem size_between (before behind : List UInt8) :
    (between before behind).data.size = before.length + behind.length := by
  rw [between, List.size_toArray, List.length_append]

/-- The cursor between bytes, moved on over the first of those behind it. -/
theorem moved_between (before taken behind : List UInt8) :
    { between before (taken ++ behind) with position := before.length + taken.length } =
      between (before ++ taken) behind := by
  rw [between, between, List.append_assoc, List.length_append]

theorem range?_between (before taken behind : List UInt8) :
    range? (between before (taken ++ behind)).data before.length taken.length = some taken := by
  have hfits : before.length + taken.length ≤ (between before (taken ++ behind)).data.size := by
    rw [size_between, List.length_append]
    omega
  rw [range?, if_pos hfits, between, Array.toList_extract, List.extract_eq_take_drop,
    Nat.add_sub_cancel_left, List.drop_left, List.take_left]

theorem read?_between [Word α] (before behind : List UInt8) (h : taken.length = Word.width α) :
    read? (between before (taken ++ behind)).data before.length = some (decode taken : α) := by
  rw [read?, ← h, range?_between]
  rfl

/-- An action finds a value in bytes and leaves the cursor behind them. -/
def Takes (action : Action α) (taken : List UInt8) (value : α) : Prop :=
  ∀ before behind, action.run (between before (taken ++ behind)) =
    (.ok value, between (before ++ taken) behind)

theorem Takes.pure (value : α) : Takes (Pure.pure value) [] value := by
  intro before behind
  rw [List.append_nil]
  rfl

theorem Takes.bind {next : α → Action β} {result : β} (h : Takes action taken value)
    (hnext : Takes (next value) more result) :
    Takes (action >>= next) (taken ++ more) result := by
  intro before behind
  have hfirst := h before (more ++ behind)
  have hsecond := hnext (before ++ taken) behind
  rw [run_bind, List.append_assoc, hfirst, ← List.append_assoc]
  exact hsecond

theorem Takes.skip {count : Nat} (h : taken.length = count) : Takes (skip count) taken () := by
  intro before behind
  have hfits : before.length + count ≤ (between before (taken ++ behind)).data.size := by
    rw [size_between, List.length_append]
    omega
  rw [run_skip, ← moved_between, h]
  exact if_pos hfits

theorem Takes.anyWord [Word α] (h : taken.length = Word.width α) :
    Takes (word : Action α) taken (decode taken) := by
  intro before behind
  have hread : read? (between before (taken ++ behind)).data
      (between before (taken ++ behind)).position = some (decode taken : α) :=
    read?_between before behind h
  rw [run_word, hread, ← moved_between, h]
  rfl

theorem Takes.word [Word α] (value : α) : Takes Cursor.word (encode value) value := by
  have htakes : Takes (Cursor.word : Action α) (encode value) (decode (encode value)) :=
    .anyWord (length_encode value)
  rwa [decode_encode] at htakes

theorem Takes.bytes (taken : List UInt8) : Takes (Cursor.bytes taken.length) taken taken := by
  intro before behind
  have hrange : range? (between before (taken ++ behind)).data
      (between before (taken ++ behind)).position taken.length = some taken :=
    range?_between before taken behind
  rw [run_bytes, hrange, ← moved_between]
  rfl

theorem Takes.text (name : ShortText) : Takes Cursor.text name.bytes name.text := by
  have hlength : (UInt8.ofNat name.text.toList.length).toNat = name.characters.length := by
    rw [UInt8.toNat_ofNat_of_lt' name.short, ShortText.characters, List.length_map]
  have hcharacters : Takes (Cursor.bytes (UInt8.ofNat name.text.toList.length).toNat)
      name.characters name.characters := by
    rw [hlength]
    exact .bytes _
  have htext : Takes Cursor.text
      (encode (UInt8.ofNat name.text.toList.length) ++ (name.characters ++ []))
      (String.ofList (name.characters.map fun byte => Char.ofNat byte.toNat)) := by
    unfold Cursor.text
    exact (Takes.word _).bind (hcharacters.bind (.pure _))
  rwa [encode_byte, List.append_nil, ShortText.ofList_characters] at htext

/-! ## What actions went over -/

/-- A cursor was moved on over bytes. -/
structure Passes (cursor : Cursor) (bytes : List UInt8) (after : Cursor) : Prop where
  range : range? cursor.data cursor.position bytes.length = some bytes
  after_eq : after = { cursor with position := cursor.position + bytes.length }

variable {cursor between after : Cursor} {front back : List UInt8}

namespace Passes

theorem data_eq (h : Passes cursor front after) : after.data = cursor.data := by
  rw [h.after_eq]

theorem position_eq (h : Passes cursor front after) :
    after.position = cursor.position + front.length := by
  rw [h.after_eq]

theorem position_le (h : Passes cursor front after) : after.position ≤ after.data.size := by
  rw [h.position_eq, h.data_eq]
  exact (range?_eq_some_iff.mp h.range).1

theorem nothing (h : cursor.position ≤ cursor.data.size) : Passes cursor [] cursor where
  range := range?_eq_some_iff.mpr ⟨h, rfl, by simp⟩
  after_eq := rfl

theorem append (hfront : Passes cursor front between) (hback : Passes between back after) :
    Passes cursor (front ++ back) after where
  range := by
    have hrange := hback.range
    rw [hfront.data_eq, hfront.position_eq] at hrange
    rw [List.length_append, range?_append rfl]
    exact ⟨hfront.range, hrange⟩
  after_eq := by
    rw [hback.after_eq, hfront.after_eq, List.length_append, Nat.add_assoc]

/-- A word that was gone over is read where it stands. -/
theorem read?_eq [Word α] {word : α} (h : Passes cursor (encode word) after) :
    read? cursor.data cursor.position = some word := by
  have hrange := h.range
  rw [length_encode] at hrange
  exact read?_eq_some_iff.mpr hrange

end Passes

theorem run_bind_eq_ok {next : α → Action β} {result : β} :
    (action >>= next).run cursor = (.ok result, after) ↔
      ∃ value between, action.run cursor = (.ok value, between) ∧
        (next value).run between = (.ok result, after) := by
  rw [run_bind]
  rcases action.run cursor with ⟨first, found⟩
  constructor
  · intro h
    cases first with
    | ok value => exact ⟨value, found, rfl, h⟩
    | error error => cases h
  · rintro ⟨value, between, ⟨⟩, h⟩
    exact h

theorem run_pure_eq_ok {found : α} :
    (pure value : Action α).run cursor = (.ok found, after) ↔ value = found ∧ cursor = after := by
  change ((.ok value, cursor) : Except Error α × Cursor) = _ ↔ _
  simp

theorem passes_of_run_word [Word α] (h : (word : Action α).run cursor = (.ok value, after)) :
    Passes cursor (encode value) after := by
  rw [run_word] at h
  cases hread : (read? cursor.data cursor.position : Option α) with
  | none =>
    rw [hread] at h
    cases h
  | some found =>
    rw [hread] at h
    cases h
    refine ⟨?_, by rw [length_encode]⟩
    rw [length_encode]
    exact read?_eq_some_iff.mp hread

theorem passes_of_run_bytes {count : Nat} {found : List UInt8}
    (h : (bytes count).run cursor = (.ok found, after)) :
    found.length = count ∧ Passes cursor found after := by
  rw [run_bytes] at h
  cases hrange : range? cursor.data cursor.position count with
  | none =>
    rw [hrange] at h
    cases h
  | some bytes =>
    rw [hrange] at h
    cases h
    obtain rfl := length_of_range? hrange
    exact ⟨rfl, hrange, rfl⟩

theorem passes_of_run_skip {count : Nat} (h : (skip count).run cursor = (.ok (), after)) :
    ∃ bytes, bytes.length = count ∧ Passes cursor bytes after := by
  rw [run_skip] at h
  split at h
  · rename_i hfits
    cases h
    obtain ⟨bytes, hbytes⟩ := range?_isSome hfits
    obtain rfl := length_of_range? hbytes
    exact ⟨bytes, rfl, hbytes, rfl⟩
  · cases h

theorem passes_of_run_text {found : String} (h : text.run cursor = (.ok found, after)) :
    ∃ name : ShortText, found = name.text ∧ Passes cursor name.bytes after := by
  obtain ⟨length, between, hlength, h⟩ := run_bind_eq_ok.mp h
  obtain ⟨characters, behind, hcharacters, h⟩ := run_bind_eq_ok.mp h
  obtain ⟨rfl, rfl⟩ := run_pure_eq_ok.mp h
  obtain ⟨hcount, hpasses⟩ := passes_of_run_bytes hcharacters
  have hshort : characters.length < 256 := hcount ▸ length.toNat_lt
  refine ⟨.ofBytes characters hshort, rfl, ?_⟩
  rw [ShortText.bytes_ofBytes, hcount, UInt8.ofNat_toNat, ← List.singleton_append, ← encode_byte]
  exact (passes_of_run_word hlength).append hpasses

end Cursor

end FlowDisasm.Bytes
