import FlowDisasm.Proofs.Bytes.InPlace
import Mathlib.Algebra.Group.Nat.Defs
import Mathlib.Algebra.Ring.Int.Defs

/-!
# Integers in buffers

The eight integer types are stored in one, two, four or eight bytes, the least significant first, and with a sign as two's
complement. A value that was written is read back, and a value that was read is written back without changing a byte. An
access that fails changes nothing.
-/
namespace FlowDisasm.Bytes

/-! ## Bytes of numbers -/

theorem getElem?_ofValue {width index : Nat} (h : index < width) (number : Nat) :
    (ofValue width number)[index]? = some (UInt8.ofNat (number / 256 ^ index)) := by
  induction width generalizing number index with
  | zero => cases h
  | succ width ih =>
    cases index with
    | zero => rw [ofValue, List.getElem?_cons_zero, Nat.pow_zero, Nat.div_one]
    | succ index =>
      rw [ofValue, List.getElem?_cons_succ, ih (Nat.lt_of_succ_lt_succ h), Nat.div_div_eq_div_mul, Nat.pow_succ']

/-- Only the low part of a number is spelled. -/
theorem ofValue_mod (width number : Nat) : ofValue width (number % span width) = ofValue width number := by
  have hvalue := ofValue_value (ofValue width number)
  rwa [length_ofValue, value_ofValue] at hvalue

/-- The bytes of a number are those of its low part and those of its high part. -/
theorem ofValue_add (first second number : Nat) :
    ofValue (first + second) number = ofValue first number ++ ofValue second (number / span first) := by
  induction first generalizing number with
  | zero => rw [Nat.zero_add, ofValue, span, Nat.div_one, List.nil_append]
  | succ first ih =>
    rw [Nat.succ_add, ofValue, ih, ofValue, span, Nat.div_div_eq_div_mul, List.cons_append]

/-! ## Integer types -/

/-- The integer types that are stored in bytes. -/
inductive IntegerType where
  | u8 | i8 | u16 | i16 | u32 | i32 | u64 | i64
  deriving DecidableEq

namespace IntegerType

def Value : IntegerType → Type
  | u8 => UInt8
  | i8 => Int8
  | u16 => UInt16
  | i16 => Int16
  | u32 => UInt32
  | i32 => Int32
  | u64 => UInt64
  | i64 => Int64

instance word : (type : IntegerType) → Word type.Value
  | u8 => inferInstanceAs (Word UInt8)
  | i8 => inferInstanceAs (Word Int8)
  | u16 => inferInstanceAs (Word UInt16)
  | i16 => inferInstanceAs (Word Int16)
  | u32 => inferInstanceAs (Word UInt32)
  | i32 => inferInstanceAs (Word Int32)
  | u64 => inferInstanceAs (Word UInt64)
  | i64 => inferInstanceAs (Word Int64)

def size : IntegerType → Nat
  | u8 | i8 => 1
  | u16 | i16 => 2
  | u32 | i32 => 4
  | u64 | i64 => 8

def unsigned : IntegerType → IntegerType
  | u8 | i8 => u8
  | u16 | i16 => u16
  | u32 | i32 => u32
  | u64 | i64 => u64

def toInt : (type : IntegerType) → type.Value → Int
  | u8, value => UInt8.toNat value
  | i8, value => Int8.toInt value
  | u16, value => UInt16.toNat value
  | i16, value => Int16.toInt value
  | u32, value => UInt32.toNat value
  | i32, value => Int32.toInt value
  | u64, value => UInt64.toNat value
  | i64, value => Int64.toInt value

theorem unsigned_unsigned (type : IntegerType) : type.unsigned.unsigned = type.unsigned := by
  cases type <;> rfl

theorem size_unsigned (type : IntegerType) : type.unsigned.size = type.size := by
  cases type <;> rfl

@[simp] theorem width_eq (type : IntegerType) : Word.width type.Value = type.size := by
  cases type <;> rfl

theorem toInt_of_unsigned {type : IntegerType} (h : type.unsigned = type) (value : type.Value) :
    type.toInt value = Word.toBits value := by
  cases type <;> first | rfl | cases h

/-- Signed values stand for the two's complement of their bits. -/
theorem toInt_of_signed {type : IntegerType} (h : type.unsigned ≠ type) (value : type.Value) :
    type.toInt value = (Word.toBits value : Int).bmod (256 ^ type.size) := by
  cases type with
  | i8 => exact BitVec.toInt_eq_toNat_bmod (Int8.toBitVec value)
  | i16 => exact BitVec.toInt_eq_toNat_bmod (Int16.toBitVec value)
  | i32 => exact BitVec.toInt_eq_toNat_bmod (Int32.toBitVec value)
  | i64 => exact BitVec.toInt_eq_toNat_bmod (Int64.toBitVec value)
  | _ => exact absurd rfl h

/-- A number and its bits differ by whole turns. -/
theorem exists_turns (type : IntegerType) (value : type.Value) :
    ∃ turns : Int, type.toInt value = Word.toBits value + 256 ^ type.size * turns := by
  by_cases h : type.unsigned = type
  · exact ⟨0, by rw [toInt_of_unsigned h, Int.mul_zero, Int.add_zero]⟩
  · have hbits : type.toInt value + 256 ^ type.size * (Word.toBits value : Int).bdiv (256 ^ type.size) =
        Word.toBits value := by
      rw [toInt_of_signed h]
      exact Int.bmod_add_bdiv (Word.toBits value) (256 ^ type.size)
    exact ⟨-(Word.toBits value : Int).bdiv (256 ^ type.size), by rw [Int.mul_neg]; omega⟩

/-- Turns do not show in any of the bytes. -/
theorem toInt_digit {type : IntegerType} {index : Nat} (h : index < type.size) (value : type.Value) :
    type.toInt value / 256 ^ index % 256 = ((Word.toBits value / 256 ^ index % 256 : Nat) : Int) := by
  obtain ⟨turns, hturns⟩ := exists_turns type value
  obtain ⟨behind, hbehind⟩ : ∃ behind, type.size = index + 1 + behind := ⟨type.size - (index + 1), by omega⟩
  rw [hturns, hbehind, Int.pow_add, Int.pow_succ, Int.mul_assoc, Int.mul_assoc,
    Int.add_mul_ediv_left _ _ (Int.pow_pos (by decide)).ne', Int.add_mul_emod_self_left,
    Int.natCast_emod, Int.natCast_ediv, Int.natCast_pow]
  rfl

/-- The bytes of a value are those of its number, with or without a sign. -/
theorem getElem?_encode {type : IntegerType} {index : Nat} (h : index < type.size) (value : type.Value) :
    (encode value)[index]? = some (UInt8.ofInt (type.toInt value / 256 ^ index)) := by
  have hwidth : index < Word.width type.Value := by rwa [width_eq]
  have hbyte : UInt8.ofInt (type.toInt value / 256 ^ index) = UInt8.ofNat (Word.toBits value / 256 ^ index) := by
    change UInt8.ofNat (type.toInt value / 256 ^ index % 256).toNat = _
    rw [toInt_digit h, Int.toNat_natCast]
    exact UInt8.ofNat_mod_size
  rw [encode, getElem?_ofValue hwidth, hbyte]

end IntegerType

/-! ## Accesses to a buffer -/

namespace Buffer

variable {α β γ : Type} [Word α] [Word β] [Word γ] {buffer after : Buffer} {word : α}

theorem readNext_eq_ok_iff : buffer.readNext = .ok (word, after) ↔
    range? buffer.data buffer.offset (Word.width α) = some (encode word) ∧
      after = { buffer with offset := buffer.offset + Word.width α } := by
  rw [← read?_eq_some_iff, readNext]
  cases (read? buffer.data buffer.offset : Option α) with
  | none => simp
  | some found => simp [eq_comm]

theorem writeNext_eq_ok_iff : buffer.writeNext word = .ok after ↔
    buffer.offset + Word.width α ≤ buffer.data.size ∧
      after = ⟨overlay buffer.data buffer.offset (encode word), buffer.offset + Word.width α⟩ := by
  rw [writeNext, write?]
  by_cases hfits : buffer.offset + Word.width α ≤ buffer.data.size
  · simp [hfits, eq_comm]
  · simp [hfits]

theorem readNext_eq_error (h : buffer.data.size < buffer.offset + Word.width α) :
    (buffer.readNext : Except Error (α × Buffer)) = .error .outOfBounds := by
  rw [readNext, read?_eq_none_iff.mpr h]

theorem writeNext_eq_error (h : buffer.data.size < buffer.offset + Word.width α) :
    buffer.writeNext word = .error .outOfBounds := by
  rw [writeNext, write?, if_neg (Nat.not_le_of_lt h)]

theorem exists_readNext_iff : (∃ (word : α) (after : Buffer), buffer.readNext = .ok (word, after)) ↔
    buffer.offset + Word.width α ≤ buffer.data.size := by
  constructor
  · rintro ⟨word, after, h⟩
    exact (range?_eq_some_iff.mp (readNext_eq_ok_iff.mp h).1).1
  · intro h
    obtain ⟨word, hword⟩ : ∃ word : α, read? buffer.data buffer.offset = some word := exists_read? h
    exact ⟨word, _, readNext_eq_ok_iff.mpr ⟨read?_eq_some_iff.mp hword, rfl⟩⟩

/-- What was written is read back from the same place. -/
theorem readNext_of_writeNext (h : buffer.writeNext word = .ok after) :
    { after with offset := buffer.offset }.readNext = .ok (word, after) := by
  obtain ⟨hfits, rfl⟩ := writeNext_eq_ok_iff.mp h
  rw [← length_encode word] at hfits
  have hrange := range?_overlay hfits
  rw [length_encode] at hrange
  exact readNext_eq_ok_iff.mpr ⟨hrange, rfl⟩

/-- What was read is written back without a change. -/
theorem writeNext_of_readNext (h : buffer.readNext = .ok (word, after)) :
    buffer.writeNext word = .ok after := by
  obtain ⟨hrange, rfl⟩ := readNext_eq_ok_iff.mp h
  have hfits := (range?_eq_some_iff.mp hrange).1
  rw [← length_encode word] at hrange
  rw [writeNext_eq_ok_iff, overlay_eq_self hrange]
  exact ⟨hfits, rfl⟩

/-- A word is read in two parts, the low one first. -/
theorem readNext_parts {low : β} {high : γ} (hwidth : Word.width α = Word.width β + Word.width γ)
    (hparts : encode word = encode low ++ encode high) : buffer.readNext = .ok (word, after) ↔
      ∃ between, buffer.readNext = .ok (low, between) ∧ between.readNext = .ok (high, after) := by
  simp only [readNext_eq_ok_iff, hparts, hwidth, range?_append (length_encode low)]
  constructor
  · rintro ⟨⟨hlow, hhigh⟩, rfl⟩
    exact ⟨_, ⟨hlow, rfl⟩, hhigh, by rw [Nat.add_assoc]⟩
  · rintro ⟨between, ⟨hlow, rfl⟩, hhigh, rfl⟩
    exact ⟨⟨hlow, hhigh⟩, by rw [Nat.add_assoc]⟩

/-- The same bytes spell the same bits in every type of their number. -/
theorem exists_readNext_as (hwidth : Word.width β = Word.width α) (h : buffer.readNext = .ok (word, after)) :
    ∃ other : β, buffer.readNext = .ok (other, after) ∧ Word.toBits other = Word.toBits word := by
  have hbits : Word.toBits (Word.ofBits (Word.toBits word) : β) = Word.toBits word :=
    Word.toBits_ofBits _ (hwidth ▸ Word.toBits_lt word)
  have hencode : encode (Word.ofBits (Word.toBits word) : β) = encode word := by
    rw [encode, encode, hbits, hwidth]
  rw [readNext_eq_ok_iff] at h
  exact ⟨_, by rwa [readNext_eq_ok_iff, hencode, hwidth], hbits⟩

/-- The low half of a word stands in front of the high one. -/
theorem encode_halves (word : UInt32) :
    encode word = encode word.toUInt16 ++ encode (word >>> 16).toUInt16 := by
  have hlow : word.toUInt16.toNat = word.toNat % span 2 := UInt32.toNat_toUInt16 word
  have hhigh : (word >>> 16).toUInt16.toNat = word.toNat / span 2 % span 2 := by
    rw [UInt32.toNat_toUInt16, UInt32.toNat_shiftRight, Nat.shiftRight_eq_div_pow]
    rfl
  change ofValue (2 + 2) word.toNat = ofValue 2 word.toUInt16.toNat ++ ofValue 2 (word >>> 16).toUInt16.toNat
  rw [ofValue_add, hlow, hhigh, ofValue_mod, ofValue_mod]

/-! ### Keeping integers -/

open InPlace

/-- A buffer behind a value that was written. -/
structure Wrote {type : IntegerType} (buffer : Buffer) (value : type.Value) (after : Buffer) : Prop where
  offset_eq : after.offset = buffer.offset + type.size
  size_eq : after.data.size = buffer.data.size
  outside (index : Nat) : index < buffer.offset ∨ buffer.offset + type.size ≤ index →
    after.data[index]? = buffer.data[index]?
  /-- The bytes of the number, the least significant first. -/
  inside (index : Nat) : index < type.size →
    after.data[buffer.offset + index]? = some (UInt8.ofInt (type.toInt value / 256 ^ index))

theorem wrote_of_writeNext {type : IntegerType} {value : type.Value} (h : buffer.writeNext value = .ok after) :
    buffer.Wrote value after := by
  have hlength : (encode value).length = type.size := by
    rw [length_encode, type.width_eq]
  obtain ⟨hfits, rfl⟩ := writeNext_eq_ok_iff.mp h
  rw [type.width_eq, ← hlength] at hfits
  constructor
  case offset_eq => exact congrArg (buffer.offset + ·) type.width_eq
  case size_eq => exact size_overlay ..
  case outside =>
    intro index hindex
    rw [← hlength] at hindex
    exact getElem?_overlay_outside hindex
  case inside =>
    intro index hindex
    rw [getElem?_overlay_inside hfits (hlength ▸ hindex), type.getElem?_encode hindex]

/-- A buffer keeps integers: reading and writing are inverse to each other, and a failure leaves it as it was. -/
structure KeepsIntegers (buffer : Buffer) : Prop where
  writes_iff {type : IntegerType} (value : type.Value) : (∃ after, buffer.writeNext value = .ok after) ↔
    buffer.offset + type.size ≤ buffer.data.size
  reads_iff (type : IntegerType) : (∃ (value : type.Value) (after : Buffer), buffer.readNext = .ok (value, after)) ↔
    buffer.offset + type.size ≤ buffer.data.size
  wrote {type : IntegerType} (value : type.Value) (after : Buffer) : buffer.writeNext value = .ok after →
    buffer.Wrote value after
  read_back {type : IntegerType} (value : type.Value) (after : Buffer) : buffer.writeNext value = .ok after →
    { after with offset := buffer.offset }.readNext = .ok (value, after)
  write_back {type : IntegerType} (value : type.Value) (after : Buffer) : buffer.readNext = .ok (value, after) →
    after = { buffer with offset := buffer.offset + type.size } ∧ buffer.writeNext value = .ok after
  /-- With a sign the same bytes are read as the two's complement. -/
  signed {type : IntegerType} (number : type.unsigned.Value) (after : Buffer) : type.unsigned ≠ type →
    buffer.readNext = .ok (number, after) → ∃ value : type.Value,
      buffer.readNext = .ok (value, after) ∧
        type.toInt value = (type.unsigned.toInt number).bmod (256 ^ type.size)
  halves (word : UInt32) (after : Buffer) : buffer.readNext = .ok (word, after) ↔
    ∃ between, buffer.readNext = .ok (word.toUInt16, between) ∧
      between.readNext = .ok ((word >>> 16).toUInt16, after)
  writes_in_place {type : IntegerType} (value : type.Value) (after : Buffer) : buffer.data.size < UInt64.size →
    buffer.writeNext value = .ok after → Ends (writeInPlace value) buffer (.ok (), after)
  reads_in_place {type : IntegerType} (value : type.Value) (after : Buffer) : buffer.data.size < UInt64.size →
    buffer.readNext = .ok (value, after) → Ends readInPlace buffer (.ok value, after)
  write_refused {type : IntegerType} (value : type.Value) : buffer.data.size < buffer.offset + type.size →
    buffer.writeNext value = .error .outOfBounds ∧ Ends (writeInPlace value) buffer (.error .outOfBounds, buffer)
  read_refused (type : IntegerType) : buffer.data.size < buffer.offset + type.size →
    (buffer.readNext : Except Error (type.Value × Buffer)) = .error .outOfBounds ∧
      Ends (readInPlace : InPlace Buffer type.Value) buffer (.error .outOfBounds, buffer)

/-- Integers that are written are read back, and those that are read are written back. -/
theorem keeps_integers (buffer : Buffer) : buffer.KeepsIntegers where
  writes_iff {type} value := by
    simp only [writeNext_eq_ok_iff, type.width_eq, exists_and_left, exists_eq, and_true]
  reads_iff type := by
    rw [exists_readNext_iff, type.width_eq]
  wrote _ _ h := wrote_of_writeNext h
  read_back _ _ h := readNext_of_writeNext h
  write_back {type} _ _ h := by
    have hafter := (readNext_eq_ok_iff.mp h).2
    rw [type.width_eq] at hafter
    exact ⟨hafter, writeNext_of_readNext h⟩
  signed {type} number after hsigned h := by
    have hwidth : Word.width type.Value = Word.width type.unsigned.Value := by
      rw [type.width_eq, type.unsigned.width_eq, type.size_unsigned]
    obtain ⟨value, hvalue, hbits⟩ : ∃ value : type.Value, buffer.readNext = .ok (value, after) ∧
        Word.toBits value = Word.toBits number := exists_readNext_as hwidth h
    have hnumber : type.unsigned.toInt number = Word.toBits number :=
      IntegerType.toInt_of_unsigned type.unsigned_unsigned number
    exact ⟨value, hvalue, by rw [IntegerType.toInt_of_signed hsigned, hbits, hnumber]⟩
  halves word _ := readNext_parts rfl (encode_halves word)
  writes_in_place _ _ hsize h := by
    obtain ⟨hfits, rfl⟩ := writeNext_eq_ok_iff.mp h
    exact ends_writeInPlace hsize hfits
  reads_in_place _ _ hsize h := by
    obtain ⟨hrange, rfl⟩ := readNext_eq_ok_iff.mp h
    exact ends_readInPlace hsize (read?_eq_some_iff.mpr hrange)
  write_refused {type} _ h := by
    rw [← type.width_eq] at h
    exact ⟨writeNext_eq_error h, ends_writeInPlace_error h⟩
  read_refused type h := by
    rw [← type.width_eq] at h
    exact ⟨readNext_eq_error h, ends_readInPlace_error h⟩

/-- A negative number in two of three bytes. -/
example : (Buffer.mk #[1, 2, 3] 1).writeNext (-2 : Int16) = .ok ⟨#[1, 254, 255], 3⟩ := by rfl

end Buffer

end FlowDisasm.Bytes
