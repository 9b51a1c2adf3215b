/-!
# Words in little-endian bytes

A word type is a fixed number of bytes together with the number that those bytes spell, least
significant byte first. The signed types spell their two's complement. Every reader of a file format
goes through these two directions, and they are inverse to each other.
-/
namespace FlowDisasm.Bytes

/-- How many numbers there are that so many bytes spell. -/
def span : Nat → Nat
  | 0 => 1
  | width + 1 => 256 * span width

/-- The number that bytes spell, the least significant byte first. -/
def value : List UInt8 → Nat
  | [] => 0
  | byte :: rest => byte.toNat + 256 * value rest

/-- The lowest bytes of a number, the least significant first. -/
def ofValue : Nat → Nat → List UInt8
  | 0, _ => []
  | width + 1, number => UInt8.ofNat number :: ofValue width (number / 256)

@[simp] theorem length_ofValue (width number : Nat) : (ofValue width number).length = width := by
  induction width generalizing number with
  | zero => rfl
  | succ width ih => simp [ofValue, ih]

theorem value_lt (bytes : List UInt8) : value bytes < span bytes.length := by
  induction bytes with
  | nil => simp [value, span]
  | cons byte rest ih =>
    have := byte.toNat_lt
    simp only [value, List.length_cons, span]
    omega

theorem value_ofValue (width number : Nat) : value (ofValue width number) = number % span width := by
  induction width generalizing number with
  | zero => simp [ofValue, value, span, Nat.mod_one]
  | succ width ih =>
    have hbyte : (UInt8.ofNat number).toNat = number % 256 := UInt8.toNat_ofNat'
    rw [ofValue, value, ih, hbyte, span, Nat.mod_mul]

theorem ofValue_value (bytes : List UInt8) : ofValue bytes.length (value bytes) = bytes := by
  induction bytes with
  | nil => rfl
  | cons byte rest ih =>
    have hb := byte.toNat_lt
    have hdiv : (byte.toNat + 256 * value rest) / 256 = value rest := by omega
    have hhead : UInt8.ofNat (byte.toNat + 256 * value rest) = byte := by
      apply UInt8.toNat_inj.mp
      simp only [UInt8.toNat_ofNat']
      omega
    simp [ofValue, value, hdiv, hhead, ih]

/-- An integer type that is stored in a fixed number of bytes. -/
class Word (α : Type) where
  /-- Bytes that a value takes. -/
  width : Nat
  /-- The unsigned number that the bytes of a value spell. -/
  toBits : α → Nat
  /-- The value whose bytes spell a number, of which only the low bytes count. -/
  ofBits : Nat → α
  toBits_lt : ∀ word, toBits word < span width
  ofBits_toBits : ∀ word, ofBits (toBits word) = word
  toBits_ofBits : ∀ number, number < span width → toBits (ofBits number) = number

def encode {α : Type} [Word α] (word : α) : List UInt8 :=
  ofValue (Word.width α) (Word.toBits word)

def decode {α : Type} [Word α] (bytes : List UInt8) : α :=
  Word.ofBits (value bytes)

@[simp] theorem length_encode {α : Type} [Word α] (word : α) :
    (encode word).length = Word.width α := by
  simp [encode]

theorem decode_encode {α : Type} [Word α] (word : α) : (decode (encode word) : α) = word := by
  rw [decode, encode, value_ofValue, Nat.mod_eq_of_lt (Word.toBits_lt word), Word.ofBits_toBits]

theorem encode_decode {α : Type} [Word α] (bytes : List UInt8) (h : bytes.length = Word.width α) :
    encode (decode bytes : α) = bytes := by
  have hlt : value bytes < span (Word.width α) := h ▸ value_lt bytes
  rw [encode, decode, Word.toBits_ofBits _ hlt, ← h, ofValue_value]

instance : Word UInt8 where
  width := 1
  toBits := UInt8.toNat
  ofBits := UInt8.ofNat
  toBits_lt word := by have := word.toNat_lt; simpa [span] using this
  ofBits_toBits word := UInt8.ofNat_toNat
  toBits_ofBits number h := UInt8.toNat_ofNat_of_lt (by simpa [UInt8.size, span] using h)

instance : Word UInt16 where
  width := 2
  toBits := UInt16.toNat
  ofBits := UInt16.ofNat
  toBits_lt word := by have := word.toNat_lt; simpa [span] using this
  ofBits_toBits word := UInt16.ofNat_toNat
  toBits_ofBits number h := UInt16.toNat_ofNat_of_lt (by simpa [UInt16.size, span] using h)

instance : Word UInt32 where
  width := 4
  toBits := UInt32.toNat
  ofBits := UInt32.ofNat
  toBits_lt word := by have := word.toNat_lt; simpa [span] using this
  ofBits_toBits word := UInt32.ofNat_toNat
  toBits_ofBits number h := UInt32.toNat_ofNat_of_lt (by simpa [UInt32.size, span] using h)

instance : Word UInt64 where
  width := 8
  toBits := UInt64.toNat
  ofBits := UInt64.ofNat
  toBits_lt word := by have := word.toNat_lt; simpa [span] using this
  ofBits_toBits word := UInt64.ofNat_toNat
  toBits_ofBits number h := UInt64.toNat_ofNat_of_lt (by simpa [UInt64.size, span] using h)

instance : Word Int8 where
  width := 1
  toBits word := word.toUInt8.toNat
  ofBits number := (UInt8.ofNat number).toInt8
  toBits_lt word := by have := word.toUInt8.toNat_lt; simpa [span] using this
  ofBits_toBits word := by simp
  toBits_ofBits number h := by
    have hsmall : (UInt8.ofNat number).toNat = number :=
      UInt8.toNat_ofNat_of_lt (by simpa [UInt8.size, span] using h)
    simpa only [UInt8.toUInt8_toInt8] using hsmall

instance : Word Int16 where
  width := 2
  toBits word := word.toUInt16.toNat
  ofBits number := (UInt16.ofNat number).toInt16
  toBits_lt word := by have := word.toUInt16.toNat_lt; simpa [span] using this
  ofBits_toBits word := by simp
  toBits_ofBits number h := by
    have hsmall : (UInt16.ofNat number).toNat = number :=
      UInt16.toNat_ofNat_of_lt (by simpa [UInt16.size, span] using h)
    simpa only [UInt16.toUInt16_toInt16] using hsmall

instance : Word Int32 where
  width := 4
  toBits word := word.toUInt32.toNat
  ofBits number := (UInt32.ofNat number).toInt32
  toBits_lt word := by have := word.toUInt32.toNat_lt; simpa [span] using this
  ofBits_toBits word := by simp
  toBits_ofBits number h := by
    have hsmall : (UInt32.ofNat number).toNat = number :=
      UInt32.toNat_ofNat_of_lt (by simpa [UInt32.size, span] using h)
    simpa only [UInt32.toUInt32_toInt32] using hsmall

instance : Word Int64 where
  width := 8
  toBits word := word.toUInt64.toNat
  ofBits number := (UInt64.ofNat number).toInt64
  toBits_lt word := by have := word.toUInt64.toNat_lt; simpa [span] using this
  ofBits_toBits word := by simp
  toBits_ofBits number h := by
    have hsmall : (UInt64.ofNat number).toNat = number :=
      UInt64.toNat_ofNat_of_lt (by simpa [UInt64.size, span] using h)
    simpa only [UInt64.toUInt64_toInt64] using hsmall

end FlowDisasm.Bytes
