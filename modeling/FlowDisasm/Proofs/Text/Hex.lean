import FlowDisasm.Text.Hex

/-!
# Numbers from their digits

The digits of a number in hexadecimal give the number back, with any zeros in front of them. So texts of
different numbers are different.
-/
namespace FlowDisasm.Text

def digitValue (digit : Char) : Nat :=
  if digit.toNat ≤ 57 then digit.toNat - 48 else digit.toNat - 55

/-- The number that capital digits spell. -/
def hexValue (digits : List Char) : Nat :=
  digits.foldl (fun value digit => 16 * value + digitValue digit) 0

theorem digitValue_digitChar {digit : Nat} (h : digit < 16) :
    digitValue (Nat.digitChar digit).toUpper = digit := by
  have hall : ∀ digit : Fin 16, digitValue (Nat.digitChar digit).toUpper = digit := by decide
  exact hall ⟨digit, h⟩

theorem hexValue_concat (digits : List Char) (digit : Char) :
    hexValue (digits ++ [digit]) = 16 * hexValue digits + digitValue digit := by
  rw [hexValue, List.foldl_append]
  rfl

theorem hexDigits_of_lt {value : Nat} (h : value < 16) :
    hexDigits value = [(Nat.digitChar value).toUpper] := by
  rw [hexDigits, Nat.toDigits_of_lt_base h]
  rfl

theorem hexDigits_of_le {value : Nat} (h : 16 ≤ value) :
    hexDigits value = hexDigits (value / 16) ++ [(Nat.digitChar (value % 16)).toUpper] := by
  rw [hexDigits, Nat.toDigits_of_base_le (by decide) h, List.map_append]
  rfl

theorem toList_hexLiteral (value : Nat) : (hexLiteral value).toList = '0' :: 'x' :: hexDigits value := by
  simp [hexLiteral, hex]

theorem hexValue_hexDigits (value : Nat) : hexValue (hexDigits value) = value := by
  induction value using Nat.strongRecOn with
  | ind value ih =>
    by_cases hsmall : value < 16
    · rw [hexDigits_of_lt hsmall]
      simp [hexValue, digitValue_digitChar hsmall]
    · have hquotient : hexValue (hexDigits (value / 16)) = value / 16 := ih _ (by omega)
      have hdigit : digitValue (Nat.digitChar (value % 16)).toUpper = value % 16 :=
        digitValue_digitChar (Nat.mod_lt value (by decide))
      rw [hexDigits_of_le (Nat.le_of_not_lt hsmall), hexValue_concat, hquotient, hdigit]
      omega

theorem hexValue_leftpad (width : Nat) (digits : List Char) :
    hexValue (digits.leftpad width '0') = hexValue digits := by
  have hzeros : ∀ count, (List.replicate count '0').foldl
      (fun value digit => 16 * value + digitValue digit) 0 = 0 := by
    intro count
    induction count with
    | zero => rfl
    | succ count ih =>
      rw [List.replicate_succ, List.foldl_cons]
      exact ih
  rw [hexValue, List.leftpad, List.foldl_append, hzeros]
  rfl

theorem hexValue_hexPadded (width value : Nat) : hexValue (hexPadded width value).toList = value := by
  rw [hexPadded, String.toList_ofList, hexValue_leftpad, hexValue_hexDigits]

/-! ## Digits -/

/-- The digits that take capital letters. -/
def capitalDigits : List Char := "0123456789ABCDEF".toList

def smallDigits : List Char := "0123456789abcdef".toList

theorem mem_capitalDigits_of_mem_hexDigits {value : Nat} {c : Char} (h : c ∈ hexDigits value) :
    c ∈ capitalDigits := by
  have hall : ∀ digit : Fin 16, (Nat.digitChar digit).toUpper ∈ capitalDigits := by decide
  induction value using Nat.strongRecOn with
  | ind value ih =>
    by_cases hsmall : value < 16
    · rw [hexDigits_of_lt hsmall, List.mem_singleton] at h
      exact h ▸ hall ⟨value, hsmall⟩
    · rw [hexDigits_of_le (Nat.le_of_not_lt hsmall), List.mem_append, List.mem_singleton] at h
      rcases h with hfront | rfl
      · exact ih (value / 16) (by omega) hfront
      · exact hall ⟨value % 16, Nat.mod_lt value (by decide)⟩

theorem mem_capitalDigits_of_mem_hexPadded {width value : Nat} {c : Char}
    (h : c ∈ (hexPadded width value).toList) : c ∈ capitalDigits := by
  rw [hexPadded, String.toList_ofList, List.leftpad, List.mem_append, List.mem_replicate] at h
  rcases h with ⟨-, rfl⟩ | hdigit
  · decide
  · exact mem_capitalDigits_of_mem_hexDigits hdigit

theorem length_toList_hexPadded (width value : Nat) :
    (hexPadded width value).toList.length = max width (Nat.toDigits 16 value).length := by
  rw [hexPadded, String.toList_ofList, List.length_leftpad, hexDigits, List.length_map]

/-! ## Bytes -/

def spelledBytes : List Char → List UInt8
  | high :: low :: rest => UInt8.ofNat (hexValue [high, low]) :: spelledBytes rest
  | _ => []

theorem digitValue_capitalDigit {digit : Nat} (h : digit < 16) : digitValue (capitalDigit digit) = digit := by
  have hall : ∀ digit : Fin 16, digitValue (capitalDigit digit) = digit := by decide
  exact hall ⟨digit, h⟩

theorem halves_lt (byte : UInt8) : byte.toNat / 16 < 16 ∧ byte.toNat % 16 < 16 :=
  ⟨Nat.div_lt_of_lt_mul byte.toNat_lt, Nat.mod_lt _ (by decide)⟩

theorem hexValue_byteDigits (byte : UInt8) : hexValue (byteDigits byte) = byte.toNat := by
  obtain ⟨hhigh, hlow⟩ := halves_lt byte
  simp only [hexValue, byteDigits, List.foldl_cons, List.foldl_nil]
  rw [digitValue_capitalDigit hhigh, digitValue_capitalDigit hlow]
  omega

theorem ofNat_hexValue_byteDigits (byte : UInt8) : UInt8.ofNat (hexValue (byteDigits byte)) = byte := by
  rw [hexValue_byteDigits, UInt8.ofNat_toNat]

theorem mem_capitalDigits_of_mem_byteDigits {byte : UInt8} {c : Char} (h : c ∈ byteDigits byte) :
    c ∈ capitalDigits := by
  have hall : ∀ digit : Fin 16, capitalDigit digit ∈ capitalDigits := by decide
  obtain ⟨hhigh, hlow⟩ := halves_lt byte
  simp only [byteDigits, List.mem_cons, List.not_mem_nil, or_false] at h
  rcases h with rfl | rfl
  · exact hall ⟨_, hhigh⟩
  · exact hall ⟨_, hlow⟩

/-- A small digit stands for what the capital one stands for. -/
theorem smallDigit_mem {digit : Nat} (h : digit < 16) :
    smallDigit digit ∈ smallDigits ∧ (smallDigit digit).toUpper = capitalDigit digit := by
  have hall : ∀ digit : Fin 16,
      smallDigit digit ∈ smallDigits ∧ (smallDigit digit).toUpper = capitalDigit digit := by
    decide
  exact hall ⟨digit, h⟩

theorem joinedBytes_cons (byte : UInt8) (bytes : List UInt8) :
    joinedBytes (byte :: bytes) = hexByte byte ++ joinedBytes bytes :=
  String.join_cons

theorem length_joinedBytes (bytes : List UInt8) : (joinedBytes bytes).length = 2 * bytes.length := by
  induction bytes with
  | nil => rfl
  | cons byte bytes ih =>
    have hbyte : (hexByte byte).length = 2 := by
      rw [hexByte, String.length_ofList]
      rfl
    rw [joinedBytes_cons, String.length_append, hbyte, ih, List.length_cons]
    omega

/-- Bytes in a row are read back two digits at a time. -/
theorem spelledBytes_joinedBytes (bytes : List UInt8) : spelledBytes (joinedBytes bytes).toList = bytes := by
  induction bytes with
  | nil => rfl
  | cons byte bytes ih =>
    rw [joinedBytes_cons, String.toList_append, hexByte_toList]
    change UInt8.ofNat (hexValue (byteDigits byte)) :: spelledBytes (joinedBytes bytes).toList = _
    rw [ofNat_hexValue_byteDigits, ih]

/-! ## Padded numbers -/

/-- Padded or not, different numbers have different digits. -/
theorem hexPadded_injective {width first second : Nat}
    (h : hexPadded width first = hexPadded width second) : first = second := by
  rw [← hexValue_hexPadded width first, h, hexValue_hexPadded]

end FlowDisasm.Text
