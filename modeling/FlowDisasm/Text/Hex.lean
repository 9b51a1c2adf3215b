/-!
# Numbers and bytes in hexadecimal

Capital digits without leading zeros are the default; widths and small letters are asked for by name.
A byte always takes two digits, so a row of bytes can be cut back into its bytes.
-/
namespace FlowDisasm.Text

def capitalDigit (value : Nat) : Char :=
  Char.ofNat (if value < 10 then 48 + value else 55 + value)

def smallDigit (value : Nat) : Char :=
  Char.ofNat (if value < 10 then 48 + value else 87 + value)

/-- The digits of a number in capital hexadecimal, the most significant first. -/
def hexDigits (value : Nat) : List Char :=
  (Nat.toDigits 16 value).map Char.toUpper

def hex (value : Nat) : String :=
  String.ofList (hexDigits value)

def hexPadded (width value : Nat) : String :=
  String.ofList ((hexDigits value).leftpad width '0')

/-- A number behind the mark of a hexadecimal literal. -/
def hexLiteral (value : Nat) : String :=
  "0x" ++ hex value

def byteDigits (byte : UInt8) : List Char :=
  [capitalDigit (byte.toNat / 16), capitalDigit (byte.toNat % 16)]

def smallByteDigits (byte : UInt8) : List Char :=
  [smallDigit (byte.toNat / 16), smallDigit (byte.toNat % 16)]

def hexByte (byte : UInt8) : String :=
  String.ofList (byteDigits byte)

def hexByteSmall (byte : UInt8) : String :=
  String.ofList (smallByteDigits byte)

/-- Bytes in capital digits, one space between two of them. -/
def spacedBytes (bytes : List UInt8) : String :=
  " ".intercalate (bytes.map hexByte)

def joinedBytes (bytes : List UInt8) : String :=
  String.join (bytes.map hexByte)

def hexSmall (value : Nat) : String :=
  String.ofList (Nat.toDigits 16 value)

/-- The four bits of a value below sixteen, and more if it takes more. -/
def nibbleBits (value : Nat) : String :=
  String.ofList ((Nat.toDigits 2 value).leftpad 4 '0')

theorem hexByte_toList (byte : UInt8) : (hexByte byte).toList = byteDigits byte := by
  simp [hexByte]

theorem hexByteSmall_toList (byte : UInt8) : (hexByteSmall byte).toList = smallByteDigits byte := by
  simp [hexByteSmall]

end FlowDisasm.Text
