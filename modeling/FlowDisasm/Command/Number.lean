import FlowDisasm.Command.Failure
import FlowDisasm.Text.Blank

/-!
# Numbers in arguments

A number is a row of decimal digits, or of hexadecimal ones behind their mark. Blanks around it and one
plus sign in front of the digits are allowed, and so is any number of leading zeros; the value has to fit
in 32 bits.
-/
namespace FlowDisasm.Command

/-- The value of a digit of a radix up to sixteen. -/
def digit? (radix : Nat) (c : Char) : Option Nat :=
  let code := c.toNat
  let value? :=
    if 0x30 ≤ code && code ≤ 0x39 then some (code - 0x30)
    else if 0x41 ≤ code && code ≤ 0x46 then some (code - 0x37)
    else if 0x61 ≤ code && code ≤ 0x66 then some (code - 0x57)
    else none
  value?.filter (· < radix)

/-- The number of a row of digits behind others that make a value; the first fault in the row counts. -/
def readDigits (radix : Nat) (value : Nat) : List Char → Except DigitFault Nat
  | [] => .ok value
  | c :: rest =>
    match digit? radix c with
    | none => .error .notDigit
    | some digit =>
      let value := value * radix + digit
      if value < UInt32.size then readDigits radix value rest else .error .tooLarge

def readUnsigned (radix : Nat) : List Char → Except DigitFault Nat
  | [] => .error .empty
  | ['+'] => .error .notDigit
  | '+' :: digits => readDigits radix 0 digits
  | digits => readDigits radix 0 digits

/-- The number that an argument spells, without its context. -/
def readTrimmed : List Char → Bool × Except DigitFault Nat
  | '0' :: 'x' :: digits | '0' :: 'X' :: digits => (true, readUnsigned 16 digits)
  | digits => (false, readUnsigned 10 digits)

def readNumber (text : String) : Except Failure UInt32 :=
  match readTrimmed (Text.trim text.toList) with
  | (_, .ok value) => .ok (UInt32.ofNat value)
  | (hexadecimal, .error fault) => .error (.number text hexadecimal fault)

end FlowDisasm.Command
