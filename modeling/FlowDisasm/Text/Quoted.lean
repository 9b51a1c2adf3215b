import FlowDisasm.Text.Hex

/-!
# Quoted names

Names of symbol files are Latin-1 text. In messages they stand between double quotes, with the control
characters and the invisible characters of that range written as escapes.
-/
namespace FlowDisasm.Text

/-- The characters of the Latin-1 range that leave no mark on paper. -/
def isInvisible (c : Char) : Bool :=
  let code := c.toNat
  code < 0x20 || (0x7F ≤ code && code ≤ 0xA0) || code == 0xAD

def quotedChar (c : Char) : String :=
  if c = '\x00' then "\\0"
  else if c = '\t' then "\\t"
  else if c = '\r' then "\\r"
  else if c = '\n' then "\\n"
  else if c = '"' then "\\\""
  else if c = '\\' then "\\\\"
  else if isInvisible c then "\\u\x7b" ++ hexSmall c.toNat ++ "\x7d"
  else String.singleton c

def quoted (name : String) : String :=
  "\"" ++ String.join (name.toList.map quotedChar) ++ "\""

end FlowDisasm.Text
