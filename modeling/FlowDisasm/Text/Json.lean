/-!
# JSON documents

Reports are written as JSON with two blanks of indentation a level and one member a line. Only what
reports consist of can be written: texts, natural numbers, lists and objects whose members keep their
order.
-/
namespace FlowDisasm.Text

/-- A value of a report. -/
inductive Json where
  | text (value : String)
  | number (value : Nat)
  | list (items : List Json)
  | object (members : List (String × Json))

namespace Json

def controlDigits (c : Char) : String :=
  String.ofList ((Nat.toDigits 16 c.toNat).leftpad 4 '0')

def escaped (c : Char) : String :=
  if c = '"' then "\\\""
  else if c = '\\' then "\\\\"
  else if c = '\x08' then "\\b"
  else if c = '\x0c' then "\\f"
  else if c = '\n' then "\\n"
  else if c = '\r' then "\\r"
  else if c = '\t' then "\\t"
  else if c.toNat < 0x20 then "\\u" ++ controlDigits c
  else String.singleton c

def quote (text : String) : String :=
  "\"" ++ String.join (text.toList.map escaped) ++ "\""

def lineStart (depth : Nat) : String :=
  "\n" ++ String.ofList (List.replicate (2 * depth) ' ')

/-- Members of a list or an object between its brackets, one a line. -/
def bracketed (opening closing : String) (depth : Nat) (lines : List String) : String :=
  if lines.isEmpty then opening ++ closing
  else
    opening ++ ",".intercalate (lines.map (lineStart (depth + 1) ++ ·)) ++ lineStart depth ++ closing

mutual

def render (depth : Nat) : Json → String
  | text value => quote value
  | number value => toString value
  | list items => bracketed "[" "]" depth (renderItems (depth + 1) items)
  | object members => bracketed "\x7b" "\x7d" depth (renderMembers (depth + 1) members)

def renderItems (depth : Nat) : List Json → List String
  | [] => []
  | item :: items => item.render depth :: renderItems depth items

def renderMembers (depth : Nat) : List (String × Json) → List String
  | [] => []
  | (name, value) :: members =>
    (quote name ++ ": " ++ value.render depth) :: renderMembers depth members

end

def document (value : Json) : String :=
  value.render 0 ++ "\n"

end Json

end FlowDisasm.Text
