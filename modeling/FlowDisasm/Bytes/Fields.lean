import FlowDisasm.Bytes.Word

/-!
# Fields in a row

Headers and table entries are words one after the other without gaps. A layout takes its fields from the
front of a byte list in order and returns what is left, so writing the fields back in the same order
gives the bytes that were taken.
-/
namespace FlowDisasm.Bytes

/-- Fields taken from the front of a byte list. -/
abbrev Layout (α : Type) := StateT (List UInt8) Option α

def field {α : Type} [Word α] : Layout α := fun bytes =>
  let width := Word.width α
  let front := bytes.take width
  if front.length = width then some (decode front, bytes.drop width) else none

/-- The fields of a layout, when the bytes may go on behind them. -/
def Layout.read? {α : Type} (layout : Layout α) (bytes : List UInt8) : Option α :=
  (layout bytes).map Prod.fst

/-- Entries of one layout, a given number of them. -/
def Layout.repeat {α : Type} (layout : Layout α) : Nat → Layout (List α)
  | 0 => pure []
  | count + 1 => do
    let entry ← layout
    let rest ← layout.repeat count
    return entry :: rest

theorem field_encode {α : Type} [Word α] (word : α) (rest : List UInt8) :
    field (encode word ++ rest) = some (word, rest) := by
  have htake : (encode word ++ rest).take (Word.width α) = encode word :=
    List.take_left' (length_encode word)
  have hdrop : (encode word ++ rest).drop (Word.width α) = rest :=
    List.drop_left' (length_encode word)
  simp [field, htake, hdrop, decode_encode, length_encode]

/-- A field takes the word in front and leaves the rest to what follows it. -/
theorem field_bind_encode {α β : Type} [Word α] (word : α) (rest : List UInt8)
    (following : α → Layout β) :
    (field >>= following) (encode word ++ rest) = following word rest := by
  change (field (encode word ++ rest) >>= fun taken => following taken.1 taken.2) = _
  rw [field_encode]
  rfl

end FlowDisasm.Bytes
