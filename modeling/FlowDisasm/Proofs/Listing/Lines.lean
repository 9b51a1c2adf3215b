import FlowDisasm.Proofs.Bytes.Rows
import FlowDisasm.Proofs.Listing.Rendering
import FlowDisasm.Proofs.Text.Hex

/-!
# What the lines of a listing say

What an item of a listing stands for can be read off its lines: the name of a label, the size of what is
left out, the bytes of a row and where it begins, the bytes of an instruction row by row with its text behind
them. The text of a listing is made of such lines, item by item.
-/
namespace FlowDisasm.Listing

/-- Capital digits, one at least, and the number that they spell. -/
structure Spells (digits : String) (number : Nat) : Prop where
  nonempty : digits ≠ ""
  capital : ∀ digit ∈ digits.toList, digit ∈ Text.capitalDigits
  value : Text.hexValue digits.toList = number

def IsLabel (name text : String) : Prop := text = "\t" ++ name ++ ":\n"

/-- The line that stands for bytes that are left out. -/
def IsOmission (size : Nat) (text : String) : Prop :=
  ∃ digits, Spells digits size ∧ text = "; Skipping 0x" ++ digits ++ " bytes\n"

/-- A row of data: a literal of two digits for each byte, the offset of the first one and a comment. -/
def IsDataRow (offset : Nat) (bytes : List UInt8) (text : String) : Prop :=
  ∃ literals digits comment,
    List.Forall₂ (fun literal byte => literal.length = 2 ∧ Spells literal byte.toNat) literals bytes ∧
    Spells digits offset ∧
    text = "\tDB\t" ++ ",".intercalate (literals.map ("0x" ++ ·)) ++ "\t; " ++ digits ++ " '" ++ comment ++ "'\n"

/-- The rows of an instruction: in each an address and a column of digits, two for a byte, and behind the
last one the text. -/
def IsCode (length : Nat) (shown : Code) (text : String) : Prop :=
  ∃ columns filling,
    columns.flatMap (fun column => Text.spelledBytes column.toList) = shown.bytes ∧
    (String.join columns).length = 2 * shown.bytes.length ∧
    text = "\n".intercalate (columns.mapIdx fun index column =>
        Text.aligned .left 22 (shown.address.advance (UInt32.ofNat (index * length))).text ++ " " ++ column) ++
      Text.blanks filling ++ " " ++ shown.text ++ shown.annotation ++ "\n"

/-- What a text says if it stands for an item. -/
def Item.IsText (layout : Layout) : Item → String → Prop
  | label name => IsLabel name
  | skipped size => IsOmission size
  | data offset bytes => IsDataRow offset bytes
  | code shown => IsCode layout.rowLength shown

/-- A listing is rendered as items if its text is made of one text for each of them. -/
def RenderedAs (layout : Layout) (subject : Subject) (state : Exploration) (printed : List Item) : Prop :=
  ∃ texts, List.Forall₂ (Item.IsText layout) printed texts ∧
    render layout subject state = .ok (String.join texts)

variable {layout : Layout} {subject : Subject} {state : Exploration} {entries : List Entry}

/-! ## Numbers -/

theorem spells_hex (number : Nat) : Spells (Text.hex number) number := by
  have hdigits : (Text.hex number).toList = Text.hexDigits number := String.toList_ofList
  refine ⟨fun hempty => ?_, ?_, ?_⟩
  · have hnil : Text.hexDigits number = [] := by rw [← hdigits, hempty, String.toList_empty]
    exact Nat.toDigits_ne_nil (List.map_eq_nil_iff.mp hnil)
  · rw [hdigits]
    exact fun digit => Text.mem_capitalDigits_of_mem_hexDigits
  · rw [hdigits, Text.hexValue_hexDigits]

theorem spells_hexPadded (width number : Nat) : Spells (Text.hexPadded width number) number := by
  refine ⟨fun hempty => ?_, fun digit => Text.mem_capitalDigits_of_mem_hexPadded, Text.hexValue_hexPadded _ _⟩
  have hlength := Text.length_toList_hexPadded width number
  have hpos := List.length_pos_of_ne_nil (Nat.toDigits_ne_nil (b := 16) (n := number))
  rw [hempty, String.toList_empty, List.length_nil] at hlength
  omega

theorem spells_hexByte (byte : UInt8) : (Text.hexByte byte).length = 2 ∧ Spells (Text.hexByte byte) byte.toNat := by
  have hlength : (Text.hexByte byte).length = 2 := String.length_ofList
  refine ⟨hlength, fun hempty => ?_, ?_, ?_⟩
  · rw [hempty] at hlength
    cases hlength
  · rw [Text.hexByte_toList]
    exact fun digit => Text.mem_capitalDigits_of_mem_byteDigits
  · rw [Text.hexByte_toList, Text.hexValue_byteDigits]

/-! ## Rows -/

/-- Every line of an instruction is an address and a hex column. -/
theorem rowTexts_eq_mapIdx (code : Code) (length distance : Nat) (rows : List (List UInt8)) :
    code.rowTexts length distance rows =
      (rows.map Text.joinedBytes).mapIdx fun index column =>
        Text.aligned .left Code.addressColumn
          (code.address.advance (UInt32.ofNat (distance + index * length))).text ++ " " ++ column := by
  induction rows generalizing distance with
  | nil => rfl
  | cons row rows ih =>
    rw [Code.rowTexts, ih, List.map_cons, List.mapIdx_cons, Nat.zero_mul, Nat.add_zero, Code.rowText]
    simp only [Nat.succ_mul, Nat.add_assoc, Nat.add_comm length]

theorem join_map_joinedBytes (rows : List (List UInt8)) :
    String.join (rows.map Text.joinedBytes) = Text.joinedBytes rows.flatten := by
  induction rows with
  | nil => rfl
  | cons row rows ih =>
    rw [List.map_cons, String.join_cons, ih, List.flatten_cons, Text.joinedBytes, Text.joinedBytes,
      Text.joinedBytes, List.map_append, String.join_append]

theorem isDataRow (offset : Nat) (bytes : List UInt8) : IsDataRow offset bytes (dataText offset bytes) := by
  refine ⟨bytes.map Text.hexByte, Text.hexPadded 6 offset, String.join (bytes.map commentByte), ?_,
    spells_hexPadded 6 offset, ?_⟩
  · rw [List.forall₂_map_left_iff, List.forall₂_same]
    exact fun byte _ => spells_hexByte byte
  · rw [List.map_map]
    rfl

theorem exists_filling (shown : Code) (length : Nat) : ∃ count, shown.filling length = Text.blanks count := by
  unfold Code.filling
  dsimp only
  split
  · exact ⟨0, rfl⟩
  · exact ⟨_, rfl⟩

theorem isCode (length : Nat) (shown : Code) : IsCode length shown (shown.rendered length) := by
  obtain ⟨filling, hfilling⟩ := exists_filling shown length
  refine ⟨(Bytes.rows length shown.bytes).map Text.joinedBytes, filling, ?_, ?_, ?_⟩
  · simp only [List.flatMap_map, Text.spelledBytes_joinedBytes]
    rw [List.flatMap_id', Bytes.flatten_rows]
  · rw [join_map_joinedBytes, Bytes.flatten_rows, Text.length_joinedBytes]
  · rw [Code.rendered, rowTexts_eq_mapIdx, hfilling]
    simp only [Nat.zero_add, Code.addressColumn]

/-! ## Items -/

theorem Item.isText (layout : Layout) (item : Item) : item.IsText layout (item.text layout) := by
  cases item with
  | label name => rfl
  | skipped size => exact ⟨_, spells_hex size, rfl⟩
  | data offset bytes => exact isDataRow offset bytes
  | code shown => exact isCode layout.rowLength shown

theorem Listed.renderedAs (h : Listed subject state entries) (layout : Layout) :
    RenderedAs layout subject state
      ((blocksFrom subject.image.base.toNat entries).flatMap (Block.items layout subject state)) := by
  refine ⟨_, ?_, h.render_eq layout⟩
  rw [List.forall₂_map_right_iff, List.forall₂_same]
  exact fun item _ => item.isText layout

end FlowDisasm.Listing
