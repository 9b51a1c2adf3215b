import FlowDisasm.Proofs.Listing.Labels
import FlowDisasm.Proofs.X86.Mnemonics

/-!
# Listings as plain text

A listing is plain text if the names in it are printable, but for one thing: in the comment of a row of data the
control character that is above all printable ones is shown as it is. All other bytes that are no printable characters
are escaped there. So the control character is in a listing if and only if a row of data has its byte.
-/
namespace FlowDisasm

open Text (Plain PlainBut IsPrintable plain_append plain_join plain_intercalate plain_of_printable)

/-! ## Service calls -/

namespace ServiceCall

theorem plain_driver? {number : UInt16} {name : String} (h : ServiceName.driver? number = some name) : Plain name := by
  have hall : ∀ name ∈ ServiceName.drivers, Plain name := by decide +kernel
  unfold ServiceName.driver? at h
  split at h
  · cases h
  · exact hall name (List.mem_of_getElem? h)

theorem plain_managerService? {number : UInt16} {name : String} (h : ServiceName.managerService? number = some name) :
    Plain name := by
  have hall : ∀ name ∈ ServiceName.managerServices, Plain name := by decide +kernel
  exact hall name (List.mem_of_getElem? h)

/-- What is said about a call between drivers is plain. -/
theorem plain_describeDriverCall {data : List UInt8} {text : String} (h : describeDriverCall data = some text) :
    Plain text := by
  unfold describeDriverCall at h
  split at h
  case h_2 => cases h
  case h_1 =>
    dsimp only at h
    obtain rfl := Option.some.inj h
    simp only [plain_append, Text.plain_hexPadded, and_true]
    refine ⟨⟨by decide, by decide⟩, plain_join fun text htext => ?_⟩
    obtain ⟨name, hname, rfl⟩ := List.mem_map.mp htext
    refine plain_append.mpr ⟨by decide, ?_⟩
    rcases List.mem_append.mp hname with hdriver | hservice
    · exact plain_driver? (Option.mem_toList.mp hdriver)
    · rw [Option.mem_toList] at hservice
      split at hservice
      · exact plain_managerService? hservice
      · cases hservice

end ServiceCall

/-- The convention of calls between drivers, or none. -/
def Subject.DriverCalls (subject : Subject) : Prop :=
  subject.service = none ∨ ∃ vector, subject.service = some (ServiceCall.driverCall vector)

def Exploration.PlainNames (state : Exploration) : Prop :=
  ∀ offset, ∀ name ∈ state.labelFor offset, Plain name

theorem plain_synthesizedLabel (offset : UInt32) : Plain (synthesizedLabel offset) :=
  plain_append.mpr ⟨by decide, Text.plain_hexPadded _ _⟩

theorem SegmentedAddress.plain_text (address : SegmentedAddress) : Plain address.text := by
  simp only [text, plain_append, Text.plain_hexPadded, and_true, true_and]
  decide

namespace Listing

variable {layout : Layout} {subject : Subject} {state : Exploration} {offset : UInt32} {visit : Visit} {code : Code}
  {entry : Entry} {entries : List Entry} {visits : List (UInt32 × Visit)}

/-! ## Instructions -/

/-- What is shown of a visited instruction is plain. -/
theorem codeOf_plain (hservice : subject.DriverCalls) (hnames : state.PlainNames)
    (h : codeOf subject state offset visit = .ok code) : Plain code.text ∧ Plain code.annotation := by
  obtain ⟨instruction, hread, -, htext, hremark⟩ := codeOf_eq_ok h
  constructor
  · rw [htext]
    refine X86.decode_plain hread fun name hname => ?_
    obtain ⟨target, -, hlabel⟩ := Option.bind_eq_some_iff.mp hname
    exact hnames target name hlabel
  · rcases hremark with ⟨-, -, hnone⟩ | ⟨count, data, -, -, -, hremark⟩
    · rw [hnone]
      exact Text.plain_empty
    · rw [hremark]
      rcases hservice with hnone | ⟨vector, hvector⟩
      · simp [hnone]
      · rw [hvector]
        change Plain ((ServiceCall.describeDriverCall data).getD "")
        cases hdescribed : ServiceCall.describeDriverCall data with
        | none => simp
        | some text => exact ServiceCall.plain_describeDriverCall hdescribed

theorem codeOf_of_mem (h : entriesOf subject state visits = .ok entries) (hentry : entry ∈ entries) :
    codeOf subject state entry.offset entry.visit = .ok entry.code := by
  induction visits generalizing entries with
  | nil =>
    obtain rfl := Except.ok.inj h
    cases hentry
  | cons visited rest ih =>
    obtain ⟨code, others, hcode, hothers, rfl⟩ := entriesOf_cons h
    rcases List.mem_cons.mp hentry with rfl | hentry
    · exact hcode
    · exact ih hothers hentry

theorem Code.plain_rendered (htext : Plain code.text) (hremark : Plain code.annotation) (length : Nat) :
    Plain (code.rendered length) := by
  have hrows (distance : Nat) (rows : List (List UInt8)) :
      ∀ text ∈ code.rowTexts length distance rows, Plain text := by
    induction rows generalizing distance with
    | nil => exact List.forall_mem_nil _
    | cons row rows ih =>
      refine List.forall_mem_cons.mpr ⟨?_, ih _⟩
      simp +decide [rowText, SegmentedAddress.plain_text]
  have hfilling : Plain (code.filling length) := by
    unfold filling
    dsimp only
    split <;> simp
  simp only [rendered, plain_append, hfilling, htext, hremark, and_true]
  exact ⟨⟨plain_intercalate (by decide) (hrows _ _), by decide⟩, by decide⟩

/-! ## Rows of data -/

/-- The comment of a row of data: printable characters as they are, and so the control character above them, and
escapes for all other bytes. -/
inductive Comments : List UInt8 → String → Prop
  | nil : Comments [] ""
  | printable {byte : UInt8} {bytes : List UInt8} {comment : String} (h : IsPrintable (Char.ofNat byte.toNat))
      (rest : Comments bytes comment) :
      Comments (byte :: bytes) (String.singleton (Char.ofNat byte.toNat) ++ comment)
  | delete {bytes : List UInt8} {comment : String} (rest : Comments bytes comment) :
      Comments (0x7F :: bytes) (String.singleton Text.delete ++ comment)
  | escaped {byte : UInt8} {bytes : List UInt8} {comment : String} (h : byte < 0x20 ∨ 0x7F < byte)
      (rest : Comments bytes comment) : Comments (byte :: bytes) ("\\x" ++ Text.hexByte byte ++ comment)

theorem comments_join (bytes : List UInt8) : Comments bytes (String.join (bytes.map commentByte)) := by
  have hcode : ∀ code : Fin 128, (Char.ofNat code.val).toNat = code.val := by decide
  induction bytes with
  | nil => exact .nil
  | cons byte bytes ih =>
    rw [List.map_cons, String.join_cons, commentByte]
    by_cases hshown : 0x20 ≤ byte ∧ byte ≤ 0x7F
    · rw [if_pos (by simpa using hshown)]
      by_cases hdelete : byte = 0x7F
      · subst hdelete
        exact .delete ih
      · have hlow : 32 ≤ byte.toNat := UInt8.le_iff_toNat_le.mp hshown.1
        have hhigh : byte.toNat ≤ 127 := UInt8.le_iff_toNat_le.mp hshown.2
        have hne : byte.toNat ≠ 127 := fun h => hdelete (UInt8.toNat_inj.mp h)
        have hsame : (Char.ofNat byte.toNat).toNat = byte.toNat := hcode ⟨byte.toNat, by omega⟩
        refine .printable ?_ ih
        rw [IsPrintable, hsame]
        omega
    · rw [if_neg (by simpa using hshown)]
      refine .escaped ?_ ih
      rwa [not_and_or, UInt8.not_le, UInt8.not_le] at hshown

/-- The control character is in a comment just if the row has its byte. -/
theorem Comments.plainBut {bytes : List UInt8} {comment : String} (h : Comments bytes comment) :
    PlainBut (0x7F ∈ bytes) comment := by
  induction h with
  | nil => exact Text.plain_empty.but.congr (by simp)
  | @printable byte bytes comment hprintable _ ih =>
    have hbyte : 0x7F ≠ byte := by
      rintro rfl
      exact absurd hprintable (by decide)
    have hfront : Plain (String.singleton (Char.ofNat byte.toNat)) :=
      plain_of_printable (by simpa using hprintable)
    exact (hfront.but.append ih).congr (by simp [hbyte])
  | @delete bytes comment _ ih =>
    have hfront : PlainBut True (String.singleton Text.delete) := ⟨by simp, by simp⟩
    exact (hfront.append ih).congr (by simp)
  | @escaped byte bytes comment hrange _ ih =>
    have hbyte : 0x7F ≠ byte := by
      rintro rfl
      exact absurd hrange (by decide)
    have hfront : Plain ("\\x" ++ Text.hexByte byte) := plain_append.mpr ⟨by decide, Text.plain_hexByte byte⟩
    exact (hfront.but.append ih).congr (by simp [hbyte])

/-- A row of data is plain but for its comment. -/
theorem dataText_eq (offset : Nat) (bytes : List UInt8) :
    ∃ front, Plain front ∧ dataText offset bytes = front ++ String.join (bytes.map commentByte) ++ "'\n" := by
  refine ⟨"\tDB\t" ++ ",".intercalate (bytes.map fun byte => "0x" ++ Text.hexByte byte) ++ "\t; " ++
    Text.hexPadded 6 offset ++ " '", ?_, rfl⟩
  have hliterals : Plain (",".intercalate (bytes.map fun byte => "0x" ++ Text.hexByte byte)) := by
    refine plain_intercalate (by decide) fun text htext => ?_
    obtain ⟨byte, -, rfl⟩ := List.mem_map.mp htext
    exact plain_append.mpr ⟨by decide, Text.plain_hexByte byte⟩
  simp +decide [hliterals]

/-! ## Items -/

def Item.isData : Item → Bool
  | data _ _ => true
  | _ => false

theorem plain_labelName (hnames : state.PlainNames) (offset : UInt32) : Plain (labelName state offset) := by
  unfold labelName
  cases hname : state.labelFor offset with
  | none => exact plain_synthesizedLabel offset
  | some name => exact hnames offset name hname

/-- Whatever is no row of data is plain. -/
theorem Listed.plain_items {block : Block} {item : Item} (h : Listed subject state entries)
    (hservice : subject.DriverCalls) (hnames : state.PlainNames)
    (hblock : block ∈ blocksFrom subject.image.base.toNat entries)
    (hitem : item ∈ Block.items layout subject state block) (hdata : item.isData = false) :
    Plain (item.text layout) := by
  have hlabel (offset : UInt32) : Plain (Item.text layout (.label (labelName state offset))) := by
    simp +decide [Item.text, plain_labelName hnames]
  have hrows (offset : Nat) (rows : List (List UInt8)) : ∀ item ∈ dataItems layout.rowLength offset rows,
      item.isData = true := by
    induction rows generalizing offset with
    | nil => exact List.forall_mem_nil _
    | cons row rows ih => exact List.forall_mem_cons.mpr ⟨rfl, ih _⟩
  cases block with
  | gap start size =>
    rcases List.mem_cons.mp hitem with rfl | hbody
    · exact hlabel _
    · unfold gapBody at hbody
      split at hbody
      · rw [List.mem_singleton.mp hbody]
        simp +decide [Item.text]
      · rw [hrows _ _ item hbody] at hdata
        cases hdata
  | code entry =>
    rcases List.mem_append.mp hitem with hlabels | hcode
    · unfold labelItems at hlabels
      split at hlabels
      · rw [List.mem_singleton.mp hlabels]
        exact hlabel _
      · cases hlabels
    · rw [List.mem_singleton.mp hcode]
      obtain ⟨htext, hremark⟩ := codeOf_plain hservice hnames
        (codeOf_of_mem h.found (mem_blocksFrom.mp hblock))
      exact Code.plain_rendered htext hremark _

/-- The control character is in an item just if this is a row of data with its byte. -/
theorem Item.plainBut {item : Item} (h : item.isData = false → Plain (item.text layout)) :
    PlainBut (∃ offset bytes, item = .data offset bytes ∧ 0x7F ∈ bytes) (item.text layout) := by
  cases item with
  | data offset bytes =>
    obtain ⟨front, hfront, htext⟩ := dataText_eq offset bytes
    have hend : Plain "'\n" := by decide
    rw [Item.text, htext]
    exact ((hfront.but.append (comments_join bytes).plainBut).append hend.but).congr (by simp)
  | _ => exact (h rfl).but.congr (by simp)

/-- What the text of a listing is made of. -/
structure PlainListing (layout : Layout) (subject : Subject) (state : Exploration) (printed : List Item)
    (text : String) : Prop where
  listed : items layout subject state = .ok printed
  rendered : render layout subject state = .ok text
  joined : text = String.join (printed.map (Item.text layout))
  /-- Labels, instructions with what is said about their data, and sizes of gaps are plain. -/
  plain : ∀ item ∈ printed, item.isData = false → Plain (item.text layout)
  /-- A row of data is plain but for its comment, which shows it byte by byte. -/
  rows : ∀ offset bytes, .data offset bytes ∈ printed → ∃ front comment, Plain front ∧ Comments bytes comment ∧
    Item.text layout (.data offset bytes) = front ++ comment ++ "'\n"
  /-- All characters are plain but for the control character, which is there just if a row of data has its byte. -/
  characters : PlainBut (∃ offset bytes, .data offset bytes ∈ printed ∧ 0x7F ∈ bytes) text

theorem Listed.plainListing (h : Listed subject state entries) (hservice : subject.DriverCalls)
    (hnames : state.PlainNames) (layout : Layout) :
    ∃ printed text, PlainListing layout subject state printed text := by
  have hitems : ∀ item ∈ (blocksFrom subject.image.base.toNat entries).flatMap (Block.items layout subject state),
      item.isData = false → Plain (item.text layout) := by
    intro item hitem hdata
    obtain ⟨block, hblock, hitem⟩ := List.mem_flatMap.mp hitem
    exact h.plain_items hservice hnames hblock hitem hdata
  refine ⟨_, _, h.items_eq layout, h.render_eq layout, rfl, hitems, fun offset bytes _ => ?_, ?_⟩
  · obtain ⟨front, hfront, htext⟩ := dataText_eq offset bytes
    exact ⟨front, _, hfront, comments_join bytes, htext⟩
  · refine (PlainBut.join fun item hitem => Item.plainBut (hitems item hitem)).congr ⟨?_, ?_⟩
    · rintro ⟨item, hitem, offset, bytes, rfl, hbyte⟩
      exact ⟨offset, bytes, hitem, hbyte⟩
    · rintro ⟨offset, bytes, hitem, hbyte⟩
      exact ⟨_, hitem, offset, bytes, rfl, hbyte⟩

end Listing

namespace Session

theorem run_plainNames {history : List Request} (subject : Subject)
    (h : ∀ offset, ∀ name ∈ lastName? history offset, ∀ c ∈ name.toList, IsPrintable c) :
    (run subject history).state.PlainNames := by
  intro offset name hname
  unfold Exploration.labelFor at hname
  rw [run_labels] at hname
  split at hname
  case h_1 named hlast =>
    obtain rfl := Option.some.inj hname
    exact plain_of_printable (h offset named hlast)
  case h_2 =>
    split at hname
    · obtain rfl := Option.some.inj hname
      exact plain_synthesizedLabel offset
    · cases hname
  case h_3 => cases hname

/-- After analyses that did not fail, with the convention of calls between drivers or none, and with printable names,
a listing is plain text but for one control character. -/
theorem listing_plain (layout : Listing.Layout) (subject : Subject) (history : List Request)
    (hservice : subject.DriverCalls) (herrors : (run subject history).errors = [])
    (hnames : ∀ offset, ∀ name ∈ lastName? history offset, ∀ c ∈ name.toList, IsPrintable c) :
    ∃ printed text, Listing.PlainListing layout subject (run subject history).state printed text := by
  obtain ⟨entries, hlisted⟩ := run_listed herrors
  exact hlisted.plainListing hservice (run_plainNames subject hnames) layout

def deleting : Subject where
  image := ⟨0, ⟨#[0xC3, 0x7F, 0xC3]⟩⟩
  cpu := .i80386
  service := none

def deletingHistory : List Request := [.root 0 .real16 none, .root 2 .real16 (some "Second"), .analyze]

theorem deletingHistory_named (offset : UInt32) :
    ∀ name ∈ lastName? deletingHistory offset, ∀ c ∈ name.toList, IsPrintable c := by
  intro name hname
  obtain ⟨request, hrequest, hnamed⟩ := List.mem_filterMap.mp (List.mem_of_getLast? hname)
  simp only [deletingHistory, List.mem_cons, List.not_mem_nil, or_false] at hrequest
  rcases hrequest with rfl | rfl | rfl
  · simp [Request.nameFor?] at hnamed
  · obtain rfl : "Second" = name := by
      simp only [Request.nameFor?] at hnamed
      split at hnamed
      · exact Option.some.inj hnamed
      · cases hnamed
    simp [IsPrintable]
  · cases hnamed

theorem listing_plain_deleting : (run deleting deletingHistory).errors = [] ∧
    ∃ printed text, Listing.PlainListing {} deleting (run deleting deletingHistory).state printed text := by
  have herrors : (run deleting deletingHistory).errors = [] := by decide +kernel
  exact ⟨herrors, listing_plain {} deleting deletingHistory (.inl rfl) herrors deletingHistory_named⟩

/-- The comment of the row between the returns has the control character. -/
theorem listing_not_plain : ¬ ∀ (layout : Listing.Layout) (subject : Subject) (history : List Request) (text : String),
    subject.DriverCalls → (run subject history).errors = [] →
      (∀ offset, ∀ name ∈ lastName? history offset, ∀ c ∈ name.toList, IsPrintable c) →
      Listing.render layout subject (run subject history).state = .ok text → Plain text := by
  intro h
  have hdelete : ((Listing.render {} deleting (run deleting deletingHistory).state).toOption.map
      fun text => text.toList.contains Text.delete) = some true := by
    decide +kernel
  obtain ⟨text, hrender, hcontains⟩ := exists_of_facts hdelete
  have hplain := h {} deleting deletingHistory text (.inl rfl) (by decide +kernel) deletingHistory_named hrender
  exact hplain.delete_not_mem (List.contains_iff_mem.mp hcontains)

end Session

end FlowDisasm
