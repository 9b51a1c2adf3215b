import FlowDisasm.Proofs.Module.Refusals

/-!
# Headers written back

The headers of a file and the entries of its tables have fixed layouts that cover their bytes without gaps. So what
is read can be written back to the same bytes, what is written is read as it was, and data is refused only if there
is too little of it or if it starts with the wrong letters.
-/
namespace FlowDisasm

namespace Bytes

variable {α : Type} {data front : Array UInt8} {start size count : Nat} {layout : Layout α}
  {written : α → List UInt8} {value : α}

theorem range?_eq_some_iff_take {bytes : List UInt8} : range? data start size = some bytes ↔
    start + size ≤ data.size ∧ (data.toList.drop start).take size = bytes := by
  have hextract : (data.extract start (start + size)).toList = (data.toList.drop start).take size := by
    rw [Array.toList_extract, List.extract_eq_take_drop, Nat.add_sub_cancel_left]
  rw [range?, hextract]
  split
  case isTrue hfits => simp only [Option.some.injEq, hfits, true_and]
  case isFalse hbehind => simp only [reduceCtorEq, hbehind, false_and]

theorem range?_start_eq_some_iff {bytes : List UInt8} :
    range? data 0 size = some bytes ↔ size ≤ data.size ∧ data.toList.take size = bytes := by
  rw [range?_eq_some_iff_take, Nat.zero_add, List.drop_zero]

/-- What is read of the rest of an array is what stands behind its start. -/
theorem range?_extract (h : start ≤ data.size) (place count : Nat) :
    range? (data.extract start data.size) place count = range? data (start + place) count := by
  by_cases hfits : start + place + count ≤ data.size
  · have hrest : place + count ≤ (data.extract start data.size).size := by
      rw [Array.size_extract]
      omega
    rw [range?, range?, if_pos hfits, if_pos hrest, Array.extract_extract]
    congr 3
    omega
  · have hrest : ¬place + count ≤ (data.extract start data.size).size := by
      rw [Array.size_extract]
      omega
    rw [range?, range?, if_neg hfits, if_neg hrest]

/-- What stands behind other data is read at its own place there. -/
theorem range?_behind (front data : Array UInt8) (start count : Nat) :
    range? (front ++ data) (front.size + start) count = range? data start count := by
  have hfront : front.size ≤ (front ++ data).size := by simp
  have hdata : (front ++ data).extract front.size (front ++ data).size = data := by simp
  rw [← range?_extract hfront, hdata]

theorem read?_behind [Word α] (front data : Array UInt8) (start : Nat) :
    (read? (front ++ data) (front.size + start) : Option α) = read? data start := by
  rw [read?, range?_behind, read?]

/-- A structure of a fixed size is the one whose bytes it is made of. -/
theorem Layout.Spells.bind_read?_eq_some_iff (h : layout.Spells written)
    (hsize : ∀ value, (written value).length = size) :
    (range? data start size).bind layout.read? = some value ↔
      range? data start size = some (written value) := by
  simp only [Option.bind_eq_some_iff, Layout.read?, Option.map_eq_some_iff, Prod.exists,
    exists_and_right, exists_eq_right, h _ _ _]
  constructor
  · rintro ⟨bytes, hbytes, rest, rfl⟩
    have hall := length_of_range? hbytes
    rw [List.length_append, hsize] at hall
    obtain rfl : rest = [] := List.eq_nil_of_length_eq_zero (by omega)
    rw [hbytes, List.append_nil]
  · intro hbytes
    exact ⟨_, hbytes, [], (List.append_nil _).symm⟩

/-- An entry of a table stands behind those with smaller numbers. -/
theorem range?_entry {entries : List α} {index : Nat} (hsize : ∀ value, (written value).length = size)
    (h : range? data start (size * count) = some (entries.flatMap written))
    (hentry : entries[index]? = some value) :
    range? data (start + size * index) size = some (written value) := by
  obtain ⟨hindex, rfl⟩ := List.getElem?_eq_some_iff.mp hentry
  have hsplit : entries.flatMap written = (entries.take index).flatMap written ++
      (written entries[index] ++ (entries.drop (index + 1)).flatMap written) := by
    rw [← List.flatMap_cons, ← List.flatMap_append, List.getElem_cons_drop, List.take_append_drop]
  have hfront : ((entries.take index).flatMap written).length = size * index := by
    rw [length_flatMap_written hsize, List.length_take, Nat.min_eq_left hindex.le]
  have hall : size * count =
      size * index + (size + ((entries.drop (index + 1)).flatMap written).length) := by
    have hlength := length_of_range? h
    rw [hsplit, List.length_append, List.length_append, hfront, hsize] at hlength
    exact hlength.symm
  rw [hsplit, hall] at h
  exact ((range?_append (hsize _)).mp ((range?_append hfront).mp h).2).1

/-- Data starts with the bytes of a word if that is the word at its start. -/
theorem encode_prefix_iff [Word α] {word : α} (h : read? data 0 = some word) :
    encode value <+: data.toList ↔ word = value := by
  obtain ⟨-, hstart⟩ := range?_start_eq_some_iff.mp (read?_eq_some_iff.mp h)
  rw [List.prefix_iff_eq_take, length_encode, hstart]
  constructor
  · intro hsame
    rw [← decode_encode word, ← hsame, decode_encode]
  · exact congrArg encode ∘ Eq.symm

end Bytes

namespace Module

open Bytes (Layout encode)
open Bytes.Layout (Accepts Recovers Spells field_spells)

/-- A reader of the bytes of values, which all have one size and some of which start with letters of their own. It
accepts any data that is large enough and starts with the letters, and its value has just the bytes that were read.
It reads back the values with the letters, whatever stands behind them. Any other data is refused: out of bounds if
it is too short, and because of what stands in place of the letters if not. -/
structure Lossless {α : Type} (read : Array UInt8 → Except Error α) (written : α → List UInt8) (size : Nat)
    (letters : List UInt8) (refusal : List UInt8 → Error) : Prop where
  length_written : ∀ value, (written value).length = size
  reads : ∀ data : Array UInt8, size ≤ data.size → letters <+: data.toList →
    ∃ value, read data = .ok value ∧ written value = data.toList.take size
  returns : ∀ (value : α) (behind : Array UInt8), letters <+: written value →
    read ((written value).toArray ++ behind) = .ok value
  refuses_short : ∀ data : Array UInt8, data.size < size → read data = .error .outOfBounds
  refuses_other : ∀ data : Array UInt8, size ≤ data.size → ¬letters <+: data.toList →
    read data = .error (refusal (data.toList.take letters.length))

/-- A reader that takes a layout and then looks at the letters is lossless. -/
theorem Lossless.of_layout {α : Type} {read : Array UInt8 → Except Error α} {layout : Layout α}
    {written : α → List UInt8} {size : Nat} {letters : List UInt8} {refusal : List UInt8 → Error}
    (hspells : layout.Spells written) (haccepts : layout.Accepts size)
    (hsize : ∀ value, (written value).length = size)
    (hread : ∀ data value, Bytes.range? data 0 size = some (written value) → read data =
      if letters <+: data.toList then .ok value
      else .error (refusal (data.toList.take letters.length)))
    (hshort : ∀ data : Array UInt8, Bytes.range? data 0 size = none → read data = .error .outOfBounds) :
    Lossless read written size letters refusal := by
  have hvalue (data : Array UInt8) (hfits : size ≤ data.size) :
      ∃ value, Bytes.range? data 0 size = some (written value) := by
    obtain ⟨value, hvalue⟩ := haccepts.read?_isSome_iff.mpr ((Nat.zero_add size).symm ▸ hfits)
    exact ⟨value, (hspells.bind_read?_eq_some_iff hsize).mp hvalue⟩
  refine ⟨hsize, fun data hfits hletters => ?_, fun value behind hletters => ?_, fun data hdata => ?_,
    fun data hfits hletters => ?_⟩
  · obtain ⟨value, hbytes⟩ := hvalue data hfits
    refine ⟨value, ?_, (Bytes.range?_start_eq_some_iff.mp hbytes).2.symm⟩
    rw [hread data value hbytes, if_pos hletters]
  · have hbytes : Bytes.range? ((written value).toArray ++ behind) 0 size = some (written value) := by
      rw [Bytes.range?_start_eq_some_iff]
      simp [hsize]
    rw [hread _ value hbytes, if_pos]
    exact hletters.trans (by simp)
  · exact hshort data ((Bytes.range?_eq_none_iff data 0 size).mpr (by omega))
  · obtain ⟨value, hbytes⟩ := hvalue data hfits
    rw [hread data value hbytes, if_neg hletters]

/-! ## Layouts -/

theorem DosHeader.layout_spells : DosHeader.layout.Spells DosHeader.bytes := by
  refine Recovers.spells ?_ layout_bytes
  unfold layout
  repeat refine Recovers.bind field_spells fun _ => ?_
  exact .pure rfl

theorem DosRelocation.layout_spells : DosRelocation.layout.Spells DosRelocation.bytes := by
  refine Recovers.spells ?_ fun relocation rest => ?_
  · unfold layout
    repeat refine Recovers.bind field_spells fun _ => ?_
    exact .pure rfl
  · simp only [layout, bytes, List.append_assoc, Bytes.field_bind_encode]
    rfl

theorem ObjectEntry.layout_spells : ObjectEntry.layout.Spells ObjectEntry.bytes := by
  refine Recovers.spells ?_ layout_bytes
  unfold layout
  repeat refine Recovers.bind field_spells fun _ => ?_
  exact .pure rfl

namespace LinearHeader

theorem Identity.layout_spells : Identity.layout.Spells Identity.bytes := by
  refine Recovers.spells ?_ layout_bytes
  unfold layout
  repeat refine Recovers.bind field_spells fun _ => ?_
  exact .pure rfl

theorem Start.layout_spells : Start.layout.Spells Start.bytes := by
  refine Recovers.spells ?_ layout_bytes
  unfold layout
  repeat refine Recovers.bind field_spells fun _ => ?_
  exact .pure rfl

theorem Sections.layout_spells : Sections.layout.Spells Sections.bytes := by
  refine Recovers.spells ?_ layout_bytes
  unfold layout
  repeat refine Recovers.bind field_spells fun _ => ?_
  exact .pure rfl

theorem Tables.layout_spells : Tables.layout.Spells Tables.bytes := by
  refine Recovers.spells ?_ layout_bytes
  unfold layout
  repeat refine Recovers.bind field_spells fun _ => ?_
  exact .pure rfl

theorem Contents.layout_spells : Contents.layout.Spells Contents.bytes := by
  refine Recovers.spells ?_ layout_bytes
  unfold layout
  repeat refine Recovers.bind field_spells fun _ => ?_
  exact .pure rfl

theorem Device.layout_spells : Device.layout.Spells Device.bytes := by
  refine Recovers.spells ?_ layout_bytes
  unfold layout
  repeat refine Recovers.bind field_spells fun _ => ?_
  exact .pure rfl

/-- The parts of a header are laid out one behind the other. -/
theorem layout_spells : LinearHeader.layout.Spells LinearHeader.bytes :=
  Recovers.spells (Recovers.bind Identity.layout_spells fun _ => .bind Start.layout_spells fun _ =>
    .bind Sections.layout_spells fun _ => .bind Tables.layout_spells fun _ =>
    .bind Contents.layout_spells fun _ => .bind Device.layout_spells fun _ => .pure rfl) layout_bytes

theorem length_bytes (header : LinearHeader) : header.bytes.length = size := by
  simp [bytes, Identity.bytes, Start.bytes, Sections.bytes, Tables.bytes, Contents.bytes, Device.bytes, size,
    Bytes.Word.width]

end LinearHeader

theorem ObjectEntry.length_bytes (entry : ObjectEntry) : entry.bytes.length = size := by
  simp [bytes, size, Bytes.Word.width]

theorem DosRelocation.length_bytes (relocation : DosRelocation) : relocation.bytes.length = 4 := by
  simp [bytes, Bytes.Word.width]

theorem DosRelocation.layout_accepts : DosRelocation.layout.Accepts 4 := by
  unfold layout
  repeat refine Accepts.field_bind (by decide) fun _ => ?_
  exact .pure _

/-! ## Headers -/

theorem DosHeader.read?_magic {data : Array UInt8} {header : DosHeader}
    (h : Bytes.range? data 0 size = some header.bytes) : Bytes.read? data 0 = some header.magic := by
  obtain ⟨behind, hbehind⟩ := layout_magic (layout_bytes header [])
  have hparts : Bytes.range? data 0 (Bytes.Word.width UInt16 + 26) = some (encode header.magic ++ behind) := by
    rw [← hbehind, List.append_nil]
    exact h
  exact Bytes.read?_eq_some_iff.mpr ((Bytes.range?_append (Bytes.length_encode _)).mp hparts).1

theorem DosHeader.lossless_read : Lossless DosHeader.read DosHeader.bytes size (encode signature)
    fun found => .malformed (.dosSignature (Bytes.decode found)) := by
  refine .of_layout layout_spells layout_accepts length_bytes (fun data header hbytes => ?_) fun data hnone => ?_
  · have hmagic := read?_magic hbytes
    have hfound : data.toList.take (encode signature).length = encode header.magic :=
      (Bytes.range?_start_eq_some_iff.mp (Bytes.read?_eq_some_iff.mp hmagic)).2
    rw [read, (layout_spells.bind_read?_eq_some_iff length_bytes).mpr hbytes, hfound, Bytes.decode_encode]
    simp only [Bytes.encode_prefix_iff hmagic]
  · rw [read, hnone]
    rfl

theorem LinearHeader.lossless_read (front : Array UInt8) :
    Lossless (fun data => LinearHeader.read (front ++ data) front.size) LinearHeader.bytes size (encode signature)
      fun found => .malformed (.linearSignature (Bytes.decode found)) := by
  refine .of_layout layout_spells layout_accepts length_bytes (fun data header hbytes => ?_) fun data hnone => ?_
  all_goals
    have hrange := Bytes.range?_behind front data 0 size
    have hword : (_ : Option UInt32) = _ := Bytes.read?_behind front data 0
    rw [Nat.add_zero] at hrange hword
  · obtain ⟨found, hsignature⟩ : ∃ found : UInt32, Bytes.read? data 0 = some found :=
      Bytes.read?_isSome (Nat.le_trans (by decide) (Bytes.range?_start_eq_some_iff.mp hbytes).1)
    have hfound : data.toList.take (encode signature).length = encode found :=
      (Bytes.range?_start_eq_some_iff.mp (Bytes.read?_eq_some_iff.mp hsignature)).2
    have hlayout : layout.read? header.bytes = some header := by
      have hwhole := (layout_spells.bind_read?_eq_some_iff length_bytes).mpr hbytes
      rwa [hbytes, Option.bind_some] at hwhole
    rw [read, hrange, hword, hbytes, hsignature, hfound, Bytes.decode_encode]
    simp only [Bytes.encode_prefix_iff hsignature, hlayout]
  · rw [read, hrange, hnone]

theorem ObjectEntry.lossless_read (front : Array UInt8) :
    Lossless (fun data => ObjectEntry.read (front ++ data) front.size) ObjectEntry.bytes size []
      fun _ => .outOfBounds := by
  refine .of_layout layout_spells layout_accepts length_bytes (fun data entry hbytes => ?_) fun data hnone => ?_
  all_goals
    have hrange := Bytes.range?_behind front data 0 size
    rw [Nat.add_zero] at hrange
  · rw [read, hrange, (layout_spells.bind_read?_eq_some_iff length_bytes).mpr hbytes]
    rfl
  · rw [read, hrange, hnone]
    rfl

/-! ## Tables -/

theorem ObjectEntry.readTable_eq_ok_iff {front data : Array UInt8} {count : Nat} {entries : List ObjectEntry} :
    readTable (front ++ data) front.size count = .ok entries ↔
      entries.length = count ∧ Bytes.range? data 0 (size * count) = some (entries.flatMap bytes) := by
  have hrange := Bytes.range?_behind front data 0 (size * count)
  rw [Nat.add_zero] at hrange
  rw [readTable, hrange, ← layout_spells.bind_repeat_eq_some_iff length_bytes]
  cases (Bytes.range? data 0 (size * count)).bind (layout.repeat count).read? <;> simp

theorem DosHeader.relocations_eq_ok_iff {header : DosHeader} {file : Array UInt8}
    {entries : List DosRelocation} :
    header.relocations file = .ok entries ↔ entries.length = header.relocationCount.toNat ∧
      Bytes.range? file header.relocationTable.toNat (4 * header.relocationCount.toNat) =
        some (entries.flatMap DosRelocation.bytes) := by
  rw [relocations, ← DosRelocation.layout_spells.bind_repeat_eq_some_iff DosRelocation.length_bytes]
  cases (Bytes.range? file _ _).bind (DosRelocation.layout.repeat header.relocationCount.toNat).read? <;> simp

/-- A table of objects is read if it lies in the data, entry by entry. -/
theorem ObjectEntry.readTable_lossless (front data : Array UInt8) (count : Nat) :
    ((∃ entries, readTable (front ++ data) front.size count = .ok entries) ↔ size * count ≤ data.size) ∧
      ∀ entries, readTable (front ++ data) front.size count = .ok entries →
        entries.length = count ∧ entries.flatMap bytes = data.toList.take (size * count) ∧
        ∀ index entry, entries[index]? = some entry →
          read (front ++ data) (front.size + size * index) = .ok entry := by
  refine ⟨?_, fun entries hentries => ?_⟩
  · simp only [readTable_eq_ok_iff, ← layout_spells.bind_repeat_eq_some_iff length_bytes,
      (layout_accepts.entries count).read?_isSome_iff, Nat.zero_add]
  · obtain ⟨hlength, hbytes⟩ := readTable_eq_ok_iff.mp hentries
    refine ⟨hlength, (Bytes.range?_start_eq_some_iff.mp hbytes).2.symm, fun index entry hentry => ?_⟩
    have hplace := Bytes.range?_entry length_bytes hbytes hentry
    rw [Nat.zero_add] at hplace
    rw [read, Bytes.range?_behind, (layout_spells.bind_read?_eq_some_iff length_bytes).mpr hplace]

/-- A relocation table is read if it lies in the file. -/
theorem DosHeader.relocations_lossless (header : DosHeader) (file : Array UInt8) :
    ((∃ entries, header.relocations file = .ok entries) ↔
        header.relocationTable.toNat + 4 * header.relocationCount.toNat ≤ file.size) ∧
      ∀ entries, header.relocations file = .ok entries →
        entries.length = header.relocationCount.toNat ∧
        entries.flatMap DosRelocation.bytes =
          (file.toList.drop header.relocationTable.toNat).take (4 * header.relocationCount.toNat) := by
  refine ⟨?_, fun entries hentries => ?_⟩
  · simp only [relocations_eq_ok_iff,
      ← DosRelocation.layout_spells.bind_repeat_eq_some_iff DosRelocation.length_bytes,
      (DosRelocation.layout_accepts.entries _).read?_isSome_iff]
  · obtain ⟨hlength, hbytes⟩ := relocations_eq_ok_iff.mp hentries
    exact ⟨hlength, (Bytes.range?_eq_some_iff_take.mp hbytes).2.symm⟩

/-- The readers of headers and entries are lossless, wherever in a file they start, and tables are read entry by
entry. A table of objects or of relocations can be read if and only if it lies in the data, and then its entries are
as many as asked for and their bytes one behind the other are those of the table. A relocation has its offset in
front of its segment. -/
theorem headers_lossless (front : Array UInt8) :
    Lossless (fun data => LinearHeader.read (front ++ data) front.size) LinearHeader.bytes 0xC4
      [0x4C, 0x45, 0x00, 0x00] (fun found => .malformed (.linearSignature (Bytes.decode found))) ∧
    Lossless DosHeader.read DosHeader.bytes 28 [0x4D, 0x5A]
      (fun found => .malformed (.dosSignature (Bytes.decode found))) ∧
    Lossless (fun data => ObjectEntry.read (front ++ data) front.size) ObjectEntry.bytes 24 []
      (fun _ => .outOfBounds) ∧
    (∀ (data : Array UInt8) (count : Nat),
      ((∃ entries, ObjectEntry.readTable (front ++ data) front.size count = .ok entries) ↔
        24 * count ≤ data.size) ∧
      ∀ entries, ObjectEntry.readTable (front ++ data) front.size count = .ok entries →
        entries.length = count ∧
        entries.flatMap ObjectEntry.bytes = data.toList.take (24 * count) ∧
        ∀ index entry, entries[index]? = some entry →
          ObjectEntry.read (front ++ data) (front.size + 24 * index) = .ok entry) ∧
    ∀ (header : DosHeader) (file : Array UInt8),
      ((∃ entries, header.relocations file = .ok entries) ↔
        header.relocationTable.toNat + 4 * header.relocationCount.toNat ≤ file.size) ∧
      ∀ entries, header.relocations file = .ok entries →
        entries.length = header.relocationCount.toNat ∧
        entries.flatMap (fun entry => encode entry.offset ++ encode entry.segment) =
          (file.toList.drop header.relocationTable.toNat).take (4 * header.relocationCount.toNat) :=
  ⟨LinearHeader.lossless_read front, DosHeader.lossless_read, ObjectEntry.lossless_read front,
    ObjectEntry.readTable_lossless front, DosHeader.relocations_lossless⟩

end Module

end FlowDisasm
