import FlowDisasm.Module.FixupRecord
import FlowDisasm.Proofs.Bytes.Fields
import Mathlib.Data.List.Infix

/-!
# The grammar of fixup records

How a record is written: a source byte and a target byte tell its shape, then come its places and its
target. A stream is read if and only if it is made of written records one after the other, and reading
gives back what was written; any other stream is refused where the first record that is not well formed
starts.
-/
namespace FlowDisasm.Module

open Bytes (Layout encode encode_byte field field_eq_some_iff)

theorem FixupKind.ofSource?_eq_some_iff {source : UInt8} {kind : FixupKind} :
    FixupKind.ofSource? source = some kind ↔ source &&& 0x0F = kind.code := by
  unfold FixupKind.ofSource?
  split
  · rename_i hlow
    rw [hlow]
    cases kind <;> simp [FixupKind.code]
  · rename_i hseven
    split
    · rename_i hlow
      rw [hlow]
      cases kind <;> simp [FixupKind.code]
    · cases kind <;> simp_all [FixupKind.code]

/-- The offset of a target as it is written, in two bytes or in four. -/
inductive WrittenOffset where
  | short (offset : UInt16)
  | long (offset : UInt32)

namespace WrittenOffset

/-- The target byte that goes with an offset. -/
def mark : WrittenOffset → UInt8
  | short _ => 0
  | long _ => FixupRecord.wideFlag

def bytes : WrittenOffset → List UInt8
  | short offset => encode offset
  | long offset => encode offset

def value : WrittenOffset → UInt32
  | short offset => offset.toUInt32
  | long offset => offset

/-- A target byte that is not refused tells which kind of offset is written. -/
theorem mark_eq_of_wide {target : UInt8} {written : WrittenOffset}
    (h : ¬(target != 0 && target != FixupRecord.wideFlag) = true)
    (hwide : (written.mark == FixupRecord.wideFlag) = (target == FixupRecord.wideFlag)) :
    written.mark = target := by
  cases written with
  | short offset =>
    have hnarrow : target ≠ FixupRecord.wideFlag := beq_eq_false_iff_ne.mp hwide.symm
    simp only [bne_iff_ne.mpr hnarrow, Bool.and_true, bne_iff_ne, not_not] at h
    exact h.symm
  | long offset => exact (beq_iff_eq.mp hwide.symm).symm

end WrittenOffset

/-- A well formed record as it is written. The two highest bits of its source byte mean nothing. -/
structure WrittenRecord where
  source : UInt8
  kind : FixupKind
  object : UInt8
  offset : WrittenOffset
  places : List Int16
  low : source &&& 0x0F = kind.code
  noAlias : source &&& FixupRecord.aliasFlag = 0
  few : places.length < 256
  single : source &&& FixupRecord.listFlag = 0 → places.length = 1

namespace WrittenRecord

/-- What is written behind the source byte and the target byte: a single place stands in front of the
target, a list behind it and its length in front. -/
def body (source object : UInt8) (offset : WrittenOffset) (places : List Int16) : List UInt8 :=
  if source &&& FixupRecord.listFlag = 0 then places.flatMap encode ++ object :: offset.bytes
  else UInt8.ofNat places.length :: object :: (offset.bytes ++ places.flatMap encode)

def bytes (written : WrittenRecord) : List UInt8 :=
  written.source :: written.offset.mark ::
    body written.source written.object written.offset written.places

theorem length_bytes_pos (written : WrittenRecord) : 0 < written.bytes.length :=
  Nat.succ_pos _

/-- A record takes more bytes than it names places. -/
theorem length_places_lt (written : WrittenRecord) : written.places.length < written.bytes.length := by
  have hplaces : written.places.length ≤ (written.places.flatMap encode).length := by
    induction written.places with
    | nil => exact Nat.le_refl 0
    | cons place places ih =>
      rw [List.flatMap_cons, List.length_append, Bytes.length_encode, List.length_cons]
      exact Nat.add_comm _ 1 ▸ Nat.add_le_add (by decide) ih
  simp only [bytes, body]
  split <;> simp only [List.length_cons, List.length_append] <;> omega

/-- What a record says when it starts at a position. -/
def record (position : Nat) (written : WrittenRecord) : FixupRecord where
  position := position
  kind := written.kind
  object := written.object
  offset := written.offset.value
  sources := written.places

def stream (written : List WrittenRecord) : List UInt8 :=
  written.flatMap bytes

/-- What records one after the other say, each where it starts. -/
def recordsFrom (position : Nat) : List WrittenRecord → List FixupRecord
  | [] => []
  | first :: rest => first.record position :: recordsFrom (position + first.bytes.length) rest

/-- Any bytes begin with as many records as are written there, and either nothing is left or the rest
does not begin with a record. -/
theorem exists_front (bytes : List UInt8) : ∃ front rest, bytes = stream front ++ rest ∧
    (rest = [] ∨ rest ≠ [] ∧ ∀ written : WrittenRecord, ¬written.bytes <+: rest) := by
  by_cases hnil : bytes = []
  · exact ⟨[], [], hnil, .inl rfl⟩
  by_cases hnone : ∀ written : WrittenRecord, ¬written.bytes <+: bytes
  · exact ⟨[], bytes, rfl, .inr ⟨hnil, hnone⟩⟩
  obtain ⟨first, behind, hfirst⟩ : ∃ written : WrittenRecord, written.bytes <+: bytes := by
    simpa using hnone
  obtain ⟨front, rest, hsplit, hrest⟩ := exists_front behind
  refine ⟨first :: front, rest, ?_, hrest⟩
  rw [← hfirst, hsplit, stream, stream, List.flatMap_cons, List.append_assoc]
termination_by bytes.length
decreasing_by
  have hpos := first.length_bytes_pos
  rw [← hfirst, List.length_append]
  omega

end WrittenRecord

namespace FixupRecord

variable {wide : Bool} {bytes rest : List UInt8} {object : UInt8} {offset : UInt32}
  {sources : List Int16} {position : Nat} {record : FixupRecord}

theorem targetLayout_eq_some_iff :
    targetLayout wide bytes = some ((object, offset), rest) ↔
      ∃ written : WrittenOffset, (written.mark == wideFlag) = wide ∧ written.value = offset ∧
        bytes = object :: (written.bytes ++ rest) := by
  unfold targetLayout
  cases wide with
  | false =>
    simp only [Layout.bind_eq_some_iff, Layout.pure_eq_some_iff, field_eq_some_iff,
      Bool.false_eq_true, if_false, encode_byte, Prod.mk.injEq]
    constructor
    · rintro ⟨_, _, rfl, short, _, rfl, ⟨rfl, rfl⟩, rfl⟩
      exact ⟨.short short, rfl, rfl, rfl⟩
    · rintro ⟨written, hmark, rfl, rfl⟩
      cases written with
      | short short => exact ⟨_, _, rfl, short, _, rfl, ⟨rfl, rfl⟩, rfl⟩
      | long long => cases hmark
  | true =>
    simp only [Layout.bind_eq_some_iff, Layout.pure_eq_some_iff, field_eq_some_iff,
      if_true, encode_byte, Prod.mk.injEq]
    constructor
    · rintro ⟨_, _, rfl, long, _, rfl, ⟨rfl, rfl⟩, rfl⟩
      exact ⟨.long long, rfl, rfl, rfl⟩
    · rintro ⟨written, hmark, rfl, rfl⟩
      cases written with
      | short short => cases hmark
      | long long => exact ⟨_, _, rfl, long, _, rfl, ⟨rfl, rfl⟩, rfl⟩

theorem bodyLayout_single_eq_some_iff :
    bodyLayout false wide bytes = some (((object, offset), sources), rest) ↔
      ∃ written : WrittenOffset, (written.mark == wideFlag) = wide ∧ written.value = offset ∧
        sources.length = 1 ∧
        bytes = sources.flatMap encode ++ object :: (written.bytes ++ rest) := by
  simp only [bodyLayout, Bool.false_eq_true, if_false, Layout.bind_eq_some_iff,
    Layout.pure_eq_some_iff, field_eq_some_iff]
  constructor
  · rintro ⟨source, _, rfl, ⟨_, _⟩, _, htarget, heq, rfl⟩
    obtain ⟨⟨rfl, rfl⟩, rfl⟩ := by simpa using heq
    obtain ⟨written, hmark, hvalue, rfl⟩ := targetLayout_eq_some_iff.mp htarget
    exact ⟨written, hmark, hvalue, rfl, by simp⟩
  · rintro ⟨written, hmark, hvalue, hlength, rfl⟩
    obtain ⟨source, rfl⟩ := List.length_eq_one_iff.mp hlength
    exact ⟨source, _, by simp, (object, offset), rest,
      targetLayout_eq_some_iff.mpr ⟨written, hmark, hvalue, rfl⟩, rfl, rfl⟩

theorem bodyLayout_list_eq_some_iff :
    bodyLayout true wide bytes = some (((object, offset), sources), rest) ↔
      ∃ written : WrittenOffset, (written.mark == wideFlag) = wide ∧ written.value = offset ∧
        sources.length < 256 ∧
        bytes = UInt8.ofNat sources.length :: object ::
          (written.bytes ++ (sources.flatMap encode ++ rest)) := by
  simp only [bodyLayout, if_true, Layout.bind_eq_some_iff, Layout.pure_eq_some_iff,
    field_eq_some_iff, Layout.repeat_field_eq_some_iff, encode_byte]
  constructor
  · rintro ⟨count, _, rfl, ⟨_, _⟩, _, htarget, places, _, ⟨hcount, rfl⟩, heq, rfl⟩
    obtain ⟨⟨rfl, rfl⟩, rfl⟩ := by simpa using heq
    obtain ⟨written, hmark, hvalue, rfl⟩ := targetLayout_eq_some_iff.mp htarget
    refine ⟨written, hmark, hvalue, hcount ▸ count.toNat_lt, ?_⟩
    rw [hcount, UInt8.ofNat_toNat]
    rfl
  · rintro ⟨written, hmark, hvalue, hfew, rfl⟩
    have hcount : (UInt8.ofNat sources.length).toNat = sources.length := UInt8.toNat_ofNat_of_lt hfew
    exact ⟨_, _, rfl, (object, offset), _,
      targetLayout_eq_some_iff.mpr ⟨written, hmark, hvalue, rfl⟩, sources, rest,
      ⟨hcount.symm, rfl⟩, rfl, rfl⟩

theorem bodyLayout_eq_some_iff {source : UInt8} :
    bodyLayout (source &&& listFlag != 0) wide bytes = some (((object, offset), sources), rest) ↔
      ∃ written : WrittenOffset, (written.mark == wideFlag) = wide ∧ written.value = offset ∧
        sources.length < 256 ∧ (source &&& listFlag = 0 → sources.length = 1) ∧
        bytes = WrittenRecord.body source object written sources ++ rest := by
  by_cases hlist : source &&& listFlag = 0
  · simp only [WrittenRecord.body, hlist, if_true, bne_self_eq_false, bodyLayout_single_eq_some_iff,
      List.append_assoc, List.cons_append]
    refine exists_congr fun written => and_congr_right fun _ => and_congr_right fun _ => ?_
    constructor
    · rintro ⟨hlength, hbytes⟩
      exact ⟨by omega, fun _ => hlength, hbytes⟩
    · rintro ⟨-, hlength, hbytes⟩
      exact ⟨hlength trivial, hbytes⟩
  · simp [WrittenRecord.body, hlist, bne_iff_ne.mpr hlist, bodyLayout_list_eq_some_iff]

/-- A record is taken from the front of bytes exactly if it is written there. -/
theorem take_eq_ok_iff :
    take position bytes = .ok (record, rest) ↔
      ∃ written : WrittenRecord, bytes = written.bytes ++ rest ∧ record = written.record position := by
  constructor
  · intro h
    unfold take at h
    split at h
    · rename_i source target behind
      split at h
      · cases h
      rename_i kind hkind
      split at h
      · cases h
      rename_i halias
      split at h
      · cases h
      rename_i htarget
      split at h
      · cases h
      rename_i object offset sources left hbody
      obtain ⟨rfl, rfl⟩ := Prod.mk.inj (Except.ok.inj h)
      obtain ⟨written, hwide, rfl, hfew, hsingle, rfl⟩ := bodyLayout_eq_some_iff.mp hbody
      obtain rfl := WrittenOffset.mark_eq_of_wide htarget hwide
      exact ⟨⟨source, kind, object, written, sources, FixupKind.ofSource?_eq_some_iff.mp hkind,
        by simpa using halias, hfew, hsingle⟩, rfl, rfl⟩
    · cases h
  · rintro ⟨⟨source, kind, object, offset, places, hlow, halias, hfew, hsingle⟩, rfl, rfl⟩
    have hkind := FixupKind.ofSource?_eq_some_iff.mpr hlow
    have hmark : (offset.mark != 0 && offset.mark != wideFlag) = false := by cases offset <;> rfl
    have hbody : bodyLayout (source &&& listFlag != 0) (offset.mark == wideFlag)
        (WrittenRecord.body source object offset places ++ rest) =
          some (((object, offset.value), places), rest) :=
      bodyLayout_eq_some_iff.mpr ⟨offset, rfl, rfl, hfew, hsingle, rfl⟩
    simp [take, WrittenRecord.bytes, WrittenRecord.record, hkind, halias, hmark, hbody]

/-! ## Streams -/

theorem readFrom_nil (position fuel : Nat) : readFrom position fuel [] = .ok [] := by
  cases fuel <;> rfl

/-- Reading takes a record that is written in front and goes on behind it. -/
theorem readFrom_append {fuel : Nat} (position : Nat) (first : WrittenRecord) (rest : List UInt8) :
    readFrom position (fuel + 1) (first.bytes ++ rest) =
      (readFrom (position + first.bytes.length) fuel rest).map (first.record position :: ·) := by
  have htake : take position (first.bytes ++ rest) = .ok (first.record position, rest) :=
    take_eq_ok_iff.mpr ⟨first, rfl, rfl⟩
  have htaken : (first.bytes ++ rest).length - rest.length = first.bytes.length := by
    rw [List.length_append, Nat.add_sub_cancel]
  rw [readFrom, htake]
  · dsimp only
    rw [htaken]
    cases readFrom (position + first.bytes.length) fuel rest <;> rfl
  · exact fun hnil => List.cons_ne_nil _ _ hnil

/-- Reading takes all records that are written in front and goes on behind them. -/
theorem readFrom_stream_append {fuel : Nat} (position : Nat) (front : List WrittenRecord)
    (rest : List UInt8) (hfuel : (WrittenRecord.stream front ++ rest).length ≤ fuel) :
    ∃ left, rest.length ≤ left ∧ readFrom position fuel (WrittenRecord.stream front ++ rest) =
      (readFrom (position + (WrittenRecord.stream front).length) left rest).map
        (WrittenRecord.recordsFrom position front ++ ·) := by
  induction front generalizing position fuel with
  | nil =>
    refine ⟨fuel, hfuel, ?_⟩
    change readFrom position fuel rest = (readFrom position fuel rest).map id
    cases readFrom position fuel rest <;> rfl
  | cons first others ih =>
    have hsplit : WrittenRecord.stream (first :: others) ++ rest =
        first.bytes ++ (WrittenRecord.stream others ++ rest) := by
      simp [WrittenRecord.stream]
    have hpos := first.length_bytes_pos
    rw [hsplit, List.length_append] at hfuel
    obtain ⟨less, rfl⟩ : ∃ less, fuel = less + 1 := ⟨fuel - 1, by omega⟩
    have hless : (WrittenRecord.stream others ++ rest).length ≤ less := by omega
    obtain ⟨left, hleft, hread⟩ := ih (position + first.bytes.length) hless
    have hbehind : position + first.bytes.length + (WrittenRecord.stream others).length =
        position + (WrittenRecord.stream (first :: others)).length := by
      simp [WrittenRecord.stream, Nat.add_assoc]
    refine ⟨left, hleft, ?_⟩
    rw [hsplit, readFrom_append, hread, hbehind]
    cases readFrom (position + (WrittenRecord.stream (first :: others)).length) left rest <;> rfl

/-- Reading is refused where no record is written. -/
theorem readFrom_malformed {fuel : Nat} (position : Nat) (hfuel : bytes.length ≤ fuel)
    (hbytes : bytes ≠ []) (h : ∀ written : WrittenRecord, ¬written.bytes <+: bytes) :
    ∃ fault, readFrom position fuel bytes = .error (position, fault) := by
  have hpos := List.length_pos_iff.mpr hbytes
  obtain ⟨less, rfl⟩ : ∃ less, fuel = less + 1 := ⟨fuel - 1, by omega⟩
  cases htake : take position bytes with
  | error fault =>
    refine ⟨fault, ?_⟩
    rw [readFrom, htake]
    exact hbytes
  | ok taken =>
    obtain ⟨record, rest⟩ := taken
    obtain ⟨written, rfl, -⟩ := take_eq_ok_iff.mp htake
    exact absurd (List.prefix_append _ _) (h written)

theorem readAll_stream (page : UInt32) (written : List WrittenRecord) :
    readAll page (WrittenRecord.stream written) = .ok (WrittenRecord.recordsFrom 0 written) := by
  obtain ⟨left, -, hread⟩ := readFrom_stream_append 0 written [] (Nat.le_refl _)
  rw [List.append_nil, readFrom_nil] at hread
  rw [readAll, hread]
  simp [Except.map]

theorem readAll_malformed (page : UInt32) (front : List WrittenRecord) (hrest : rest ≠ [])
    (hnone : ∀ written : WrittenRecord, ¬written.bytes <+: rest) :
    ∃ fault, readAll page (WrittenRecord.stream front ++ rest) =
      .error (.fixup page (WrittenRecord.stream front).length fault (rest.take 16)) := by
  obtain ⟨left, hleft, hread⟩ := readFrom_stream_append 0 front rest (Nat.le_refl _)
  obtain ⟨fault, hfault⟩ := readFrom_malformed (0 + (WrittenRecord.stream front).length) hleft hrest hnone
  rw [hfault, Nat.zero_add] at hread
  refine ⟨fault, ?_⟩
  rw [readAll, hread]
  simp [Except.map, failure]

/-- The records of a stream are read if and only if the stream is made of written records, and they are
what was written, each at its position. Any other stream is refused: all of it that lies before the position
of the error is made of written records, and at the position no record is written. -/
theorem readAll_exact (page : UInt32) (stream : List UInt8) :
    (∀ records, readAll page stream = .ok records ↔
      ∃ written, stream = WrittenRecord.stream written ∧
        records = WrittenRecord.recordsFrom 0 written) ∧
    ((∀ written, stream ≠ WrittenRecord.stream written) →
      ∃ front rest fault, stream = WrittenRecord.stream front ++ rest ∧ rest ≠ [] ∧
        (∀ written : WrittenRecord, ¬written.bytes <+: rest) ∧
        readAll page stream =
          .error (.fixup page (WrittenRecord.stream front).length fault (rest.take 16))) := by
  obtain ⟨front, rest, rfl, hrest⟩ := WrittenRecord.exists_front stream
  refine ⟨fun records => ⟨fun h => ?_, ?_⟩, fun h => ?_⟩
  · rcases hrest with rfl | ⟨hrest, hnone⟩
    · rw [List.append_nil] at h ⊢
      exact ⟨front, rfl, (Except.ok.inj ((readAll_stream page front).symm.trans h)).symm⟩
    · obtain ⟨fault, herror⟩ := readAll_malformed page front hrest hnone
      cases h.symm.trans herror
  · rintro ⟨written, hwritten, rfl⟩
    rw [hwritten]
    exact readAll_stream page written
  · rcases hrest with rfl | ⟨hrest, hnone⟩
    · exact absurd (List.append_nil _) (h front)
    · obtain ⟨fault, herror⟩ := readAll_malformed page front hrest hnone
      exact ⟨front, rest, fault, rfl, hrest, hnone, herror⟩

/-- A record with a single place and one with a list, in the fewest bytes and in the most. -/
example :
    readAll 0 [0x07, 0x00, 0x10, 0x00, 0x01, 0x34, 0x12,
      0xA8, 0x10, 0x02, 0x02, 0x78, 0x56, 0x34, 0x12, 0xFE, 0xFF, 0x08, 0x00] =
      .ok [⟨0, .offset32, 1, 0x1234, [0x10]⟩, ⟨7, .relative32, 2, 0x12345678, [-2, 8]⟩] := by
  decide

end FixupRecord

end FlowDisasm.Module
