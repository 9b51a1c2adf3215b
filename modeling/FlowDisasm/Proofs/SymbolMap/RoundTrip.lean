import FlowDisasm.Proofs.SymbolMap.Written
import Mathlib.Tactic.Common

/-!
# Reading back a written symbol map

Each reader of a map takes what is written for it, wherever it stands. The chain of blocks is followed from
one start to the next: a block ends before the start of the one behind it, so the pointer there does not lead
back, and only the end of the file or the pointer to paragraph zero ends the chain.
-/
namespace FlowDisasm.SymbolMap

open Bytes (Cursor ShortText encode)
open Bytes.Cursor (between)

variable {α β : Type} {reader : Reader Logged α} {taken more : List UInt8} {value : α}

/-! ## What readers take -/

/-- What a reader does to a cursor, without its log. -/
def outcome (reader : Reader Logged α) (cursor : Cursor) : Except Error (α × Cursor) :=
  (reader.run cursor).run.value

theorem outcome_bind (reader : Reader Logged α) (next : α → Reader Logged β) (cursor : Cursor) :
    outcome (reader >>= next) cursor =
      match outcome reader cursor with
      | .ok (value, after) => outcome (next value) after
      | .error error => .error error := by
  simp only [outcome, StateT.run_bind, ExceptT.run_bind, Logged.value_bind]
  cases (reader.run cursor).run.value <;> rfl

theorem outcome_bind_of_ok {cursor after : Cursor} {next : α → Reader Logged β}
    (h : outcome reader cursor = .ok (value, after)) :
    outcome (reader >>= next) cursor = outcome (next value) after := by
  rw [outcome_bind, h]

theorem outcome_note (level : Level) (text : String) (cursor : Cursor) :
    outcome (Host.note level text) cursor = .ok ((), cursor) := rfl

theorem outcome_get (cursor : Cursor) : outcome get cursor = .ok (cursor, cursor) := rfl

theorem outcome_sum (first second : Nat) (cursor : Cursor) :
    outcome (Host.sum first second) cursor = .ok (first + second, cursor) := rfl

theorem outcome_act (action : Cursor.Action α) (cursor : Cursor) :
    outcome (act action) cursor =
      match action.run cursor with
      | (.ok value, after) => .ok (value, after)
      | (.error error, _) => .error error := by
  simp only [outcome, StateT.run, act]
  rcases action.run cursor with ⟨result, after⟩
  cases result <;> rfl

/-! ### Without guards -/

theorem outcome_expect (count : Nat) (cursor : Cursor) : outcome (expect count) cursor = .ok ((), cursor) := by
  rw [expect, outcome_bind, outcome_get]
  dsimp only
  rw [outcome_bind]
  change outcome (if cursor.position + count ≤ cursor.data.size then _ else _) cursor = _
  split <;> rfl

theorem outcome_word [Bytes.Word α] (cursor : Cursor) :
    outcome (word : Reader Logged α) cursor = outcome (act Cursor.word) cursor :=
  outcome_bind_of_ok (outcome_expect _ cursor)

theorem outcome_skip (count : Nat) (cursor : Cursor) :
    outcome (skip count) cursor = outcome (act (Cursor.skip count)) cursor :=
  outcome_bind_of_ok (outcome_expect count cursor)

theorem outcome_hasRoom (cursor : Cursor) : outcome hasRoom cursor =
    .ok (decide (cursor.position + minBlockSize < cursor.data.size), cursor) := rfl

/-- A look at the length of a text fails just where the text has none. -/
theorem outcome_text (cursor : Cursor) : outcome text cursor = outcome (act Cursor.text) cursor := by
  rw [text, outcome_bind_of_ok (outcome_expect 1 cursor), outcome_bind, outcome_act, Cursor.run_peek]
  cases hread : (Bytes.read? cursor.data cursor.position : Option UInt8) with
  | none => rw [outcome_act, Cursor.run_text, hread]
  | some length => exact outcome_bind_of_ok (outcome_expect _ cursor)

/-! ### Bytes -/

/-- A reader finds a value in bytes and leaves the cursor behind them. -/
def Takes (reader : Reader Logged α) (taken : List UInt8) (value : α) : Prop :=
  ∀ before behind, outcome reader (between before (taken ++ behind)) =
    .ok (value, between (before ++ taken) behind)

theorem Takes.pure (value : α) : Takes (Pure.pure value) [] value := by
  intro before behind
  rw [List.append_nil]
  rfl

theorem Takes.bind {next : α → Reader Logged β} {result : β} (h : Takes reader taken value)
    (hnext : Takes (next value) more result) :
    Takes (reader >>= next) (taken ++ more) result := by
  intro before behind
  rw [outcome_bind, List.append_assoc, h before (more ++ behind), ← List.append_assoc]
  exact hnext (before ++ taken) behind

theorem Takes.note (level : Level) (text : String) : Takes (Host.note level text) [] () := by
  intro before behind
  rw [List.append_nil]
  rfl

/-- What does to a cursor what an action does takes what the action takes. -/
theorem Takes.of_action {action : Cursor.Action α}
    (hsame : ∀ cursor, outcome reader cursor = outcome (act action) cursor)
    (h : Cursor.Takes action taken value) : Takes reader taken value := by
  intro before behind
  rw [hsame, outcome_act, h before behind]

theorem Takes.word [Bytes.Word α] (value : α) : Takes SymbolMap.word (encode value) value :=
  .of_action outcome_word (.word value)

theorem Takes.anyWord [Bytes.Word α] (h : taken.length = Bytes.Word.width α) :
    Takes (SymbolMap.word : Reader Logged α) taken (Bytes.decode taken) :=
  .of_action outcome_word (.anyWord h)

theorem Takes.skip {count : Nat} (h : taken.length = count) : Takes (SymbolMap.skip count) taken () :=
  .of_action (outcome_skip count) (.skip h)

theorem Takes.text (name : ShortText) : Takes SymbolMap.text name.bytes name.text :=
  .of_action outcome_text (.text name)

/-! ## Symbols and blocks -/

theorem takes_symbol (segment : UInt16) (written : WrittenSymbol) :
    Takes (symbol segment) written.bytes (written.symbol segment) := by
  have htaken : written.bytes = encode written.offset ++ (written.name.bytes ++ ([] ++ [])) := by
    simp only [WrittenSymbol.bytes, List.append_nil]
  unfold symbol
  rw [htaken]
  exact (Takes.word _).bind ((Takes.text _).bind ((Takes.note _ _).bind (.pure _)))

theorem takes_symbolList (segment : UInt16) (symbols : List WrittenSymbol) :
    Takes (symbolList segment symbols.length) (symbols.flatMap WrittenSymbol.bytes)
      (symbols.map (WrittenSymbol.symbol segment)) := by
  induction symbols with
  | nil => exact .pure _
  | cons first others ih =>
    have htaken : (first :: others).flatMap WrittenSymbol.bytes =
        first.bytes ++ (others.flatMap WrittenSymbol.bytes ++ []) := by
      rw [List.flatMap_cons, List.append_nil]
    rw [List.length_cons, symbolList, htaken]
    exact (takes_symbol segment first).bind (ih.bind (.pure _))

theorem takes_blockPointer (next : UInt16) :
    Takes blockPointer (encode next) (next.toNat * paragraphSize) := by
  have htaken : encode next = encode next ++ [] := (List.append_nil _).symm
  unfold blockPointer
  rw [htaken]
  exact (Takes.word next).bind (.pure _)

theorem takes_blockHeader (filler : Filler) (start : Nat) (next : UInt16) (written : WrittenSegment) :
    Takes blockHeader (written.front filler start next) {
      next := next.toNat * paragraphSize
      symbolCount := UInt16.ofNat written.symbols.length
      number := written.number
      type := segmentType
      name := written.name.text } := by
  have htaken : written.front filler start next =
      encode next ++ (encode (UInt16.ofNat written.symbols.length) ++ (filler.bytes (start + 4) 2
        ++ (encode written.number ++ (filler.bytes (start + 8) 6 ++ (encode segmentType
        ++ (filler.bytes (start + 15) 5 ++ (written.name.bytes ++ []))))))) := by
    simp only [WrittenSegment.front, List.append_assoc, List.append_nil]
  unfold blockHeader
  rw [htaken]
  refine (takes_blockPointer next).bind ((Takes.word _).bind ?_)
  refine Takes.bind (.anyWord (filler.length_bytes _ _)) ((Takes.word _).bind ?_)
  refine Takes.bind (.skip (filler.length_bytes _ _)) ((Takes.word _).bind ?_)
  refine Takes.bind (.skip (filler.length_bytes _ _)) ((Takes.text _).bind (.pure _))

theorem takes_block (filler : Filler) (start : Nat) (next : UInt16) (written : WrittenSegment) :
    Takes block (written.block filler start next)
      (written.segment, next.toNat * paragraphSize) := by
  have htaken : written.block filler start next =
      written.front filler start next ++ ([] ++
        (written.symbols.flatMap WrittenSymbol.bytes ++ [])) := by
    simp only [WrittenSegment.block, List.append_nil, List.nil_append]
  have hcount : (UInt16.ofNat written.symbols.length).toNat = written.symbols.length :=
    UInt16.toNat_ofNat_of_lt' written.few
  have hsymbols := takes_symbolList written.number written.symbols
  rw [← hcount] at hsymbols
  unfold block
  rw [htaken]
  refine (takes_blockHeader filler start next written).bind ((Takes.note _ _).bind ?_)
  exact hsymbols.bind (.pure _)

/-! ## The chain of blocks -/

theorem seek_between {position : Nat} {before behind before' behind' : List UInt8}
    (hsame : before ++ behind = before' ++ behind') (hposition : before'.length = position) :
    outcome (act (Cursor.seek position)) (between before behind) = .ok ((), between before' behind') := by
  have hfits : position ≤ (between before behind).data.size := by
    rw [between, hsame, List.size_toArray, List.length_append]
    omega
  rw [outcome_act, Cursor.run_seek, if_pos hfits, between, between, hsame, hposition]

/-- A chain of blocks is one block with the chain at the place that it points to, or it ends. -/
theorem outcome_blocks_succ (fuel : Nat) (cursor : Cursor) :
    outcome (blocks (fuel + 1)) cursor =
      if cursor.position + minBlockSize < cursor.data.size then
        match outcome block cursor with
        | .error error => .error error
        | .ok ((segment, next), after) =>
          if next < after.position then .ok ([segment], after)
          else
            match outcome (act (Cursor.seek next)) after with
            | .error error => .error error
            | .ok (_, found) =>
              match outcome (blocks fuel) found with
              | .error error => .error error
              | .ok (rest, last) => .ok (segment :: rest, last)
      else .ok ([], cursor) := by
  rw [blocks, outcome_bind, outcome_hasRoom]
  simp only [decide_eq_true_eq]
  split
  · rw [outcome_bind]
    cases outcome block cursor with
    | error error => rfl
    | ok read =>
      obtain ⟨⟨segment, next⟩, after⟩ := read
      dsimp only
      rw [outcome_bind, outcome_get]
      dsimp only
      split
      · rfl
      · rw [outcome_bind]
        cases outcome (act (Cursor.seek next)) after with
        | error error => rfl
        | ok sought =>
          obtain ⟨_, found⟩ := sought
          dsimp only
          rw [outcome_bind]
          cases outcome (blocks fuel) found <;> rfl
  · rfl

/-- A block that points back ends the chain. -/
theorem outcome_blocks_last {fuel next : Nat} {segment : SymbolSegment} {written before behind : List UInt8}
    (h : Takes block written (segment, next)) (hroom : minBlockSize < (written ++ behind).length)
    (hback : next < before.length + written.length) :
    outcome (blocks (fuel + 1)) (between before (written ++ behind)) =
      .ok ([segment], between (before ++ written) behind) := by
  have hsize : (between before (written ++ behind)).position + minBlockSize <
      (between before (written ++ behind)).data.size := by
    rw [Cursor.size_between, Cursor.position_between]
    omega
  rw [outcome_blocks_succ, if_pos hsize, h]
  dsimp only
  rw [Cursor.position_between, List.length_append, if_pos hback]

/-- Behind a block that points to a later place the chain goes on there. -/
theorem outcome_blocks_next {fuel next : Nat} {segment : SymbolSegment} {segments : List SymbolSegment}
    {written filling before behind : List UInt8} {after : Cursor}
    (h : Takes block written (segment, next)) (hroom : minBlockSize < (written ++ (filling ++ behind)).length)
    (hnext : (before ++ (written ++ filling)).length = next)
    (hrest : outcome (blocks fuel) (between (before ++ (written ++ filling)) behind) =
      .ok (segments, after)) :
    outcome (blocks (fuel + 1)) (between before (written ++ (filling ++ behind))) =
      .ok (segment :: segments, after) := by
  have hsize : (between before (written ++ (filling ++ behind))).position + minBlockSize <
      (between before (written ++ (filling ++ behind))).data.size := by
    rw [Cursor.size_between, Cursor.position_between]
    omega
  have hforward : ¬next < (before ++ written).length := by
    simp only [List.length_append] at hnext ⊢
    omega
  have hseek : outcome (act (Cursor.seek next)) (between (before ++ written) (filling ++ behind)) =
      .ok ((), between (before ++ (written ++ filling)) behind) :=
    seek_between (by simp only [List.append_assoc]) hnext
  rw [outcome_blocks_succ, if_pos hsize, h]
  dsimp only
  rw [Cursor.position_between, if_neg hforward, hseek]
  dsimp only
  rw [hrest]

/-- The chain of written blocks is read to its end: each block ends at or before the start of the one
behind it, and none is so near to the end of the file that it would not be looked for. -/
theorem outcome_blocks {filler : Filler} {paragraph fuel : Nat} {before behind : List UInt8}
    (segments : List WrittenSegment) (hbefore : before.length = paragraph * paragraphSize)
    (hbehind : behind.length = 4) (hfuel : segments.length < fuel)
    (hstarts : ∀ start ∈ startsFrom paragraph segments, start < UInt16.size) :
    ∃ after, outcome (blocks fuel) (between before (blocksFrom filler paragraph segments ++ behind)) =
      .ok (segments.map WrittenSegment.segment, after) := by
  induction segments generalizing paragraph fuel before with
  | nil =>
    obtain ⟨less, rfl⟩ : ∃ less, fuel = less + 1 := ⟨fuel - 1, by omega⟩
    have hend : ¬(between before behind).position + minBlockSize < (between before behind).data.size := by
      rw [Cursor.size_between, Cursor.position_between, minBlockSize]
      omega
    rw [outcome_blocks_succ]
    exact ⟨_, if_neg hend⟩
  | cons first others ih =>
    obtain ⟨less, rfl⟩ : ∃ less, fuel = less + 1 := ⟨fuel - 1, by omega⟩
    obtain ⟨filling, hsplit, hfilled⟩ := blocksFrom_cons filler paragraph first others
    have htakes := takes_block filler (paragraph * paragraphSize)
      (pointerTo (paragraph + first.paragraphs) others) first
    have hlength : (first.block filler (paragraph * paragraphSize)
      (pointerTo (paragraph + first.paragraphs) others)).length = first.size := first.length_block
    generalize first.block filler (paragraph * paragraphSize)
      (pointerTo (paragraph + first.paragraphs) others) = written at hsplit htakes hlength
    have hsize := first.size_le_paragraphs
    have hroom (rest : List UInt8) :
        minBlockSize < (written ++ (filling ++ (rest ++ behind))).length := by
      simp only [List.length_append, hlength, hbehind]
      omega
    rw [hsplit, List.append_assoc, List.append_assoc]
    cases others with
    | nil =>
      have hpos := first.size_pos
      exact ⟨_, outcome_blocks_last htakes (hroom _) (by rw [hlength]; change 0 * _ < _; omega)⟩
    | cons second more =>
      have hnext : (before ++ (written ++ filling)).length =
          (paragraph + first.paragraphs) * paragraphSize := by
        simp only [List.length_append, hlength, Nat.add_mul]
        omega
      have hpointer : (pointerTo (paragraph + first.paragraphs) (second :: more)).toNat =
          paragraph + first.paragraphs :=
        UInt16.toNat_ofNat_of_lt' (hstarts _ (List.mem_cons_of_mem _ List.mem_cons_self))
      obtain ⟨after, hafter⟩ := ih hnext (Nat.lt_of_succ_lt_succ hfuel)
        fun start hmem => hstarts start (List.mem_cons_of_mem _ hmem)
      rw [hpointer] at htakes
      exact ⟨after, outcome_blocks_next htakes (hroom _) hnext hafter⟩

/-! ## Whole maps -/

theorem takes_header (filler : Filler) (written : WrittenMap) :
    Takes header (written.front filler) {
      entrySegment := written.entrySegment
      looseSymbols := 0
      segmentCount := UInt16.ofNat written.segments.length
      firstBlock := (UInt16.ofNat written.first).toNat * paragraphSize
      moduleName := written.moduleName.text } := by
  have htaken : written.front filler =
      encode written.entrySegment ++ (encode (0 : UInt16) ++ (filler.bytes 8 2
        ++ (encode (UInt16.ofNat written.segments.length) ++ (encode (UInt16.ofNat written.first)
        ++ (filler.bytes 14 1 ++ (written.moduleName.bytes ++ [])))))) := by
    simp only [WrittenMap.front, List.append_assoc, List.append_nil]
  unfold header
  rw [htaken]
  refine (Takes.word _).bind ((Takes.word _).bind ?_)
  refine Takes.bind (.anyWord (filler.length_bytes _ _)) ((Takes.word _).bind ?_)
  refine (takes_blockPointer _).bind (Takes.bind (.skip (filler.length_bytes _ _)) ?_)
  exact (Takes.text _).bind (.pure _)

/-- A whole map is read: the size field tells the size of the file, the header its first block, and the
chain from there has as many blocks as the header tells. -/
theorem outcome_whole (filler : Filler) (written : WrittenMap)
    (hstarts : ∀ start ∈ written.starts, start < UInt16.size) :
    ∃ after, outcome (whole (written.bytes filler).length) (between [] (written.bytes filler)) =
      .ok (written.map, after) := by
  obtain ⟨filling, hbytes, hheader⟩ := written.bytes_eq filler
  have hlength := written.length_bytes filler
  generalize htail : blocksFrom filler written.first written.segments ++
    filler.bytes (written.paragraphs * paragraphSize) 4 = tail at hbytes
  have hsize : (UInt32.ofNat written.paragraphs).toNat = written.paragraphs :=
    UInt32.toNat_ofNat_of_lt' (endFrom_lt written.first_lt hstarts)
  have hfirst : (UInt16.ofNat written.first).toNat = written.first :=
    UInt16.toNat_ofNat_of_lt' written.first_lt
  have hcount : (UInt16.ofNat written.segments.length).toNat = written.segments.length :=
    UInt16.toNat_ofNat_of_lt' written.few
  have hfuel : written.segments.length < (written.bytes filler).length := by
    have hends := length_le_endFrom written.first written.segments
    rw [hlength, WrittenMap.paragraphs, paragraphSize]
    omega
  -- The five places where the cursor stands on the way, and what is read from one to the next.
  have hword := Takes.word (UInt32.ofNat written.paragraphs) []
    (written.front filler ++ (filling ++ tail))
  rw [← List.append_assoc (encode _), ← WrittenMap.header, ← hbytes, List.nil_append] at hword
  have hfront := takes_header filler written (encode (UInt32.ofNat written.paragraphs))
    (filling ++ tail)
  rw [← WrittenMap.header, hfirst] at hfront
  have hseek : outcome (act (Cursor.seek (written.first * paragraphSize)))
      (between (written.header filler) (filling ++ tail)) =
        .ok ((), between (written.header filler ++ filling) tail) :=
    seek_between (List.append_assoc ..).symm hheader
  obtain ⟨after, hblocks⟩ := outcome_blocks written.segments hheader
    (filler.length_bytes (written.paragraphs * paragraphSize) 4) hfuel hstarts
  rw [htail] at hblocks
  have htotal : (between (encode (UInt32.ofNat written.paragraphs))
      (written.front filler ++ (filling ++ tail))).data.size = (written.bytes filler).length := by
    rw [Cursor.size_between, hbytes, WrittenMap.header]
    simp only [List.length_append, Nat.add_assoc]
  rw [whole, outcome_bind_of_ok hword, outcome_bind_of_ok (outcome_get _)]
  dsimp only
  rw [htotal, hsize, hlength, outcome_bind_of_ok (outcome_sum ..), if_neg (fun hne => hne rfl),
    outcome_bind_of_ok hfront,
    outcome_bind_of_ok (outcome_note ..), if_neg (fun hne => hne rfl), outcome_bind_of_ok hseek,
    ← hlength, outcome_bind_of_ok hblocks, hcount, List.length_map, if_neg (fun hne => hne rfl)]
  exact ⟨after, rfl⟩

theorem symbolCount_eq (map : SymbolMap) : map.symbolCount = map.symbols.length := by
  rw [symbolCount, symbols]
  induction map.segments with
  | nil => rfl
  | cons first others ih => rw [List.foldr_cons, List.flatMap_cons, List.length_append, ih]

theorem value_parse (bytes : List UInt8) :
    (parse bytes.toArray).value = (outcome (whole bytes.length) (between [] bytes)).map Prod.fst := rfl

/-- Reading a written map gives back the module name, the entry segment and the segments, with each symbol in
the segment of its block, whatever stands in the bytes that nobody reads. The symbols of the map are those of
all segments in their order, and they are counted. -/
theorem parse_written (filler : Filler) (written : WrittenMap)
    (hstarts : ∀ start ∈ written.starts, start < UInt16.size) :
    ∃ map, (parse (written.bytes filler).toArray).value = .ok map ∧
      map.moduleName = written.moduleName.text ∧
      map.entrySegment = written.entrySegment ∧
      map.segments = written.segments.map WrittenSegment.segment ∧
      map.symbols = (written.segments.flatMap fun segment =>
        segment.symbols.map (WrittenSymbol.symbol segment.number)) ∧
      map.symbolCount = map.symbols.length := by
  obtain ⟨after, houtcome⟩ := outcome_whole filler written hstarts
  refine ⟨written.map, ?_, rfl, rfl, rfl, ?_, ?_⟩
  · rw [value_parse, houtcome]
    rfl
  · exact List.flatMap_map ..
  · exact written.map.symbolCount_eq

def twoSegments : WrittenMap where
  moduleName := ⟨"game", by simp, by simp⟩
  entrySegment := 1
  segments := [
    { number := 1, name := ⟨"CODE", by simp, by simp⟩, few := by decide
      symbols := [
        ⟨0x10, ⟨"main", by simp, by simp⟩⟩,
        ⟨0x24, ⟨"é", by simp, by simp⟩⟩] },
    { number := 2, name := ⟨"", by simp, by simp⟩, symbols := [], few := by decide }]
  few := by decide

theorem parse_written_twoSegments :
    (∀ start ∈ twoSegments.starts, start < UInt16.size) ∧
    ∃ map, (parse (twoSegments.bytes ⟨fun _ => 0⟩).toArray).value = .ok map ∧
      map.symbols.map Symbol.name = ["main", "é"] ∧ map.symbolCount = 2 := by
  have hstarts : ∀ start ∈ twoSegments.starts, start < UInt16.size := by decide
  obtain ⟨map, hparse, -, -, -, hsymbols, hcount⟩ := parse_written ⟨fun _ => 0⟩ twoSegments hstarts
  exact ⟨hstarts, map, hparse, by rw [hsymbols]; rfl, by rw [hcount, hsymbols]; rfl⟩

end FlowDisasm.SymbolMap
