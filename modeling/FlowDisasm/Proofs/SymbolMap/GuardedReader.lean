import FlowDisasm.Proofs.Guarded
import FlowDisasm.Proofs.SymbolMap.Chain

/-!
# Following the chain within bounds

Maps are read here by a host that checks every slice of the file, every sum of a position and a length, and that a number
of blocks is enough: where a slice is not in the file, a sum is no 64-bit number or the blocks are used up, it comes to
nothing at all. A block for every 21 bytes of the file is enough for it to come to what reading comes to, on every file.
-/
namespace FlowDisasm.SymbolMap

open Bytes (Cursor)

/-- Reading a map with guards, and without a log. -/
abbrev GuardedReader (α : Type) := Reader Option α

/-- The symbol map in the bytes of a file, if it has at most so many blocks. -/
def GuardedReader.parse (most : Nat) (file : Array UInt8) : Guarded SymbolMap := do
  let (map, _) ← (whole most).run { data := file }
  return map

/-! ## The guarded reader keeps to its bounds -/

/-- A cursor in a file whose size can be told by its header. -/
structure Inside (cursor : Cursor) : Prop where
  position : cursor.position ≤ cursor.data.size
  size : cursor.data.size ≤ UInt32.size * paragraphSize

theorem Inside.sum_lt {cursor : Cursor} (h : Inside cursor) {count : Nat} (hcount : count < UInt32.size) :
    cursor.position + count < UInt64.size := by
  have hposition := h.position
  have hsize := h.size
  unfold UInt32.size at hcount
  unfold UInt32.size paragraphSize at hsize
  unfold UInt64.size
  omega

theorem Inside.passes {cursor after : Cursor} {bytes : List UInt8} (h : Inside cursor)
    (hpasses : Cursor.Passes cursor bytes after) : Inside after where
  position := hpasses.position_le
  size := hpasses.data_eq ▸ h.size

variable {α β : Type} {cursor : Cursor} {count : Nat}

theorem keeps_get {next : Cursor → GuardedReader α} {result : Except Error (α × Cursor)}
    (h : Keeps ((next cursor).run cursor) result) : Keeps ((get >>= next).run cursor) result := h

/-- A step that keeps to its bounds can be taken off the front. -/
theorem keeps_step {guarded : GuardedReader α} {next : α → GuardedReader β} {value : α} {after : Cursor}
    {result : Except Error (β × Cursor)} (h : Keeps (guarded.run cursor) (.ok (value, after)))
    (hnext : Keeps ((next value).run after) result) : Keeps ((guarded >>= next).run cursor) result :=
  h.step hnext

theorem keeps_require {condition : Prop} [Decidable condition] (h : condition) (cursor : Cursor) :
    Keeps ((Host.require condition : GuardedReader Unit).run cursor) (.ok ((), cursor)) :=
  (Keeps.require h).step (.pure _)

theorem keeps_sum {first second : Nat} (h : first + second < UInt64.size) (cursor : Cursor) :
    Keeps ((Host.sum first second : GuardedReader Nat).run cursor) (.ok (first + second, cursor)) :=
  keeps_step (keeps_require h cursor) (.pure _)

theorem keeps_expect (h : cursor.position + count < UInt64.size) :
    Keeps ((expect count : GuardedReader Unit).run cursor) (.ok ((), cursor)) := by
  refine keeps_get (keeps_step (keeps_sum h cursor) ?_)
  split
  · rename_i hfits
    have hinside : cursor.position ≤ cursor.position + count ∧
        cursor.position + count ≤ cursor.data.size := ⟨Nat.le_add_right _ _, hfits⟩
    have hslice : Keeps ((Host.slice cursor.data cursor.position (cursor.position + count) :
        GuardedReader (Array UInt8)).run cursor)
        (.ok (cursor.data.extract cursor.position (cursor.position + count), cursor)) :=
      keeps_step (keeps_require hinside cursor) (.pure _)
    exact hslice.step (.pure _)
  · exact .pure _

/-- An action on the cursor has no guards of its own. -/
theorem keeps_act (action : Cursor.Action α) (cursor : Cursor) :
    Keeps ((act action : GuardedReader α).run cursor) (outcome (act action) cursor) := by
  rw [outcome_act, StateT.run, act]
  rcases action.run cursor with ⟨result, after⟩
  cases result <;> rfl

theorem keeps_word [Bytes.Word α] (h : cursor.position + Bytes.Word.width α < UInt64.size) :
    Keeps ((word : GuardedReader α).run cursor) (outcome word cursor) := by
  rw [outcome_word]
  exact keeps_step (keeps_expect h) (keeps_act _ cursor)

theorem keeps_bind {guarded : GuardedReader α} {reader : Reader Logged α}
    {guardedNext : α → GuardedReader β} {next : α → Reader Logged β}
    (h : Keeps (guarded.run cursor) (outcome reader cursor))
    (hnext : ∀ value after, outcome reader cursor = .ok (value, after) →
      Keeps ((guardedNext value).run after) (outcome (next value) after)) :
    Keeps ((guarded >>= guardedNext).run cursor) (outcome (reader >>= next) cursor) := by
  have hbind : Keeps ((guarded >>= guardedNext).run cursor)
      (outcome reader cursor >>= fun read => outcome (next read.1) read.2) :=
    h.bind fun read hread => hnext read.1 read.2 hread
  rw [outcome_bind]
  cases hread : outcome reader cursor with
  | ok read =>
    rw [hread] at hbind
    exact hbind
  | error error =>
    rw [hread] at hbind
    exact hbind

/-- A guarded reader does what a reader does, and stays in the file. -/
def Mirrors {α : Type} (guarded : GuardedReader α) (reader : Reader Logged α) : Prop :=
  ∀ cursor, Inside cursor → Keeps (guarded.run cursor) (outcome reader cursor) ∧
    ∀ value after, outcome reader cursor = .ok (value, after) → Inside after

namespace Mirrors

variable {guarded : GuardedReader α} {reader : Reader Logged α}
  {guardedNext : α → GuardedReader β} {next : α → Reader Logged β}

theorem pure (value : α) : Mirrors (Pure.pure value) (Pure.pure value) := by
  intro cursor hcursor
  refine ⟨rfl, fun found after h => ?_⟩
  obtain ⟨-, rfl⟩ := outcome_pure_eq_ok.mp h
  exact hcursor

theorem throw (error : Error) :
    Mirrors (throw error : GuardedReader α) (throw error : Reader Logged α) :=
  fun _ _ => ⟨rfl, fun _ _ h => by cases h⟩

theorem get : Mirrors get get := by
  intro cursor hcursor
  refine ⟨rfl, fun found after h => ?_⟩
  cases h
  exact hcursor

theorem note (level : Level) (text : String) : Mirrors (Host.note level text) (Host.note level text) := by
  intro cursor hcursor
  refine ⟨rfl, fun found after h => ?_⟩
  cases h
  exact hcursor

/-- What follows a reader starts with a cursor in the file. -/
theorem keeps_bind (h : Mirrors guarded reader) (hcursor : Inside cursor)
    (hnext : ∀ value after, outcome reader cursor = .ok (value, after) → Inside after →
      Keeps ((guardedNext value).run after) (outcome (next value) after)) :
    Keeps ((guarded >>= guardedNext).run cursor) (outcome (reader >>= next) cursor) := by
  obtain ⟨hkeeps, hinside⟩ := h cursor hcursor
  exact SymbolMap.keeps_bind hkeeps fun value after hvalue =>
    hnext value after hvalue (hinside value after hvalue)

theorem bind (h : Mirrors guarded reader) (hnext : ∀ value, Mirrors (guardedNext value) (next value)) :
    Mirrors (guarded >>= guardedNext) (reader >>= next) := by
  intro cursor hcursor
  refine ⟨h.keeps_bind hcursor fun value after _ hafter => (hnext value after hafter).1,
    fun value after hvalue => ?_⟩
  obtain ⟨first, between, hfirst, hrest⟩ := outcome_bind_eq_ok.mp hvalue
  exact (hnext first between ((h cursor hcursor).2 first between hfirst)).2 value after hrest

theorem ite {condition : Prop} [Decidable condition] {guardedElse : GuardedReader α}
    {otherwise : Reader Logged α} (h : Mirrors guarded reader) (helse : Mirrors guardedElse otherwise) :
    Mirrors (if condition then guarded else guardedElse) (if condition then reader else otherwise) := by
  split
  · exact h
  · exact helse

theorem act {action : Cursor.Action α}
    (h : ∀ {cursor value after}, Inside cursor → action.run cursor = (.ok value, after) → Inside after) :
    Mirrors (act action) (act action) :=
  fun cursor hcursor => ⟨keeps_act action cursor, fun _ _ hrun => h hcursor (outcome_act_eq_ok.mp hrun)⟩

theorem expect (hcount : count < UInt32.size) : Mirrors (expect count) (expect count) := by
  intro cursor hcursor
  rw [outcome_expect]
  refine ⟨keeps_expect (hcursor.sum_lt hcount), fun found after h => ?_⟩
  cases h
  exact hcursor

theorem seek (position : Nat) :
    Mirrors (SymbolMap.act (Cursor.seek position)) (SymbolMap.act (Cursor.seek position)) := by
  refine act fun hcursor hrun => ?_
  obtain ⟨hfits, rfl⟩ := outcome_seek_eq_ok.mp (outcome_act_eq_ok.mpr hrun)
  exact ⟨hfits, hcursor.size⟩

theorem word [Bytes.Word α] (hwidth : Bytes.Word.width α < UInt32.size) :
    Mirrors (word : GuardedReader α) word :=
  (expect hwidth).bind fun _ => act fun hcursor hrun => hcursor.passes (Cursor.passes_of_run_word hrun)

theorem skip (hcount : count < UInt32.size) : Mirrors (skip count) (skip count) := by
  refine (expect hcount).bind fun _ => act fun hcursor hrun => ?_
  obtain ⟨bytes, -, hpasses⟩ := Cursor.passes_of_run_skip hrun
  exact hcursor.passes hpasses

theorem peek [Bytes.Word α] :
    Mirrors (SymbolMap.act (Cursor.peek : Cursor.Action α)) (SymbolMap.act Cursor.peek) := by
  refine act fun {cursor _ _} hcursor hrun => ?_
  rw [Cursor.run_peek] at hrun
  cases hread : (Bytes.read? cursor.data cursor.position : Option α) with
  | some value =>
    rw [hread] at hrun
    cases hrun
    exact hcursor
  | none =>
    rw [hread] at hrun
    cases hrun

theorem text : Mirrors text text := by
  refine (expect (by decide)).bind fun _ => peek.bind fun length : UInt8 => ?_
  have hlength : 1 + length.toNat < UInt32.size := by
    have hlt := length.toNat_lt
    unfold UInt32.size
    omega
  refine (expect hlength).bind fun _ => act fun hcursor hrun => ?_
  obtain ⟨name, -, hpasses⟩ := Cursor.passes_of_run_text hrun
  exact hcursor.passes hpasses

/-! ### The parts of a map -/

theorem blockPointer : Mirrors blockPointer blockPointer :=
  (word (by decide)).bind fun _ => pure _

theorem header : Mirrors header header := by
  refine (word (by decide)).bind fun entrySegment => (word (by decide)).bind fun looseSymbols => ?_
  refine (word (by decide)).bind fun _ => (word (by decide)).bind fun segmentCount => ?_
  refine blockPointer.bind fun firstBlock => (skip (by decide)).bind fun _ => ?_
  exact text.bind fun moduleName => pure _

theorem blockHeader : Mirrors blockHeader blockHeader := by
  refine blockPointer.bind fun next => (word (by decide)).bind fun symbolCount => ?_
  refine (word (by decide)).bind fun _ => (word (by decide)).bind fun number => ?_
  refine (skip (by decide)).bind fun _ => (word (by decide)).bind fun type => ?_
  exact (skip (by decide)).bind fun _ => text.bind fun name => pure _

theorem symbol (segment : UInt16) : Mirrors (symbol segment) (symbol segment) :=
  (word (by decide)).bind fun offset => text.bind fun name => (note _ _).bind fun _ => pure _

theorem symbolList (segment : UInt16) (count : Nat) :
    Mirrors (symbolList segment count) (symbolList segment count) := by
  induction count with
  | zero => exact pure []
  | succ count ih => exact (symbol segment).bind fun _ => ih.bind fun _ => pure _

theorem block : Mirrors block block := by
  refine blockHeader.bind fun ⟨next, symbolCount, number, type, name⟩ => (note _ _).bind fun _ => ?_
  have hsymbols := (symbolList number symbolCount.toNat).bind fun symbols =>
    pure ((⟨number, name, symbols⟩ : SymbolSegment), next)
  exact ite ((throw _).bind fun _ => hsymbols) hsymbols

end Mirrors

/-! ## The chain within its budget -/

theorem keeps_hasRoom (h : Inside cursor) : Keeps ((hasRoom : GuardedReader Bool).run cursor)
    (.ok (decide (cursor.position + minBlockSize < cursor.data.size), cursor)) :=
  keeps_get (keeps_step (keeps_sum (h.sum_lt (by decide)) cursor) (.pure _))

/-- Where there is no room the chain ends, and takes nothing of the budget. -/
theorem keeps_blocks_of_full (h : Inside cursor)
    (hfull : ¬cursor.position + minBlockSize < cursor.data.size) (budget : Nat) :
    Keeps ((blocks budget : GuardedReader (List SymbolSegment)).run cursor) (.ok ([], cursor)) := by
  have hroom := keeps_hasRoom h
  rw [decide_eq_false hfull] at hroom
  cases budget with
  | zero =>
    exact keeps_step hroom (keeps_step (keeps_require rfl cursor) (.pure _))
  | succ budget => exact keeps_step hroom (.pure _)

/-- A budget of a block for every 21 bytes behind the cursor is not used up: a block that is read takes as many, and
one that fails had room for as many. The induction is on the rounds that reading has, which are more. -/
theorem keeps_blocks {fuel budget : Nat} (h : Inside cursor)
    (hfuel : cursor.data.size ≤ cursor.position + fuel)
    (hbudget : cursor.data.size ≤ cursor.position + 21 * budget + 20) :
    Keeps ((blocks budget : GuardedReader (List SymbolSegment)).run cursor)
      (outcome (blocks fuel) cursor) := by
  induction fuel generalizing cursor budget with
  | zero =>
    have hfull : ¬cursor.position + minBlockSize < cursor.data.size := by omega
    exact keeps_blocks_of_full h hfull budget
  | succ fuel ih =>
    by_cases hroom : cursor.position + minBlockSize < cursor.data.size
    swap
    · rw [outcome_blocks_succ, if_neg hroom]
      exact keeps_blocks_of_full h hroom budget
    obtain ⟨left, rfl⟩ : ∃ left, budget = left + 1 := by
      refine ⟨budget - 1, ?_⟩
      unfold minBlockSize at hroom
      omega
    have hhas := keeps_hasRoom h
    rw [decide_eq_true hroom] at hhas
    refine keeps_step hhas ?_
    rw [blocks, outcome_bind, outcome_hasRoom, decide_eq_true hroom]
    refine Mirrors.block.keeps_bind h fun found after hblock hafter => ?_
    obtain ⟨segment, next⟩ := found
    obtain ⟨pointer, written, -, hpasses⟩ := passes_of_block hblock
    have hposition := hpasses.position_eq
    rw [WrittenSegment.length_block] at hposition
    have hstop := PlacedBlock.start_add_le_stop ⟨cursor.position, pointer, written⟩
    refine Mirrors.get.keeps_bind hafter fun _ _ hsame _ => ?_
    cases hsame
    dsimp only
    split
    · exact .pure _
    rename_i honward
    refine (Mirrors.seek next).keeps_bind hafter fun _ sought hseek hsought => ?_
    obtain ⟨-, rfl⟩ := outcome_seek_eq_ok.mp hseek
    have hdata := congrArg Array.size hpasses.data_eq
    dsimp only [PlacedBlock.stop] at hstop
    refine keeps_bind (ih hsought ?_ ?_) fun _ _ _ => .pure _
    · dsimp only
      omega
    · dsimp only
      omega

/-- The budget of a file is a block for every 21 of its bytes. -/
theorem keeps_whole (file : Array UInt8) :
    Keeps ((whole (file.size / 21) : GuardedReader SymbolMap).run { data := file })
      (outcome (whole file.size) { data := file }) := by
  have hword : Keeps ((word : GuardedReader UInt32).run { data := file })
      (outcome word { data := file }) := by
    refine keeps_word ?_
    change 0 + 4 < UInt64.size
    decide
  refine keeps_bind hword fun paragraphs atHeader hparagraphs => ?_
  have hpasses := passes_of_word hparagraphs
  have hdata : atHeader.data = file := hpasses.data_eq
  refine keeps_bind rfl fun _ _ hsame => ?_
  cases hsame
  have hdeclared : paragraphs.toNat * paragraphSize + 4 ≤ UInt32.size * paragraphSize := by
    have hlt := paragraphs.toNat_lt
    unfold UInt32.size paragraphSize
    omega
  have htold : paragraphs.toNat * paragraphSize + 4 < UInt64.size :=
    Nat.lt_of_le_of_lt hdeclared (by decide)
  refine keeps_bind (keeps_sum htold atHeader) fun _ _ hsame => ?_
  cases hsame
  dsimp only
  split
  · exact .throw _
  -- From here on the size of the file is one that a header can tell.
  rename_i hsize
  have hinside : Inside atHeader := ⟨hpasses.position_le, Decidable.not_not.mp hsize ▸ hdeclared⟩
  refine Mirrors.header.keeps_bind hinside fun found atBlocks hheader hblocks => ?_
  obtain ⟨-, -, -, -, -, hsame⟩ := passes_of_header hheader
  refine (Mirrors.note _ _).keeps_bind hblocks fun _ _ hnoted _ => ?_
  cases hnoted
  split
  · exact .throw _
  refine (Mirrors.seek found.firstBlock).keeps_bind hblocks fun _ first hseek hfirst => ?_
  obtain ⟨-, rfl⟩ := outcome_seek_eq_ok.mp hseek
  rw [hdata] at hsame
  refine keeps_bind (keeps_blocks hfirst ?_ ?_) fun segments _ _ => ?_
  · dsimp only
    rw [hsame]
    omega
  · dsimp only
    rw [hsame]
    omega
  · split
    · exact .throw _
    · exact .pure _

/-- Whatever the pointers in a file say, its map is read within bounds, at the cost of a block for every 21 bytes at
most. A map that is found is that of a chain of blocks which lie one behind the other in the file. -/
theorem parse_well_founded (file : Array UInt8) :
    (GuardedReader.parse (file.size / 21) file).run = some (parse file).value ∧
      ∀ map, (parse file).value = .ok map → ∃ chain, Chains file map chain := by
  refine ⟨?_, fun map => chains_of_parse⟩
  have hkeeps : Keeps (GuardedReader.parse (file.size / 21) file)
      (outcome (whole file.size) { data := file } >>= fun read => .ok read.1) :=
    (keeps_whole file).bind fun read _ => .pure _
  rw [hkeeps]
  change some _ = some ((outcome (whole file.size) { data := file }).map Prod.fst)
  cases outcome (whole file.size) { data := file } <;> rfl

end FlowDisasm.SymbolMap
