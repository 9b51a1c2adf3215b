import FlowDisasm.Proofs.Bytes.Cursor
import FlowDisasm.Proofs.Bytes.Integers

/-!
# Operations on a cursor

An operation needs the bytes up to some place, and fails if the data ends in front of it. One that succeeds goes to this
place, or only looks ahead; one that fails leaves the cursor where it was, or behind the length byte of a text whose
characters are missing. So the cursor is never behind the end of the data, whatever was done with it, and no operation
oversteps a bound.
-/
namespace FlowDisasm.Bytes

open InPlace (Ends)

namespace Cursor

variable {α β : Type} {cursor : Cursor}

/-! ## Actions in place -/

namespace InPlace

open FlowDisasm.InPlace

def endPosition (count : Nat) : InPlace Cursor Nat := do
  let { data, position } ← get
  rangeEnd data.size position count

def seek (position : Nat) : InPlace Cursor Unit := do
  let cursor ← get
  if position ≤ cursor.data.size then set { cursor with position }
  else throw .outOfBounds

def skip (count : Nat) : InPlace Cursor Unit := do
  let position ← endPosition count
  modify fun cursor => { cursor with position }

/-- The next word, read at a copy of the position. -/
def peek [Word α] : InPlace Cursor α := do
  let { data, .. } ← get
  on Cursor.position (fun _ cursor => cursor) (readInPlace data)

def word [Word α] : InPlace Cursor α := do
  let { data, .. } ← get
  on Cursor.position (fun position cursor => { cursor with position }) (readInPlace data)

def bytes (count : Nat) : InPlace Cursor (List UInt8) := do
  let stop ← endPosition count
  let { data, position } ← get
  let found ← slice data position stop
  modify fun cursor => { cursor with position := stop }
  return found

def text : InPlace Cursor String := do
  let length : UInt8 ← word
  let characters ← bytes length.toNat
  return String.ofList (characters.map fun byte => Char.ofNat byte.toNat)

end InPlace

/-- A step in place does what an action does, and keeps the data. -/
def Mirrors (step : InPlace Cursor α) (action : Action α) : Prop :=
  ∀ cursor, cursor.data.size < UInt64.size →
    Ends step cursor (action.run cursor) ∧ (action.run cursor).2.data = cursor.data

namespace Mirrors

variable {step : InPlace Cursor α} {action : Action α} {stepNext : α → InPlace Cursor β} {next : α → Action β}

theorem pure (value : α) : Mirrors (Pure.pure value) (Pure.pure value) :=
  fun cursor _ => ⟨.pure value cursor, rfl⟩

theorem modify {change : Cursor → Cursor} (h : ∀ cursor, (change cursor).data = cursor.data) :
    Mirrors (modify change) (modify change) :=
  fun cursor _ => ⟨.modify change cursor, h cursor⟩

theorem bind (h : Mirrors step action) (hnext : ∀ value, Mirrors (stepNext value) (next value)) :
    Mirrors (step >>= stepNext) (action >>= next) := by
  intro cursor hsize
  obtain ⟨hends, hdata⟩ := h cursor hsize
  rw [run_bind]
  rcases hrun : action.run cursor with ⟨result, between⟩
  rw [hrun] at hends hdata
  cases result with
  | error error => exact ⟨hends.fail, hdata⟩
  | ok value =>
    have hbetween : between.data = cursor.data := hdata
    rw [← hbetween] at hsize
    obtain ⟨hrest, hkept⟩ := hnext value between hsize
    exact ⟨hends.bind hrest, hkept.trans hbetween⟩

theorem endPosition (count : Nat) : Mirrors (InPlace.endPosition count) (Cursor.endPosition count) := by
  intro cursor hsize
  rw [run_endPosition]
  split
  next h => exact ⟨.get (.rangeEnd h hsize cursor), rfl⟩
  next h => exact ⟨.get (.rangeEnd_error (Nat.lt_of_not_le h) cursor), rfl⟩

theorem seek (position : Nat) : Mirrors (InPlace.seek position) (Cursor.seek position) := by
  intro cursor hsize
  rw [run_seek]
  by_cases h : position ≤ cursor.data.size
  · rw [if_pos h]
    exact ⟨.get (.ite_pos h (.set _ _)), rfl⟩
  · rw [if_neg h]
    exact ⟨.get (.ite_neg h (.throw _ _)), rfl⟩

theorem skip (count : Nat) : Mirrors (InPlace.skip count) (Cursor.skip count) :=
  (endPosition count).bind fun _ => .modify fun _ => rfl

theorem peek [Word α] : Mirrors (InPlace.peek : InPlace Cursor α) Cursor.peek := by
  intro cursor hsize
  rw [run_peek]
  cases hread : (read? cursor.data cursor.position : Option α) with
  | some word => exact ⟨.get (.on (ends_readInPlace hsize hread)), rfl⟩
  | none => exact ⟨.get (.on (ends_readInPlace_error (read?_eq_none_iff.mp hread))), rfl⟩

theorem word [Word α] : Mirrors (InPlace.word : InPlace Cursor α) Cursor.word := by
  intro cursor hsize
  rw [run_word]
  cases hread : (read? cursor.data cursor.position : Option α) with
  | some word => exact ⟨.get (.on (ends_readInPlace hsize hread)), rfl⟩
  | none => exact ⟨.get (.on (ends_readInPlace_error (read?_eq_none_iff.mp hread))), rfl⟩

theorem bytes (count : Nat) : Mirrors (InPlace.bytes count) (Cursor.bytes count) := by
  intro cursor hsize
  rw [run_bytes]
  cases hrange : range? cursor.data cursor.position count with
  | some found =>
    have hends : Ends (InPlace.endPosition count) cursor (.ok (cursor.position + count), cursor) :=
      .get (.rangeEnd (range?_eq_some_iff.mp hrange).1 hsize cursor)
    exact ⟨hends.bind (.get ((Ends.slice hrange cursor).bind ((Ends.modify _ _).bind (.pure _ _)))), rfl⟩
  | none =>
    have hends : Ends (InPlace.endPosition count) cursor (.error .outOfBounds, cursor) :=
      .get (.rangeEnd_error ((range?_eq_none_iff ..).mp hrange) cursor)
    exact ⟨hends.fail, rfl⟩

theorem text : Mirrors InPlace.text Cursor.text :=
  word.bind fun length => (bytes length.toNat).bind fun _ => .pure _

end Mirrors

/-! ## Bytes in front of the cursor -/

def upTo (cursor : Cursor) (stop : Nat) : List UInt8 :=
  (cursor.data.extract cursor.position stop).toList

theorem upTo_of_range? {count : Nat} {bytes : List UInt8}
    (h : range? cursor.data cursor.position count = some bytes) : cursor.upTo (cursor.position + count) = bytes :=
  toList_extract h

/-- A byte with others behind it. -/
theorem upTo_byte {byte : UInt8} {others : List UInt8} {count : Nat}
    (hbyte : cursor.data[cursor.position]? = some byte)
    (hothers : range? cursor.data (cursor.position + 1) count = some others) :
    cursor.upTo (cursor.position + 1 + count) = byte :: others := by
  have hwidth : Word.width UInt8 = 1 := rfl
  have hfirst : range? cursor.data cursor.position 1 = some [byte] := by
    rwa [← read?_byte, read?_eq_some_iff, encode_byte, hwidth] at hbyte
  have hlength : [byte].length = 1 := rfl
  rw [Nat.add_assoc]
  exact upTo_of_range? ((range?_append hlength).mpr ⟨hfirst, hothers⟩)

end Cursor

/-! ## Operations -/

/-- What can be done with a cursor. -/
inductive Operation where
  | seek (position : UInt64)
  | advance
  | advanceBy (count : UInt64)
  | read (type : IntegerType)
  | peek (type : IntegerType)
  | bytes (count : UInt64)
  | text
  | endPosition (count : UInt64)

namespace Operation

def Answer : Operation → Type
  | seek _ | advance | advanceBy _ => Unit
  | read type | peek type => type.Value
  | bytes _ => List UInt8
  | text => String
  | endPosition _ => Nat

def perform : (operation : Operation) → Cursor.Action operation.Answer
  | seek position => Cursor.seek position.toNat
  | advance => Cursor.skip 1
  | advanceBy count => Cursor.skip count.toNat
  | read type => (Cursor.word : Cursor.Action type.Value)
  | peek type => (Cursor.peek : Cursor.Action type.Value)
  | bytes count => Cursor.bytes count.toNat
  | text => Cursor.text
  | endPosition count => Cursor.endPosition count.toNat

def inPlace : (operation : Operation) → InPlace Cursor operation.Answer
  | seek position => Cursor.InPlace.seek position.toNat
  | advance => Cursor.InPlace.skip 1
  | advanceBy count => Cursor.InPlace.skip count.toNat
  | read type => (Cursor.InPlace.word : InPlace Cursor type.Value)
  | peek type => (Cursor.InPlace.peek : InPlace Cursor type.Value)
  | bytes count => Cursor.InPlace.bytes count.toNat
  | text => Cursor.InPlace.text
  | endPosition count => Cursor.InPlace.endPosition count.toNat

/-- Where the bytes end that an operation needs. -/
def reach (cursor : Cursor) : Operation → Nat
  | seek position => position.toNat
  | advance => cursor.position + 1
  | advanceBy count | bytes count | endPosition count => cursor.position + count.toNat
  | read type | peek type => cursor.position + type.size
  | text => cursor.position + 1 + (cursor.data[cursor.position]?.elim 0 UInt8.toNat)

/-- Where an operation leaves the cursor that has its bytes. -/
def landing (cursor : Cursor) : Operation → Nat
  | peek _ | endPosition _ => cursor.position
  | operation => operation.reach cursor

/-- Where an operation leaves the cursor that lacks bytes: only a text may have its length byte. -/
def stuck (cursor : Cursor) : Operation → Nat
  | text => if cursor.position < cursor.data.size then cursor.position + 1 else cursor.position
  | _ => cursor.position

/-- The answer of an operation tells the bytes between the cursor and the place that it reaches. -/
def Tells (cursor : Cursor) : (operation : Operation) → operation.Answer → Prop
  | read type, value | peek type, value => cursor.upTo (cursor.position + type.size) = @encode type.Value _ value
  | bytes count, found => cursor.upTo (cursor.position + count.toNat) = found
  | text, name => name.toList =
      (cursor.upTo (text.reach cursor)).tail.map fun byte => Char.ofNat byte.toNat
  | endPosition count, stop => stop = cursor.position + count.toNat
  | _, _ => True

/-- What an operation does to a cursor. -/
structure Exact (cursor : Cursor) (operation : Operation) : Prop where
  answers : operation.reach cursor ≤ cursor.data.size → ∃ answer,
    operation.perform.run cursor = (.ok answer, { cursor with position := operation.landing cursor }) ∧
      operation.Tells cursor answer
  refuses : cursor.data.size < operation.reach cursor →
    operation.perform.run cursor = (.error .outOfBounds, { cursor with position := operation.stuck cursor })

variable {cursor : Cursor} {operation : Operation}

/-- An operation that looks first whether its bytes are there, and leaves the cursor alone if not. -/
theorem exact_of_ite {answer : operation.Answer} (hrun : operation.perform.run cursor =
      if operation.reach cursor ≤ cursor.data.size then
        (.ok answer, { cursor with position := operation.landing cursor })
      else (.error .outOfBounds, cursor))
    (hstuck : operation.stuck cursor = cursor.position) (htells : operation.Tells cursor answer) :
    operation.Exact cursor where
  answers h := ⟨answer, hrun.trans (if_pos h), htells⟩
  refuses h := by
    rw [hrun, if_neg (Nat.not_le_of_lt h), hstuck]

theorem exists_value (type : IntegerType) (h : cursor.position + type.size ≤ cursor.data.size) :
    ∃ value : type.Value, read? cursor.data cursor.position = some value ∧
      cursor.upTo (cursor.position + type.size) = encode value := by
  rw [← type.width_eq] at h
  obtain ⟨value, hread⟩ : ∃ value : type.Value, read? cursor.data cursor.position = some value := exists_read? h
  rw [← type.width_eq]
  exact ⟨value, hread, Cursor.upTo_of_range? (read?_eq_some_iff.mp hread)⟩

theorem no_value (type : IntegerType) (h : cursor.data.size < cursor.position + type.size) :
    (read? cursor.data cursor.position : Option type.Value) = none := by
  rwa [read?_eq_none_iff, type.width_eq]

/-- A text may lack its length byte, or some of the characters behind it. -/
theorem exact_text (cursor : Cursor) : text.Exact cursor := by
  have hrun := Cursor.run_text cursor
  rw [read?_byte] at hrun
  cases hbyte : cursor.data[cursor.position]? with
  | none =>
    have hend : ¬cursor.position < cursor.data.size := Nat.not_lt_of_le (Array.getElem?_eq_none_iff.mp hbyte)
    rw [hbyte] at hrun
    constructor
    case answers =>
      intro h
      rw [reach] at h
      omega
    case refuses =>
      intro _
      rw [stuck, if_neg hend]
      exact hrun
  | some length =>
    have hplace : cursor.position < cursor.data.size := (Array.getElem?_eq_some_iff.mp hbyte).1
    have hreach : text.reach cursor = cursor.position + 1 + length.toNat := by
      rw [reach, hbyte]
      rfl
    rw [hbyte] at hrun
    dsimp only at hrun
    rw [← hreach] at hrun
    constructor
    case answers =>
      intro h
      rw [hreach] at h
      obtain ⟨characters, hcharacters⟩ := range?_isSome h
      rw [hcharacters] at hrun
      refine ⟨_, hrun, ?_⟩
      change String.toList _ = (cursor.upTo (text.reach cursor)).tail.map _
      rw [hreach, Cursor.upTo_byte hbyte hcharacters, String.toList_ofList, List.tail_cons]
    case refuses =>
      intro h
      rw [hreach, ← range?_eq_none_iff] at h
      rw [h] at hrun
      rw [stuck, if_pos hplace]
      exact hrun

/-- Two characters where three are announced: the length byte is left behind. -/
example : (text.perform.run { data := #[3, 65, 66] }).2.position = 1 := by rfl

theorem outcome_exact (operation : Operation) (cursor : Cursor) : operation.Exact cursor := by
  cases operation with
  | seek position => exact exact_of_ite (Cursor.run_seek ..) rfl trivial
  | advance => exact exact_of_ite (Cursor.run_skip ..) rfl trivial
  | advanceBy count => exact exact_of_ite (Cursor.run_skip ..) rfl trivial
  | endPosition count => exact exact_of_ite (Cursor.run_endPosition ..) rfl rfl
  | read type =>
    have hrun : (Cursor.word : Cursor.Action type.Value).run cursor = _ := Cursor.run_word cursor
    rw [type.width_eq] at hrun
    constructor
    case answers =>
      intro h
      obtain ⟨value, hread, htells⟩ := exists_value type h
      rw [hread] at hrun
      exact ⟨value, hrun, htells⟩
    case refuses =>
      intro h
      rw [no_value type h] at hrun
      exact hrun
  | peek type =>
    have hrun : (Cursor.peek : Cursor.Action type.Value).run cursor = _ := Cursor.run_peek cursor
    constructor
    case answers =>
      intro h
      obtain ⟨value, hread, htells⟩ := exists_value type h
      rw [hread] at hrun
      exact ⟨value, hrun, htells⟩
    case refuses =>
      intro h
      rw [no_value type h] at hrun
      exact hrun
  | bytes count =>
    have hrun := Cursor.run_bytes count.toNat cursor
    constructor
    case answers =>
      intro h
      obtain ⟨found, hfound⟩ := range?_isSome h
      rw [hfound] at hrun
      exact ⟨found, hrun, Cursor.upTo_of_range? hfound⟩
    case refuses =>
      intro h
      rw [(range?_eq_none_iff ..).mpr h] at hrun
      exact hrun
  | text => exact exact_text cursor

/-! ## One operation after the other -/

/-- A cursor in its data, or at the end of it. -/
structure Inside (data : Array UInt8) (cursor : Cursor) : Prop where
  data_eq : cursor.data = data
  position_le : cursor.position ≤ data.size

variable {data : Array UInt8}

theorem landing_le (h : cursor.position ≤ cursor.data.size) (hreach : operation.reach cursor ≤ cursor.data.size) :
    operation.landing cursor ≤ cursor.data.size := by
  cases operation with
  | peek _ | endPosition _ => exact h
  | _ => exact hreach

theorem stuck_le (h : cursor.position ≤ cursor.data.size) : operation.stuck cursor ≤ cursor.data.size := by
  cases operation with
  | text =>
    rw [stuck]
    split
    next hplace => exact hplace
    next => exact h
  | _ => exact h

theorem Inside.step (h : Inside data cursor) (operation : Operation) :
    Inside data (operation.perform.run cursor).2 := by
  obtain rfl := h.data_eq
  by_cases hreach : operation.reach cursor ≤ cursor.data.size
  · obtain ⟨answer, hrun, -⟩ := (operation.outcome_exact cursor).answers hreach
    rw [hrun]
    exact ⟨rfl, landing_le h.position_le hreach⟩
  · rw [(operation.outcome_exact cursor).refuses (Nat.lt_of_not_le hreach)]
    exact ⟨rfl, stuck_le h.position_le⟩

theorem mirrors (operation : Operation) : Cursor.Mirrors operation.inPlace operation.perform := by
  cases operation with
  | seek position => exact .seek position.toNat
  | advance => exact .skip 1
  | advanceBy count => exact .skip count.toNat
  | read type =>
    have hword : Cursor.Mirrors (Cursor.InPlace.word : InPlace Cursor type.Value) Cursor.word := .word
    exact hword
  | peek type =>
    have hpeek : Cursor.Mirrors (Cursor.InPlace.peek : InPlace Cursor type.Value) Cursor.peek := .peek
    exact hpeek
  | bytes count => exact .bytes count.toNat
  | text => exact .text
  | endPosition count => exact .endPosition count.toNat

/-- The cursor behind operations, whether they failed or not. -/
def runAll (operations : List Operation) (cursor : Cursor) : Cursor :=
  operations.foldl (fun cursor operation => (operation.perform.run cursor).2) cursor

/-- The cursor behind operations in place, if none of them oversteps a bound. -/
def runAllInPlace (operations : List Operation) (cursor : Cursor) : Option Cursor :=
  operations.foldlM (fun cursor operation => (operation.inPlace.run cursor).map Prod.snd) cursor

theorem Inside.runAll (h : Inside data cursor) (operations : List Operation) :
    Inside data (runAll operations cursor) := by
  induction operations generalizing cursor with
  | nil => exact h
  | cons operation operations ih => exact ih (h.step operation)

theorem runAllInPlace_eq (h : Inside data cursor) (hsize : data.size < UInt64.size) (operations : List Operation) :
    runAllInPlace operations cursor = some (runAll operations cursor) := by
  induction operations generalizing cursor with
  | nil => rfl
  | cons operation operations ih =>
    have hends : operation.inPlace.run cursor = some (operation.perform.run cursor) :=
      (operation.mirrors cursor (h.data_eq ▸ hsize)).1
    rw [runAllInPlace, List.foldlM_cons, hends]
    exact ih (h.step operation)

/-- What operations do to a new cursor, and any further one behind them. -/
structure Sound (data : Array UInt8) (operations : List Operation) : Prop where
  inside : Inside data (runAll operations { data })
  next (operation : Operation) : operation.Exact (runAll operations { data })
  in_place : data.size < UInt64.size → runAllInPlace operations { data } = some (runAll operations { data })
  next_in_place (operation : Operation) : data.size < UInt64.size →
    Ends operation.inPlace (runAll operations { data }) (operation.perform.run (runAll operations { data }))

/-- Operations keep the cursor in its data, fail just if they lack bytes, and never overstep a bound. -/
theorem operations_sound (data : Array UInt8) (operations : List Operation) : Sound data operations := by
  have hstart : Inside data { data } := ⟨rfl, Nat.zero_le _⟩
  have hinside := hstart.runAll operations
  constructor
  case inside => exact hinside
  case next => exact fun operation => operation.outcome_exact _
  case in_place => exact fun hsize => runAllInPlace_eq hstart hsize operations
  case next_in_place =>
    intro operation hsize
    rw [← hinside.data_eq] at hsize
    exact (operation.mirrors _ hsize).1

end Operation

end FlowDisasm.Bytes
