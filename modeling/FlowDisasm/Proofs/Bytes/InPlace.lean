import FlowDisasm.Proofs.Bytes.Words
import FlowDisasm.Proofs.Guarded

/-!
# Steps in place

A step in place is a guarded computation that changes a state where it stands, so what it changed stays changed if it
fails later on. Reading and writing words is written down here in this form, with sums that fail where they are no 64-bit
numbers, and bytes that are copied one by one. Both keep to their bounds, and leave everything as it was if they fail.
-/
namespace FlowDisasm

/-- A guarded computation that changes a state in place. -/
abbrev InPlace (σ α : Type) := ExceptT Error (StateT σ Option) α

namespace InPlace

variable {σ τ α β : Type}

def on (part : σ → τ) (put : τ → σ → σ) (step : InPlace τ α) : InPlace σ α :=
  ExceptT.mk fun state => (step.run (part state)).map fun (result, changed) => (result, put changed state)

def rangeEnd (size start count : Nat) : InPlace σ Nat :=
  if start + count < UInt64.size ∧ start + count ≤ size then return start + count
  else throw .outOfBounds

def slice (data : Array UInt8) (start stop : Nat) : InPlace σ (List UInt8) := do
  let bytes ← Host.slice data start stop
  return bytes.toList

def store (start : Nat) : List UInt8 → InPlace (Array UInt8) Unit
  | [] => return
  | byte :: rest => do
    Host.require (start < (← get).size)
    modify fun data => data.setIfInBounds start byte
    store (start + 1) rest

/-! ## What steps come to -/

/-- A step keeps to its bounds, and comes to a result and a state. -/
def Ends (step : InPlace σ α) (state : σ) (outcome : Except Error α × σ) : Prop :=
  step.run state = some outcome

namespace Ends

variable {step : InPlace σ α} {next : α → InPlace σ β} {state between after : σ} {value : α}
  {error : Error} {outcome : Except Error β × σ}

theorem pure (value : α) (state : σ) : Ends (pure value) state (.ok value, state) := rfl

theorem throw (error : Error) (state : σ) : Ends (throw error : InPlace σ α) state (.error error, state) := rfl

theorem set (state after : σ) : Ends (set after) state (.ok (), after) := rfl

theorem modify (change : σ → σ) (state : σ) : Ends (modify change) state (.ok (), change state) := rfl

theorem run_bind (step : InPlace σ α) (next : α → InPlace σ β) (state : σ) : (step >>= next).run state =
    (step.run state).bind fun read => (ExceptT.bindCont next read.1 : StateT σ Option _) read.2 := rfl

/-- A step that comes to a value can be taken off the front. -/
theorem bind (h : Ends step state (.ok value, between)) (hnext : Ends (next value) between outcome) :
    Ends (step >>= next) state outcome := by
  rw [Ends, run_bind, h]
  exact hnext

/-- Nothing is done behind a step that fails. -/
theorem fail (h : Ends step state (.error error, after)) : Ends (step >>= next) state (.error error, after) := by
  rw [Ends, run_bind, h]
  rfl

theorem get {next : σ → InPlace σ β} (h : Ends (next state) state outcome) : Ends (get >>= next) state outcome := h

theorem require {condition : Prop} [Decidable condition] (h : condition) (state : σ) :
    Ends (Host.require condition) state (.ok (), state) := by
  change (ExceptT.lift (StateT.lift (if condition then some () else none)) : InPlace σ Unit).run state = _
  rw [if_pos h]
  rfl

section

variable {condition : Prop} [Decidable condition] {other : InPlace σ α} {outcome : Except Error α × σ}

theorem ite_pos (h : condition) (hends : Ends step state outcome) :
    Ends (if condition then step else other) state outcome := by
  rwa [if_pos h]

theorem ite_neg (h : ¬condition) (hends : Ends other state outcome) :
    Ends (if condition then step else other) state outcome := by
  rwa [if_neg h]

end

theorem on {part : σ → τ} {put : τ → σ → σ} {step : InPlace τ α} {result : Except Error α} {changed : τ}
    (h : Ends step (part state) (result, changed)) : Ends (on part put step) state (result, put changed state) :=
  congrArg (Option.map fun (read : Except Error α × τ) => (read.1, put read.2 state)) h

/-! ### Ranges -/

variable {size start count : Nat} {data : Array UInt8} {bytes : List UInt8}

theorem rangeEnd (h : start + count ≤ size) (hsize : size < UInt64.size) (state : σ) :
    Ends (InPlace.rangeEnd size start count) state (.ok (start + count), state) :=
  ite_pos ⟨by omega, h⟩ (pure _ _)

/-- A range that is not inside has no end, even if the sum would be no 64-bit number. -/
theorem rangeEnd_error (h : size < start + count) (state : σ) :
    Ends (InPlace.rangeEnd size start count) state (.error .outOfBounds, state) :=
  ite_neg (by omega) (throw _ _)

theorem slice (h : Bytes.range? data start count = some bytes) (state : σ) :
    Ends (slice data start (start + count)) state (.ok bytes, state) := by
  have hfits : start + count ≤ data.size := (Bytes.range?_eq_some_iff.mp h).1
  rw [← Bytes.toList_extract h]
  have hinside : start ≤ start + count ∧ start + count ≤ data.size := ⟨Nat.le_add_right _ _, hfits⟩
  have hslice : Ends (Host.slice data start (start + count)) state
      (.ok (data.extract start (start + count)), state) :=
    (require hinside state).bind (pure _ _)
  exact hslice.bind (pure _ _)

/-- Bytes that fit are laid over the array. -/
theorem store (h : start + bytes.length ≤ data.size) :
    Ends (store start bytes) data (.ok (), Bytes.overlay data start bytes) := by
  induction bytes generalizing data start with
  | nil => exact pure _ _
  | cons byte rest ih =>
    rw [List.length_cons] at h
    have hplace : start < data.size := by omega
    have hrest : start + 1 + rest.length ≤ (data.setIfInBounds start byte).size := by
      rw [Array.size_setIfInBounds]
      omega
    exact .get ((require hplace data).bind ((modify _ data).bind (ih hrest)))

end Ends

end InPlace

namespace Bytes

open InPlace

variable {α : Type} [Word α]

/-! ## Words -/

/-- The word at a position, which goes behind it. -/
def readInPlace (data : Array UInt8) : InPlace Nat α := do
  let position ← get
  let stop ← rangeEnd data.size position (Word.width α)
  let bytes ← slice data position stop
  if bytes.length = Word.width α then
    set stop
    return decode bytes
  else throw .outOfBounds

section readInPlace

variable {data : Array UInt8} {position : Nat} {word : α}

theorem ends_readInPlace (hsize : data.size < UInt64.size) (h : read? data position = some word) :
    Ends (readInPlace data) position (.ok word, position + Word.width α) := by
  obtain ⟨bytes, hrange, rfl⟩ := Option.map_eq_some_iff.mp h
  have hfits := (range?_eq_some_iff.mp hrange).1
  apply Ends.get
  apply (Ends.rangeEnd hfits hsize position).bind
  apply (Ends.slice hrange position).bind
  apply Ends.ite_pos (length_of_range? hrange)
  exact (Ends.set _ _).bind (.pure _ _)

theorem ends_readInPlace_error (h : data.size < position + Word.width α) :
    Ends (readInPlace data : InPlace Nat α) position (.error .outOfBounds, position) :=
  .get (Ends.rangeEnd_error h position).fail

end readInPlace

namespace Buffer

variable {buffer : Buffer} {word : α}

/-- The word at the offset of a buffer, which goes behind it. -/
def readInPlace : InPlace Buffer α := do
  let { data, .. } ← get
  on Buffer.offset (fun offset buffer => { buffer with offset }) (Bytes.readInPlace data)

/-- Lays a word over the data of a buffer at its offset, which goes behind it. -/
def writeInPlace (word : α) : InPlace Buffer Unit := do
  let { data, offset } ← get
  let stop ← rangeEnd data.size offset (Word.width α)
  let places ← slice data offset stop
  Host.require (places.length = (encode word).length)
  on Buffer.data (fun data buffer => { buffer with data }) (store offset (encode word))
  modify fun buffer => { buffer with offset := stop }

theorem ends_readInPlace (hsize : buffer.data.size < UInt64.size)
    (h : read? buffer.data buffer.offset = some word) :
    Ends readInPlace buffer (.ok word, { buffer with offset := buffer.offset + Word.width α }) :=
  .get (.on (Bytes.ends_readInPlace hsize h))

theorem ends_readInPlace_error (h : buffer.data.size < buffer.offset + Word.width α) :
    Ends (readInPlace : InPlace Buffer α) buffer (.error .outOfBounds, buffer) :=
  .get (.on (Bytes.ends_readInPlace_error h))

theorem ends_writeInPlace (hsize : buffer.data.size < UInt64.size)
    (h : buffer.offset + Word.width α ≤ buffer.data.size) : Ends (writeInPlace word) buffer
      (.ok (), ⟨overlay buffer.data buffer.offset (encode word), buffer.offset + Word.width α⟩) := by
  obtain ⟨places, hplaces⟩ := range?_isSome h
  have hsame : places.length = (encode word).length := by
    rw [length_of_range? hplaces, length_encode]
  have hinside : buffer.offset + (encode word).length ≤ buffer.data.size := by
    rw [length_encode]
    exact h
  apply Ends.get
  apply (Ends.rangeEnd h hsize buffer).bind
  apply (Ends.slice hplaces buffer).bind
  apply (Ends.require hsame buffer).bind
  exact (Ends.on (Ends.store hinside)).bind (.modify _ _)

theorem ends_writeInPlace_error (h : buffer.data.size < buffer.offset + Word.width α) :
    Ends (writeInPlace word) buffer (.error .outOfBounds, buffer) :=
  .get (Ends.rangeEnd_error h buffer).fail

end Buffer

end Bytes

end FlowDisasm
