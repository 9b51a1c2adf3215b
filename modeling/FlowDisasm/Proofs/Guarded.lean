import FlowDisasm.Error
import FlowDisasm.Host

/-!
# Computations within bounds

A guarded computation may fail with an error like any other one, and comes to nothing at all where it oversteps a bound:
where a place that it takes for granted is not there, or a sum is no 64-bit number. It keeps to its bounds if it comes to
a result. What is made of computations that keep to their bounds does so as well.
-/
namespace FlowDisasm

/-- A host without notes, which comes to nothing where a condition that is taken for granted does not hold. -/
instance : Host Option where
  note _ _ := some ()
  require condition := if condition then some () else none

/-- A computation that may fail with an error, and comes to nothing where it oversteps a bound. -/
abbrev Guarded (α : Type) := ExceptT Error Option α

/-! ## Keeping to bounds -/

/-- A guarded computation never oversteps a bound, and comes to a result. -/
def Keeps {α : Type} (guarded : Guarded α) (result : Except Error α) : Prop :=
  guarded.run = some result

namespace Keeps

variable {α β ι : Type} {first : Guarded α} {next : α → Guarded β} {result : Except Error α}
  {after : α → Except Error β} {final : Except Error β} {value : α}

theorem ofExcept (result : Except Error α) : Keeps (MonadExcept.ofExcept result) result := by
  cases result <;> rfl

theorem pure (value : α) : Keeps (pure value : Guarded α) (.ok value) := rfl

theorem throw (error : Error) : Keeps (throw error : Guarded α) (.error error) := rfl

theorem note (level : Level) (text : String) : Keeps (Host.note level text) (.ok ()) := rfl

theorem bind (h : Keeps first result) (hnext : ∀ value, result = .ok value → Keeps (next value) (after value)) :
    Keeps (first >>= next) (result >>= after) := by
  rw [Keeps, ExceptT.run_bind, h]
  cases result with
  | error error => rfl
  | ok value => exact hnext value rfl

/-- A step that keeps to its bounds can be taken off the front. -/
theorem step (h : Keeps first (.ok value)) (hnext : Keeps (next value) final) :
    Keeps (first >>= next) final := by
  have hbind : Keeps (first >>= next) (Except.ok value >>= fun _ => final) := by
    apply h.bind
    rintro _ ⟨⟩
    exact hnext
  exact hbind

theorem discard (h : Keeps first (.ok value)) : Keeps (discard first) (.ok ()) := by
  exact h.step (pure ())

theorem each {round : ι → Guarded Unit} {items : List ι}
    (h : ∀ item ∈ items, Keeps (round item) (.ok ())) : Keeps (items.forM round) (.ok ()) := by
  induction items with
  | nil => exact pure ()
  | cons item items ih =>
    obtain ⟨hitem, hitems⟩ := List.forall_mem_cons.mp h
    exact hitem.step (ih hitems)

theorem require {condition : Prop} [Decidable condition] (h : condition) :
    Keeps (Host.require condition) (.ok ()) := by
  change Option.map Except.ok (if condition then some () else none) = _
  rw [if_pos h]
  rfl

theorem sum {first second : Nat} (h : first + second < UInt64.size) :
    Keeps (Host.sum first second) (.ok (first + second)) :=
  (require h).step (pure _)

theorem difference {first second : Nat} (h : second ≤ first) :
    Keeps (Host.difference first second) (.ok (first - second)) :=
  (require h).step (pure _)

theorem slice {data : Array UInt8} {start stop : Nat} (h : start ≤ stop) (hstop : stop ≤ data.size) :
    Keeps (Host.slice data start stop) (.ok (data.extract start stop)) :=
  (require ⟨h, hstop⟩).step (pure _)

theorem item {items : List α} {place : Nat} (h : place < items.length) :
    Keeps (Host.item items place) (.ok items[place]?) :=
  (require h).step (pure _)

end Keeps

end FlowDisasm
