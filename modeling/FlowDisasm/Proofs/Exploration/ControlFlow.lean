import FlowDisasm.Exploration
import FlowDisasm.Proofs.X86.Decode

/-!
# Control flow

What an instruction leads to is fixed by its bytes and the mode, apart from any exploration. A place has
at most one destination that is followed, and the code goes on behind it unless it is a jump or a return.
Exploring an instruction does what is planned here or stops at an obstacle.
-/
namespace FlowDisasm

namespace X86

/-- Whether the code behind an instruction may run after it. -/
def Flow.goesOn : Flow → Bool
  | .jmp | .jmpFar | .ret | .retf | .iret => false
  | .mov | .int | .call | .callFar | .jcc | .loop | .other => true

def Flow.isNear : Flow → Bool
  | .jmp | .call | .jcc | .loop => true
  | _ => false

def Flow.isFar : Flow → Bool
  | .jmpFar | .callFar => true
  | _ => false

namespace Instruction

/-- Whether an instruction is a far branch with its destination in its own bytes. -/
def isDirectFar (instruction : Instruction) : Bool :=
  instruction.operation.flow.isFar &&
    match instruction.first? with
    | some (.far16 _ _) | some (.far32 _ _) => true
    | _ => false

/-- The destination that is followed: that of a near branch, and in real mode that of a far branch with
a short offset. -/
def destination? (instruction : Instruction) (mode : Mode) : Option UInt32 :=
  if instruction.operation.flow.isNear then instruction.target?
  else if instruction.operation.flow.isFar && !mode.assumedProtected then
    match instruction.first? with
    | some (.far16 selector offset) => some (UInt32.ofNat (selector.toNat * 16 + offset.toNat))
    | _ => none
  else none

end Instruction

end X86

namespace Subject

/-- The place behind an instruction and the data that belong to it. A move to the control register
changes the mode there. -/
def behind (subject : Subject) (instruction : X86.Instruction) (mode : Mode) : Root where
  offset := instruction.next + (subject.trailing? instruction mode).getD 0
  mode := if instruction.writesModeRegister then mode.toggled else mode

/-- The places that an instruction leads to. -/
inductive Successor (subject : Subject) (instruction : X86.Instruction) (mode : Mode) : Root → Prop
  | branch {target} (h : instruction.destination? mode = some target) :
      Successor subject instruction mode ⟨target, mode⟩
  | behind (h : instruction.operation.flow.goesOn) :
      Successor subject instruction mode (subject.behind instruction mode)

def decodeAt (subject : Subject) (place : Root) : Except Error X86.Instruction :=
  X86.decode subject.cpu subject.image place.offset place.mode.width

def Leads (subject : Subject) (place next : Root) : Prop :=
  ∃ instruction, subject.decodeAt place = .ok instruction ∧
    subject.Successor instruction place.mode next

def destinationAt? (subject : Subject) (place : Root) : Option UInt32 :=
  match subject.decodeAt place with
  | .ok instruction => instruction.destination? place.mode
  | .error _ => none

/-- Whether there is a far branch at a place that protected mode keeps from being followed. -/
def putsAside (subject : Subject) (place : Root) : Bool :=
  match subject.decodeAt place with
  | .ok instruction => instruction.isDirectFar && place.mode.assumedProtected
  | .error _ => false

/-- What is told of a far branch that is put aside, by the segments that are known then. -/
def diagnosticAt (subject : Subject) (starts : List UInt32) (place : Root) : Diagnostic where
  offset := place.offset
  address := .of starts place.offset place.mode.width
  text := match subject.decodeAt place with
    | .ok instruction => instruction.text none
    | .error _ => ""

/-- What an instruction is found to lead to when nothing stands in the way. -/
def plan (subject : Subject) (instruction : X86.Instruction) (mode : Mode) : Course where
  branch := (instruction.destination? mode).map fun target => ⟨target, mode⟩
  aside := instruction.isDirectFar && mode.assumedProtected
  next := if instruction.operation.flow.goesOn then some (subject.behind instruction mode) else none

open X86.Flow X86.Instruction

variable {subject : Subject} {instruction : X86.Instruction} {mode : Mode} {place : Root}

theorem farCourse_eq (subject : Subject) (mode : Mode) (hfar : instruction.operation.flow.isFar) :
    farCourse instruction mode = .ok { subject.plan instruction mode with next := none } ∨
    farCourse instruction mode = .error .farTarget ∧ instruction.destination? mode = none ∧
      (instruction.isDirectFar && mode.assumedProtected) = false := by
  have hnear : instruction.operation.flow.isNear = false := by
    cases hflow : instruction.operation.flow <;> simp_all [isFar, isNear]
  unfold farCourse
  split
  · rename_i hfirst
    simp [plan, destination?, isDirectFar, hnear, hfar, hfirst]
  · rename_i hfirst
    simp [plan, destination?, isDirectFar, hnear, hfar, hfirst]
  · rename_i selector offset hfirst
    cases hmode : mode.assumedProtected <;>
      simp [plan, destination?, isDirectFar, hnear, hfar, hfirst, hmode]
  · rename_i hfirst
    cases hmode : mode.assumedProtected <;>
      simp [plan, destination?, isDirectFar, hnear, hfar, hfirst, hmode]
  · right
    refine ⟨rfl, ?_, ?_⟩
    · simp only [destination?, hnear]
      grind
    · grind [isDirectFar]

theorem trailing?_of_ne_int (h : instruction.operation.flow ≠ .int) :
    subject.trailing? instruction mode = none := by
  have hvector : instruction.vector? = none := by
    unfold vector?
    split
    · contradiction
    · rfl
  unfold trailing?
  split
  · simp [hvector]
  · rfl

theorem writesModeRegister_of_ne_mov (h : instruction.operation.flow ≠ .mov) :
    instruction.writesModeRegister = false := by
  simp [writesModeRegister, h]

/-- Only interrupts have data behind them, and only moves change the mode. -/
theorem behind_of_ne (hint : instruction.operation.flow ≠ .int)
    (hmov : instruction.operation.flow ≠ .mov) :
    subject.behind instruction mode = ⟨instruction.next, mode⟩ := by
  simp [behind, trailing?_of_ne_int hint, writesModeRegister_of_ne_mov hmov]

/-- What an instruction leads to is what its bytes plan, unless an obstacle comes first; an instruction
with an obstacle has no destination that is followed or put aside. -/
theorem course_eq (subject : Subject) (instruction : X86.Instruction) (mode : Mode) :
    subject.course instruction mode = .ok (subject.plan instruction mode) ∨
    (∃ obstacle, subject.course instruction mode = .error obstacle) ∧
      instruction.destination? mode = none ∧
      (instruction.isDirectFar && mode.assumedProtected) = false := by
  cases hflow : instruction.operation.flow with
  | mov =>
    left
    have htrailing : subject.trailing? instruction mode = none :=
      trailing?_of_ne_int (by simp [hflow])
    cases hmode : instruction.writesModeRegister <;>
      simp [course, hflow, hmode, plan, destination?, isDirectFar, isNear, isFar, goesOn, behind,
        htrailing]
  | int =>
    have hmov : instruction.writesModeRegister = false :=
      writesModeRegister_of_ne_mov (by simp [hflow])
    cases htrailing : subject.trailing? instruction mode with
    | none =>
      simp [course, hflow, htrailing, plan, destination?, isDirectFar, isNear, isFar, goesOn, behind,
        hmov]
    | some count =>
      cases hread : subject.image.read instruction.next.toNat count.toNat <;>
        simp [course, hflow, htrailing, hread, plan, destination?, isDirectFar, isNear, isFar, goesOn,
          behind, hmov]
  | jmp => simp [course, hflow, plan, destination?, isDirectFar, isNear, isFar, goesOn]
  | call =>
    have hbehind : subject.behind instruction mode = ⟨instruction.next, mode⟩ :=
      behind_of_ne (by simp [hflow]) (by simp [hflow])
    simp [course, hflow, plan, destination?, isDirectFar, isNear, isFar, goesOn, hbehind]
  | jcc | loop =>
    have hbehind : subject.behind instruction mode = ⟨instruction.next, mode⟩ :=
      behind_of_ne (by simp [hflow]) (by simp [hflow])
    cases htarget : instruction.target? <;>
      simp [course, hflow, htarget, plan, destination?, isDirectFar, isNear, isFar, goesOn, hbehind]
  | ret | retf | iret => simp [course, hflow, plan, destination?, isDirectFar, isNear, isFar, goesOn]
  | jmpFar =>
    have hfar : instruction.operation.flow.isFar := by simp [hflow, isFar]
    simp only [course, hflow]
    rcases farCourse_eq subject mode hfar with h | ⟨h, hnone⟩
    · simp [h, plan, hflow, goesOn]
    · exact .inr ⟨⟨_, h⟩, hnone⟩
  | callFar =>
    have hbehind : subject.behind instruction mode = ⟨instruction.next, mode⟩ :=
      behind_of_ne (by simp [hflow]) (by simp [hflow])
    have hfar : instruction.operation.flow.isFar := by simp [hflow, isFar]
    simp only [course, hflow]
    rcases farCourse_eq subject mode hfar with h | ⟨h, hnone⟩
    · simp [h, plan, hflow, hbehind, goesOn]
    · simp [h, hnone]
  | other =>
    have hbehind : subject.behind instruction mode = ⟨instruction.next, mode⟩ :=
      behind_of_ne (by simp [hflow]) (by simp [hflow])
    simp [course, hflow, plan, destination?, isDirectFar, isNear, isFar, goesOn, hbehind]

/-- No instruction leads anywhere but where it plans to. -/
theorem eq_plan_of_course {course : Course} (h : subject.course instruction mode = .ok course) :
    course = subject.plan instruction mode := by
  rcases subject.course_eq instruction mode with hplan | ⟨⟨obstacle, hobstacle⟩, -⟩
  · exact Except.ok.inj (h.symm.trans hplan)
  · cases h.symm.trans hobstacle

theorem destinationAt?_of_ok (h : subject.decodeAt place = .ok instruction) :
    subject.destinationAt? place = instruction.destination? place.mode := by
  simp [destinationAt?, h]

theorem putsAside_of_ok (h : subject.decodeAt place = .ok instruction) :
    subject.putsAside place = (instruction.isDirectFar && place.mode.assumedProtected) := by
  simp [putsAside, h]

theorem bounds_of_decodeAt (h : subject.decodeAt place = .ok instruction) :
    subject.image.base.toNat ≤ place.offset.toNat ∧ place.offset.toNat < subject.image.limit := by
  have hin : subject.image.contains place.offset.toNat = true := X86.decode_contains h
  simpa [Image.contains] using hin

end Subject

end FlowDisasm
