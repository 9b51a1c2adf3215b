/-!
# Processor models

Every instruction form was introduced by some generation of the processor. A model runs the forms of its
own generation and of all earlier ones, so a newer model never refuses what an older one accepts.
-/
namespace FlowDisasm.X86

/-- The generation that introduced an instruction form, oldest first. -/
inductive Era where
  | i8086
  | i80186
  | i80286
  | i80386
  | i80486
  | pentium
  | later
  deriving DecidableEq, Repr

def Era.rank : Era → Nat
  | .i8086 => 0
  | .i80186 => 1
  | .i80286 => 2
  | .i80386 => 3
  | .i80486 => 4
  | .pentium => 5
  | .later => 6

def Era.max (first second : Era) : Era :=
  if first.rank < second.rank then second else first

/-- What a processor has to have to run an instruction form. -/
inductive Feature where
  | intel8086
  | intel186
  | intel286
  | intel386
  | intel486
  | fpu
  | fpu287
  | fpu387
  | cpuid
  | tsc
  | msr
  | cx8
  | smm
  /-- A feature that no processor at hand has. -/
  | later
  deriving DecidableEq, Repr

@[simp]
def Feature.era : Feature → Era
  | .intel8086 | .fpu => .i8086
  | .intel186 => .i80186
  | .intel286 | .fpu287 => .i80286
  | .intel386 | .fpu387 => .i80386
  | .intel486 | .cpuid => .i80486
  | .tsc | .msr | .cx8 | .smm => .pentium
  | .later => .later

/-- The processors that code can be decoded for. -/
inductive Cpu where
  | i8088
  | i8086
  | i80186
  | i80286
  | i80386sx
  | i80386
  | i80486
  | i80586
  deriving DecidableEq, Repr

namespace Cpu

def all : List Cpu :=
  [i8088, i8086, i80186, i80286, i80386sx, i80386, i80486, i80586]

def era : Cpu → Era
  | i8088 | i8086 => .i8086
  | i80186 => .i80186
  | i80286 => .i80286
  | i80386sx | i80386 => .i80386
  | i80486 => .i80486
  | i80586 => .pentium

def runs (cpu : Cpu) (form : Era) : Bool :=
  form.rank ≤ cpu.era.rank

def name : Cpu → String
  | i8088 => "i8088"
  | i8086 => "i8086"
  | i80186 => "i80186"
  | i80286 => "i80286"
  | i80386sx => "i80386sx"
  | i80386 => "i80386"
  | i80486 => "i80486"
  | i80586 => "i80586"

/-- The model of a name, which has to be spelled exactly. -/
def ofName? (text : String) : Option Cpu :=
  all.find? fun cpu => cpu.name == text

/-- A model runs whatever a model of an earlier or the same era runs. -/
theorem runs_of_era_le {older newer : Cpu} {form : Era} (order : older.era.rank ≤ newer.era.rank)
    (runsForm : older.runs form = true) : newer.runs form = true := by
  simp only [runs, decide_eq_true_eq] at *
  omega

end Cpu

end FlowDisasm.X86
