import FlowDisasm.X86.Table.Marked

/-!
# Groups that control the machine

Behind the escape byte, some opcodes hold a group of operations on the state of the machine: selectors
and descriptor tables, virtual machines, saved state, caches and hints. The addressing byte chooses the
member of a group, together with the mark in front of the opcode.
-/
namespace FlowDisasm.X86.Machine

open Marked (later only choose)

/-- The selector group: the registers that hold selectors can be stored in full width, but what is
loaded or verified is a selector of 16 bits. -/
def selectorGroup : Entry :=
  .modRM fun modRM =>
    let form (name : String) (slot : Slot) : Option Form :=
      some { name, slots := [slot], feature := .intel286 }
    match modRM.reg with
    | 0 => form "SLDT" (.rm .operand)
    | 1 => form "STR" (.rm .operand)
    | 2 => form "LLDT" (.narrowed (.rm .operand))
    | 3 => form "LTR" (.narrowed (.rm .operand))
    | 4 => form "VERR" (.narrowed (.rm .operand))
    | 5 => form "VERW" (.narrowed (.rm .operand))
    | _ => none

/-- The operations without memory that the machine group has for an addressing byte. -/
def singleForm (mark : Mark) (selector : Nat) : Option Form :=
  let plain (name : String) : Option Form := only .none mark (later name [])
  let always (name : String) (slots : List Slot) : Option Form := some (later name slots)
  match selector with
  | 0xC0 => plain "ENCLV"
  | 0xC1 => plain "VMCALL"
  | 0xC2 => plain "VMLAUNCH"
  | 0xC3 => plain "VMRESUME"
  | 0xC4 => plain "VMXOFF"
  | 0xC5 => plain "PCONFIG"
  | 0xC6 => plain "WRMSRNS"
  | 0xC8 =>
    only .none mark { later "MONITOR" [] with traits := [.addressWord, .segmentWord] }
  | 0xC9 => plain "MWAIT"
  | 0xCA => plain "CLAC"
  | 0xCB => plain "STAC"
  | 0xCC => only .size mark (later "TDCALL" [])
  | 0xCF => plain "ENCLS"
  | 0xD0 => plain "XGETBV"
  | 0xD1 => plain "XSETBV"
  | 0xD4 => plain "VMFUNC"
  | 0xD5 => plain "XEND"
  | 0xD6 => plain "XTEST"
  | 0xD7 => plain "ENCLU"
  | 0xD8 => always "VMRUN" [.accumulator .address]
  | 0xD9 => always (mark.choose "VMMCALL" "VMMCALL" "VMGEXIT" "VMGEXIT") []
  | 0xDA => always "VMLOAD" [.accumulator .address]
  | 0xDB => always "VMSAVE" [.accumulator .address]
  | 0xDC => always "STGI" []
  | 0xDD => always "CLGI" []
  | 0xDE => always "SKINIT" [.accumulator .dword]
  | 0xDF => always "INVLPGA" [.accumulator .address, .fixed .ecx]
  | 0xE8 => (choose mark "SERIALIZE" "" "SETSSBSY" "XSUSLDTRK").map (later · [])
  | 0xE9 => only .notEqual mark (later "XRESLDTRK" [])
  | 0xEA => only .equal mark (later "SAVEPREVSSP" [])
  | 0xEE => plain "RDPKRU"
  | 0xEF => plain "WRPKRU"
  | 0xF9 => always "RDTSCP" []
  | 0xFA =>
    match mark with
    | .none => some { later "MONITORX" [] with traits := [.addressWord, .segmentWord] }
    | .equal => some (later "MCOMMIT" [])
    | _ => none
  | 0xFB => always "MWAITX" []
  | 0xFC => some { later "CLZERO" [.accumulator .address] with traits := [.segmentWord] }
  | 0xFD => always "RDPRU" []
  | 0xFE => only .none mark { later "INVLPGB" [] with traits := [.addressWord] }
  | 0xFF =>
    match mark with
    | .none => some (later "TLBSYNC" [])
    | .notEqual => some { later "PVALIDATE" [] with traits := [.addressWord] }
    | _ => none
  | _ => none

def statusGroup (setting : Setting) : Entry :=
  .modRM fun modRM =>
    let table (name : String) : Option Form :=
      some { name, slots := [.table], feature := .intel286 }
    match modRM.reg with
    | 4 => some { name := "SMSW", slots := [.rm .operand], feature := .intel286 }
    | 6 => some { name := "LMSW", slots := [.narrowed (.rm .operand)], feature := .intel286 }
    | reg =>
      if modRM.isMemory then
        match reg with
        | 0 => table "SGDT"
        | 1 => table "SIDT"
        | 2 => table "LGDT"
        | 3 => table "LIDT"
        | 5 => only .equal setting.mark (later "RSTORSSP" [.memory none])
        | 7 => some { name := "INVLPG", slots := [.memory none], feature := .intel486 }
        | _ => none
      else singleForm setting.mark (0xC0 + 8 * reg.val + modRM.rm.val)

/-- An operation that does nothing, though it names operands. -/
def hint : Form := later "NOP" [.rm .operand, .reg .operand]

def prefetchGroup : Entry :=
  .modRM fun modRM =>
    let name := match modRM.reg with
      | 0 => "PREFETCH_EXCLUSIVE"
      | 1 | 3 => "PREFETCHW"
      | 2 => "PREFETCHWT1"
      | _ => "PREFETCH_RESERVED"
    some (if modRM.isMemory then later name [.memory none] else hint)

def cacheHintGroup : Entry :=
  .modRM fun modRM =>
    let prefetch (name : String) : Form :=
      if modRM.isMemory then later name [.memory none] else hint
    some <| match modRM.reg with
      | 0 => prefetch "PREFETCHNTA"
      | 1 => prefetch "PREFETCHT0"
      | 2 => prefetch "PREFETCHT1"
      | 3 => prefetch "PREFETCHT2"
      | _ => hint

def demotionGroup (setting : Setting) : Entry :=
  .modRM fun modRM =>
    some <|
      if modRM.isMemory && modRM.reg = 0 && setting.mark = .none then
        later "CLDEMOTE" [.memory none]
      else hint

def trackingGroup (setting : Setting) : Entry :=
  .modRM fun modRM =>
    some <|
      if modRM.isMemory || setting.mark ≠ .equal then hint
      else
        match modRM.reg, modRM.rm with
        | 1, _ => later "RDSSPD" [.rm .dword]
        | 7, 2 => later "ENDBR64" []
        | 7, 3 => later "ENDBR32" []
        | _, _ => hint

def idleGroup : Entry :=
  .modRM fun modRM => some (if modRM.reg = 0 then later "NOP" [.rm .operand] else hint)

def stateGroup (setting : Setting) : Entry :=
  let mark := setting.mark
  .modRM fun modRM =>
    let inMemory (name : String) : Form := later name [.memory none]
    if modRM.isMemory then
      match modRM.reg with
      | 0 => only .none mark (inMemory "FXSAVE")
      | 1 => only .none mark (inMemory "FXRSTOR")
      | 2 => only .none mark (inMemory "LDMXCSR")
      | 3 => only .none mark (inMemory "STMXCSR")
      | 4 =>
        match mark with
        | .none => some (inMemory "XSAVE")
        | .equal => some (later "PTWRITE" [.sized .dword])
        | _ => none
      | 5 => only .none mark (inMemory "XRSTOR")
      | 6 => (choose mark "XSAVEOPT" "CLWB" "CLRSSBSY" "").map inMemory
      | 7 => (choose mark "CLFLUSH" "CLFLUSHOPT" "" "").map inMemory
    else
      match modRM.reg, mark with
      | 4, .equal => some (later "PTWRITE" [.sized .dword])
      | 5, .none => some (later "LFENCE" [])
      | 5, .equal => some (later "INCSSPD" [.rm .dword])
      | 6, .none => some (later "MFENCE" [])
      | 6, .size => some (later "TPAUSE" [.rm .dword])
      | 6, .equal => some { later "UMONITOR" [.rm .address] with traits := [.segmentWord] }
      | 6, .notEqual => some (later "UMWAIT" [.rm .dword])
      | 7, .none => some (later "SFENCE" [])
      | _, _ => none

def exchangeGroup (setting : Setting) : Entry :=
  let mark := setting.mark
  .modRM fun modRM =>
    let inMemory (name : String) : Form := later name [.memory none]
    if modRM.isMemory then
      match modRM.reg with
      | 1 =>
        some { name := "CMPXCHG8B", slots := [.memory none], feature := .cx8,
               traits := [.lockable] }
      | 3 => only .none mark (inMemory "XRSTORS")
      | 4 => only .none mark (inMemory "XSAVEC")
      | 5 => only .none mark (inMemory "XSAVES")
      | 6 => (choose mark "VMPTRLD" "VMCLEAR" "VMXON" "").map inMemory
      | 7 => only .none mark (inMemory "VMPTRST")
      | _ => none
    else
      match modRM.reg, mark with
      | 6, .none | 6, .size => some (later "RDRAND" [.rm .operand])
      | 7, .none | 7, .size => some (later "RDSEED" [.rm .operand])
      | 7, .equal => some (later "RDPID" [.rm .dword])
      | _, _ => none

/-- A form of the cipher unit, which goes over memory by itself. -/
def cipher (name : String) : Form :=
  { later name [] with traits := [.addressWord, .repeated] }

def digestGroup (setting : Setting) : Entry :=
  .modRM fun modRM =>
    let name := match modRM.reg with
      | 0 => "MONTMUL"
      | 1 => "XSHA1"
      | 2 => "XSHA256"
      | 3 | 4 => "XSHA512"
      | 5 => "CCS_HASH"
      | _ => "UNDOC"
    if modRM.isMemory then none else only .equal setting.mark (cipher name)

def cipherGroup (setting : Setting) : Entry :=
  .modRM fun modRM =>
    let marked (name : String) : Option Form := only .equal setting.mark (cipher name)
    if modRM.isMemory then none
    else
      match modRM.reg with
      | 0 => some (cipher "XSTORE")
      | 1 => marked "XCRYPTECB"
      | 2 => marked "XCRYPTCBC"
      | 3 => marked "XCRYPTCTR"
      | 4 => marked "XCRYPTCFB"
      | 5 => marked "XCRYPTOFB"
      | 6 => marked "CCS_ENCRYPT"
      | 7 => marked "XSTORE"

end FlowDisasm.X86.Machine
