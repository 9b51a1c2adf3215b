import FlowDisasm.Proofs.Command.Number
import FlowDisasm.Proofs.X86.Targets

/-!
# Targets in texts

The number behind the last tab of the text of a near branch is read back as the flat target of the branch, unless
the branch goes to one of the first ten bytes of its segment: there the text shows a single digit, which is all that
the number in the segment is. Texts of branches to different targets are different, up to these digits.
-/
namespace FlowDisasm

namespace Text

def lastField (text : String) : String :=
  String.ofList (text.toList.reverse.takeWhile (· ≠ '\t')).reverse

theorem lastField_append {field : String} (front : String) (h : '\t' ∉ field.toList) :
    lastField (front ++ "\t" ++ field) = field := by
  have hfield : ∀ c ∈ field.toList.reverse, (decide (c ≠ '\t')) = true := by
    intro c hc
    exact decide_eq_true fun htab => h (htab ▸ List.mem_reverse.mp hc)
  have hreversed : (front ++ "\t" ++ field).toList.reverse =
      field.toList.reverse ++ '\t' :: front.toList.reverse := by
    simp
  rw [lastField, hreversed, List.takeWhile_append_of_pos hfield]
  simp

end Text

namespace X86

variable {width : Width} {cpu : Cpu} {image : Image} {offset target : UInt32} {instruction : Instruction}

/-- Where the segment of code at an address starts: 16-bit code knows segments of 64K, and 32-bit code just one. -/
def Width.segmentStart (width : Width) (offset : UInt32) : Nat :=
  match width with
  | .bits16 => offset.toNat - offset.toNat % UInt16.size
  | .bits32 => 0

/-- Where a branch goes in its segment is the way from the start of the segment to its target. -/
theorem Instruction.segmentTarget_emod (instruction : Instruction) (displacement : Int32) :
    (instruction.segmentTarget displacement : Int) =
      ((instruction.next + displacement.toUInt32).toNat - instruction.width.segmentStart instruction.offset)
        % (1 <<< instruction.operation.targetWidth.bits : Nat) := by
  have htarget := instruction.toNat_target displacement
  unfold segmentTarget pointer Width.segmentStart
  cases instruction.width <;> cases instruction.operation.targetWidth
  all_goals
    simp only [Width.shift_bits16, Width.shift_bits32, UInt16.size, UInt32.size] at htarget ⊢
    omega

/-- A number as branches show it: a digit if it is one in its segment, else the flat address. -/
def targetNumber (near : Nat) (target : UInt32) : String :=
  if near < 10 then toString near else Text.hexLiteral target.toNat

theorem readNumber_targetNumber (near : Nat) (target : UInt32) :
    Command.readNumber (targetNumber near target) =
      .ok (if near < 10 then UInt32.ofNat near else target) := by
  unfold targetNumber
  split
  case isTrue h => exact Command.readNumber_digit h
  case isFalse => exact Command.readNumber_hexLiteral target

theorem tab_not_mem_targetNumber (near : Nat) (target : UInt32) : '\t' ∉ (targetNumber near target).toList := by
  intro htab
  unfold targetNumber at htab
  split at htab
  case isTrue h =>
    have hdigits : ∀ digit : Fin 10, Nat.digitChar digit ≠ '\t' := by decide
    rw [Command.toList_toString h, List.mem_singleton] at htab
    exact hdigits ⟨near, h⟩ htab.symm
  case isFalse => cases (Command.numeral_hexLiteral target.toNat).not_blank htab

/-- Two numbers are shown alike if they are the same digit or the same flat address. -/
theorem targetNumber_inj {near near' : Nat} {target target' : UInt32}
    (h : targetNumber near target = targetNumber near' target') :
    near < 10 ∧ near = near' ∨ 10 ≤ near ∧ 10 ≤ near' ∧ target = target' := by
  have hread := congrArg Command.readNumber h
  rw [readNumber_targetNumber, readNumber_targetNumber, Except.ok.injEq] at hread
  -- A digit is one character, and a literal has its mark in front of its digits.
  have hmark {digit : Nat} (hdigit : digit < 10) (address : UInt32) :
      toString digit ≠ Text.hexLiteral address.toNat := by
    intro heq
    have hlists := congrArg String.toList heq
    rw [Command.toList_toString hdigit, Text.toList_hexLiteral] at hlists
    cases (List.cons.inj hlists).2
  unfold targetNumber at h
  split at h <;> split at h
  case isTrue.isTrue hnear hnear' =>
    rw [if_pos hnear, if_pos hnear'] at hread
    have hnumbers := congrArg UInt32.toNat hread
    simp only [UInt32.toNat_ofNat'] at hnumbers
    omega
  case isTrue.isFalse hnear hfar => exact absurd h (hmark hnear target')
  case isFalse.isTrue hfar hnear => exact absurd h.symm (hmark hnear target)
  case isFalse.isFalse hfar hfar' =>
    rw [if_neg hfar, if_neg hfar'] at hread
    exact .inr ⟨by omega, by omega, hread⟩

/-- The text of an instruction with a target: the number of the target is its only operand. -/
theorem text_of_relative (h : decode cpu image offset width = .ok instruction)
    (htarget : instruction.target? = some target) :
    ∃ near : Nat, instruction.nearTarget? = some near ∧
      (near : Int) = (target.toNat - width.segmentStart offset)
        % (1 <<< instruction.operation.targetWidth.bits : Nat) ∧
      near % UInt16.size = target.toNat % UInt16.size ∧
      instruction.text none = instruction.operation.heading ++ "\t" ++ targetNumber near target := by
  obtain ⟨hreads, hruns⟩ := decode_reads h
  obtain ⟨displacement, size, hfirst, rfl⟩ := Instruction.relative_of_target htarget
  obtain ⟨front, code, tail, -, hjumps⟩ := nearBranch_of_reads hreads hruns (List.mem_of_mem_head? hfirst)
  have hnear := nearTarget?_of_first? h hfirst
  refine ⟨instruction.segmentTarget displacement, hnear, ?_, instruction.segmentTarget_mod displacement, ?_⟩
  · rw [instruction.segmentTarget_emod, decode_width h, decode_offset h]
  · have hnumber : instruction.destinationText none = targetNumber (instruction.segmentTarget displacement)
        (instruction.next + displacement.toUInt32) := by
      simp only [Instruction.destinationText, hfirst, hnear]
      rfl
    rw [Instruction.text, Operation.text, hjumps.shown, hnumber]
    simp [Operation.heading, Operand.text, String.append_assoc]

/-- The number that the text of a branch ends with, read as hexadecimal behind its mark and as decimal else, is the
flat target of the branch unless the branch goes to one of the first ten bytes of its segment, and then it is just
the place in the segment. So the number is the target if and only if such a branch has its target in the first ten
bytes of all memory. Whenever two branches have the same text, they show the same digit or have the same target. -/
theorem decode_targetText (h : decode cpu image offset width = .ok instruction)
    (htarget : instruction.target? = some target) :
    ∃ near : Nat, instruction.nearTarget? = some near ∧
      (near : Int) = (target.toNat - width.segmentStart offset)
        % (1 <<< instruction.operation.targetWidth.bits : Nat) ∧
      Command.readNumber (Text.lastField (instruction.text none)) =
        .ok (if near < 10 then UInt32.ofNat near else target) ∧
      (Command.readNumber (Text.lastField (instruction.text none)) = .ok target ↔
        (near < 10 → target.toNat < 10)) ∧
      ∀ cpu' image' offset' width' other target', decode cpu' image' offset' width' = .ok other →
        other.target? = some target' → instruction.text none = other.text none →
          near < 10 ∧ other.nearTarget? = some near ∨ 10 ≤ near ∧ target = target' := by
  obtain ⟨near, hnear, hplace, hlow, htext⟩ := text_of_relative h htarget
  have hread : Command.readNumber (Text.lastField (instruction.text none)) =
      .ok (if near < 10 then UInt32.ofNat near else target) := by
    rw [htext, Text.lastField_append _ (tab_not_mem_targetNumber near target), readNumber_targetNumber]
  refine ⟨near, hnear, hplace, hread, ?_, ?_⟩
  · rw [hread, Except.ok.injEq]
    split
    case isTrue hdigit =>
      unfold UInt16.size at hlow
      simp only [hdigit, forall_const, ← UInt32.toNat_inj, UInt32.toNat_ofNat']
      omega
    case isFalse hfar => simp [hfar]
  · intro cpu' image' offset' width' other target' hother htarget' hsame
    obtain ⟨near', hnear', -, -, htext'⟩ := text_of_relative hother htarget'
    have hfields := congrArg Text.lastField hsame
    rw [htext, htext', Text.lastField_append _ (tab_not_mem_targetNumber near target),
      Text.lastField_append _ (tab_not_mem_targetNumber near' target')] at hfields
    rcases targetNumber_inj hfields with ⟨hdigit, rfl⟩ | ⟨hfar, -, htargets⟩
    · exact .inl ⟨hdigit, hnear'⟩
    · exact .inr ⟨hfar, htargets⟩

def leavingJump : Image := ⟨0xFFFE, ⟨#[0xEB, 0x05]⟩⟩

def startingJump : Image := ⟨0, ⟨#[0xEB, 0x03]⟩⟩

def Instruction.jumpFacts (instruction : Instruction) : Option UInt32 × Option Nat × String × String :=
  (instruction.target?, instruction.nearTarget?, instruction.operation.mnemonic, instruction.text none)

theorem decode_leavingJump : ∃ instruction, decode .i80386 leavingJump 0xFFFE .bits16 = .ok instruction ∧
    instruction.jumpFacts = (some 0x10005, some 5, "JMP", "JMP\t5") :=
  exists_of_facts (by decide +kernel)

theorem decode_startingJump : ∃ instruction, decode .i80386 startingJump 0 .bits16 = .ok instruction ∧
    instruction.jumpFacts = (some 5, some 5, "JMP", "JMP\t5") :=
  exists_of_facts (by decide +kernel)

/-- The number behind the tab is five, but the jump goes five bytes into the second segment. -/
theorem decode_targetText_leavingJump : ∃ instruction,
    decode .i80386 leavingJump 0xFFFE .bits16 = .ok instruction ∧
    instruction.target? = some 0x10005 ∧ instruction.nearTarget? = some 5 ∧
    Command.readNumber (Text.lastField (instruction.text none)) = .ok 5 := by
  obtain ⟨instruction, hread, hfacts⟩ := decode_leavingJump
  simp only [Instruction.jumpFacts, Prod.mk.injEq] at hfacts
  obtain ⟨htarget, hfive, -, -⟩ := hfacts
  obtain ⟨near, hnear, -, hnumber, -⟩ := decode_targetText hread htarget
  obtain rfl : near = 5 := Option.some.inj (hnear.symm.trans hfive)
  exact ⟨instruction, hread, htarget, hnear, hnumber⟩

/-- The number of a branch in its text is not always its target, and branches with the same mnemonic and different
targets can have the same text. -/
theorem targetText_not_flat :
    (¬ ∀ cpu image offset width instruction target, decode cpu image offset width = .ok instruction →
      instruction.target? = some target →
        Command.readNumber (Text.lastField (instruction.text none)) = .ok target) ∧
    ¬ ∀ cpu image offset width instruction target cpu' image' offset' width' other target',
      decode cpu image offset width = .ok instruction → instruction.target? = some target →
      decode cpu' image' offset' width' = .ok other → other.target? = some target' →
      instruction.operation.mnemonic = other.operation.mnemonic → target ≠ target' →
        instruction.text none ≠ other.text none := by
  obtain ⟨leaving, hleaving, hfacts⟩ := decode_leavingJump
  obtain ⟨starting, hstarting, hfacts'⟩ := decode_startingJump
  simp only [Instruction.jumpFacts, Prod.mk.injEq] at hfacts hfacts'
  obtain ⟨hfar, -, hname, htext⟩ := hfacts
  obtain ⟨hnear, -, hname', htext'⟩ := hfacts'
  refine ⟨fun halways => ?_, fun halways => ?_⟩
  · have hnumber := halways _ _ _ _ leaving _ hleaving hfar
    rw [htext, show Text.lastField "JMP\t5" = toString 5 by decide +kernel,
      Command.readNumber_digit (by decide)] at hnumber
    exact absurd (Except.ok.inj hnumber) (by decide)
  · exact halways _ _ _ _ leaving _ _ _ _ _ starting _ hleaving hfar hstarting hnear (hname.trans hname'.symm)
      (by decide) (htext.trans htext'.symm)

end X86

end FlowDisasm
