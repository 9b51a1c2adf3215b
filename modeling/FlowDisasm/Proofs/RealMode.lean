import FlowDisasm.Proofs.Address

/-!
# Addresses in real mode

In 16-bit code an address has the segment of its 64K block. Below one megabyte, sixteen times the segment and the
offset in it make up the flat offset; from there on the same addresses come again. Going further stays in the block,
and it is the same whether it is done at once or in two parts.
-/
namespace FlowDisasm.SegmentedAddress

variable {starts : List UInt32} {offset other : UInt32}

/-! ## Parts of an address -/

theorem toNat_and_low (offset : UInt32) : (offset &&& 0xFFFF).toNat = offset.toNat % 0x10000 := by
  rw [UInt32.toNat_and]
  exact Nat.and_two_pow_sub_one_eq_mod offset.toNat 16

theorem toNat_offset (starts : List UInt32) (offset : UInt32) :
    (of starts offset .bits16).offset.toNat = offset.toNat % 0x10000 :=
  toNat_and_low offset

/-- The segment tells the block of an offset, but only by its lowest four bits. -/
theorem toNat_segment (starts : List UInt32) (offset : UInt32) :
    (of starts offset .bits16).segment.toNat = offset.toNat / 0x10000 % 0x10 * 0x1000 := by
  have hblock : (offset >>> 16).toNat = offset.toNat / 0x10000 := by
    rw [UInt32.toNat_shiftRight, Nat.shiftRight_eq_div_pow]
    rfl
  have hsegment : ((offset >>> 16) <<< 12).toUInt16.toNat =
      offset.toNat / 0x10000 * 0x1000 % 0x100000000 % 0x10000 := by
    rw [UInt32.toNat_toUInt16, UInt32.toNat_shiftLeft, hblock, Nat.shiftLeft_eq]
    rfl
  rw [of, hsegment]
  omega

/-- After one megabyte the same addresses come again. -/
theorem of_bits16_eq_iff : of starts offset .bits16 = of starts other .bits16 ↔
    offset.toNat % 0x100000 = other.toNat % 0x100000 := by
  have hwidth : (of starts offset .bits16).width = (of starts other .bits16).width := rfl
  rw [eq_iff_parts, toNat_segment, toNat_segment, toNat_offset, toNat_offset]
  simp only [hwidth, and_true]
  omega

theorem text_bits16_eq_iff : (of starts offset .bits16).text = (of starts other .bits16).text ↔
    offset.toNat % 0x100000 = other.toNat % 0x100000 := by
  have hroom (offset : UInt32) : (of starts offset .bits16).offset.toNat < room .bits16 := by
    rw [toNat_offset]
    exact Nat.mod_lt _ (by decide)
  have hwidth : (of starts offset .bits16).width = (of starts other .bits16).width := rfl
  rw [text_eq_iff hwidth (hroom offset) (hroom other), of_bits16_eq_iff]

/-! ## Going further -/

/-- Going further keeps the segment, and goes on with its first offset behind its last one. -/
theorem toNat_offset_advance (address : SegmentedAddress) (count : UInt32) :
    (address.advance count).offset.toNat = (address.offset.toNat + count.toNat) % room address.width := by
  obtain ⟨segment, offset, width⟩ := address
  have hsum : (offset + count).toNat = (offset.toNat + count.toNat) % 0x100000000 := UInt32.toNat_add offset count
  cases width with
  | bits16 =>
    have hlow : ((offset + count) &&& 0xFFFF).toNat = (offset + count).toNat % 0x10000 := toNat_and_low (offset + count)
    change ((offset + count) &&& 0xFFFF).toNat = (offset.toNat + count.toNat) % 0x10000
    omega
  | bits32 => exact hsum

/-- How far to go is told by its low 32 bits. -/
theorem toNat_offset_advance_ofNat (address : SegmentedAddress) (distance : Nat) :
    (address.advance (UInt32.ofNat distance)).offset.toNat =
      (address.offset.toNat + distance) % room address.width := by
  have hdistance : (UInt32.ofNat distance).toNat = distance % 0x100000000 := UInt32.toNat_ofNat'
  rw [toNat_offset_advance, hdistance]
  cases address.width with
  | bits16 =>
    dsimp only [room]
    omega
  | bits32 => exact Nat.add_mod_mod ..

theorem toNat_offset_advance_lt (address : SegmentedAddress) (count : UInt32) :
    (address.advance count).offset.toNat < room address.width := by
  have hroom (width : X86.Width) : 0 < room width := by cases width <;> decide
  rw [toNat_offset_advance]
  exact Nat.mod_lt _ (hroom address.width)

/-- The text of the address some bytes further, which stays in the segment. -/
theorem text_advance (address : SegmentedAddress) (distance : Nat) :
    (address.advance (UInt32.ofNat distance)).text =
      Text.hexPadded 4 address.segment.toNat ++ ":" ++
        Text.hexPadded (2 * address.width.bytes) ((address.offset.toNat + distance) % room address.width) := by
  rw [← toNat_offset_advance_ofNat]
  rfl

theorem advance_eq_iff {address further : SegmentedAddress} {count : UInt32} : address.advance count = further ↔
    address.segment.toNat = further.segment.toNat ∧
      (address.offset.toNat + count.toNat) % room address.width = further.offset.toNat ∧
        address.width = further.width := by
  rw [eq_iff_parts, toNat_offset_advance]
  exact Iff.rfl

/-- Going further in two parts goes as far as going at once. -/
theorem advance_advance (address : SegmentedAddress) (first second : UInt32) :
    (address.advance first).advance second = address.advance (first + second) := by
  have hsum : (first + second).toNat = (first.toNat + second.toNat) % 0x100000000 := UInt32.toNat_add first second
  have hwidth : (address.advance first).width = address.width := rfl
  rw [advance_eq_iff, toNat_offset_advance, toNat_offset_advance, hwidth, hsum]
  refine ⟨rfl, ?_, rfl⟩
  cases address.width with
  | bits16 =>
    dsimp only [room]
    omega
  | bits32 =>
    dsimp only [room]
    omega

/-- Going further is going to another offset of the same block. -/
theorem advance_bits16 (starts : List UInt32) (offset count : UInt32) {further : UInt32}
    (hblock : further.toNat / 0x10000 = offset.toNat / 0x10000)
    (hlow : further.toNat % 0x10000 = (offset.toNat + count.toNat) % 0x10000) :
    (of starts offset .bits16).advance count = of starts further .bits16 := by
  have hroom : room (of starts offset .bits16).width = 0x10000 := rfl
  rw [advance_eq_iff, toNat_segment, toNat_segment, toNat_offset, toNat_offset, hroom, hblock, hlow, Nat.mod_add_mod]
  exact ⟨rfl, rfl, rfl⟩

/-! ## Real mode -/

/-- What addresses of 16-bit code tell about flat offsets. -/
structure RealMode (starts : List UInt32) : Prop where
  flat (offset : UInt32) : offset.toNat < 0x100000 →
    (of starts offset .bits16).segment.toNat * 16 + (of starts offset .bits16).offset.toNat = offset.toNat
  injective (offset other : UInt32) : offset.toNat < 0x100000 → other.toNat < 0x100000 →
    (of starts offset .bits16).text = (of starts other .bits16).text → offset = other
  /-- Only offsets that are whole megabytes apart are shown alike. -/
  text_eq_iff (offset other : UInt32) : (of starts offset .bits16).text = (of starts other .bits16).text ↔
    offset.toNat % 0x100000 = other.toNat % 0x100000
  /-- Going further changes the low part of the flat offset alone. -/
  advance (offset count : UInt32) : (of starts offset .bits16).advance count =
    of starts (UInt32.ofNat (offset.toNat / 0x10000 * 0x10000 + (offset.toNat + count.toNat) % 0x10000)) .bits16
  /-- Within a block it is going to the flat offset that is so much further. -/
  advance_inside (offset count : UInt32) : (offset + count).toNat / 0x10000 = offset.toNat / 0x10000 →
    (of starts offset .bits16).advance count = of starts (offset + count) .bits16
  advance_advance (address : SegmentedAddress) (first second : UInt32) :
    (address.advance first).advance second = address.advance (first + second)

/-- Addresses in real mode are faithful to flat offsets below one megabyte and within a block. -/
theorem realMode_faithful (starts : List UInt32) : RealMode starts where
  flat offset h := by
    rw [toNat_segment, toNat_offset]
    omega
  injective offset other h hother htext := by
    rw [text_bits16_eq_iff, Nat.mod_eq_of_lt h, Nat.mod_eq_of_lt hother] at htext
    exact UInt32.toNat_inj.mp htext
  text_eq_iff _ _ := text_bits16_eq_iff
  advance offset count := by
    have hless := offset.toNat_lt
    have hfurther : (UInt32.ofNat (offset.toNat / 0x10000 * 0x10000 +
        (offset.toNat + count.toNat) % 0x10000)).toNat =
          offset.toNat / 0x10000 * 0x10000 + (offset.toNat + count.toNat) % 0x10000 :=
      UInt32.toNat_ofNat_of_lt' (by change _ < 0x100000000; omega)
    apply advance_bits16
    · rw [hfurther]
      omega
    · rw [hfurther]
      omega
  advance_inside offset count hblock := by
    have hsum : (offset + count).toNat = (offset.toNat + count.toNat) % 0x100000000 := UInt32.toNat_add offset count
    apply advance_bits16 starts offset count hblock
    omega
  advance_advance := SegmentedAddress.advance_advance

example : ((of [] 0x12345 .bits16).advance 0xDCBB).text = "1000:0000" := by decide

end FlowDisasm.SegmentedAddress
