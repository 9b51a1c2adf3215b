import FlowDisasm.Proofs.Image
import FlowDisasm.X86.Instruction

/-!
# What a decoded instruction says about the image

A decoded instruction keeps the address it was asked for, and at least the byte at that address is
in the image: the decoding of any width asks for a byte before it can finish. The bytes that it took are
those of the image there.
-/
namespace FlowDisasm

/-- Where facts of a result can be computed, there is a result with these facts. -/
theorem exists_of_facts {ε α β : Type} {result : Except ε α} {facts : α → β} {found : β}
    (h : result.toOption.map facts = some found) : ∃ value, result = .ok value ∧ facts value = found := by
  cases result with
  | error error => cases h
  | ok value => exact ⟨value, rfl, Option.some.inj h⟩

end FlowDisasm

namespace FlowDisasm.X86

namespace Decoding

variable {α : Type} {decoding : Decoding α} {value : α} {start taken : Nat} {bytes : List UInt8}

/-- A decoding finds what it finds in the bytes that it takes. -/
theorem runFrom_take (h : decoding.runFrom start bytes = .found value taken) :
    start ≤ taken ∧ taken ≤ start + bytes.length ∧
      decoding.runFrom start (bytes.take (taken - start)) = .found value taken := by
  induction decoding generalizing start bytes with
  | done found =>
    obtain ⟨rfl, rfl⟩ := Outcome.found.inj h
    exact ⟨Nat.le_refl _, Nat.le_add_right _ _, rfl⟩
  | undefined => cases h
  | next read ih =>
    cases bytes with
    | nil => cases h
    | cons first rest =>
      obtain ⟨hstart, hlength, hrun⟩ := ih first h
      have hless : taken - start = taken - (start + 1) + 1 := by omega
      refine ⟨by omega, by rw [List.length_cons]; omega, ?_⟩
      rw [hless, List.take_succ_cons]
      exact hrun

end Decoding

variable {cpu : Cpu} {image : Image} {offset : UInt32} {width : Width} {instruction : Instruction}

/-- Success has one cause: the bytes at the address hold an operation that the processor runs. -/
theorem decode_eq_ok (h : decode cpu image offset width = .ok instruction) :
    ∃ found taken bytes, (operation width).run (image.window offset.toNat maxLength) = .found found taken ∧
      cpu.runs found.era = true ∧ bytes = (image.window offset.toNat maxLength).take taken ∧
      instruction = ⟨offset, width, bytes, found.recovered bytes⟩ := by
  unfold decode at h
  cases hrun : (operation width).run (image.window offset.toNat maxLength) with
  | found found taken =>
    simp only [hrun] at h
    split at h
    · rename_i hruns
      exact ⟨found, taken, _, rfl, hruns, rfl, (Except.ok.inj h).symm⟩
    · cases h
  | undefined => simp [hrun] at h
  | truncated => simp only [hrun] at h; split at h <;> cases h

theorem decode_offset (h : decode cpu image offset width = .ok instruction) :
    instruction.offset = offset := by
  obtain ⟨found, taken, bytes, -, -, -, rfl⟩ := decode_eq_ok h
  rfl

theorem decode_width (h : decode cpu image offset width = .ok instruction) :
    instruction.width = width := by
  obtain ⟨found, taken, bytes, -, -, -, rfl⟩ := decode_eq_ok h
  rfl

theorem run_operation_nil (width : Width) : (operation width).run [] = .truncated := rfl

theorem decode_contains (h : decode cpu image offset width = .ok instruction) :
    image.contains offset.toNat = true := by
  obtain ⟨found, taken, -, hrun, -⟩ := decode_eq_ok h
  by_cases hin : image.contains offset.toNat = true
  · exact hin
  · rw [Image.window, if_neg hin, run_operation_nil] at hrun
    cases hrun

/-- The operation of a decoded instruction is found in its bytes, with nothing left, and these are the bytes of
the image from the address on. -/
theorem decode_found (h : decode cpu image offset width = .ok instruction) :
    (∃ found, (operation width).run instruction.bytes = .found found instruction.bytes.length ∧
      cpu.runs found.era = true ∧ instruction.operation = found.recovered instruction.bytes) ∧
      instruction.bytes = image.window offset.toNat instruction.bytes.length ∧
      instruction.bytes.length ≤ maxLength := by
  obtain ⟨found, taken, bytes, hrun, hruns, hbytes, rfl⟩ := decode_eq_ok h
  obtain ⟨-, htaken, htake⟩ := Decoding.runFrom_take hrun
  rw [Nat.zero_add] at htaken
  rw [Nat.sub_zero, ← hbytes] at htake
  have hfits : taken ≤ maxLength := Nat.le_trans htaken (image.length_window_le _ _)
  have hlength : bytes.length = taken := by
    rw [hbytes]
    exact List.length_take_of_le htaken
  refine ⟨⟨found, ?_, hruns, rfl⟩, ?_, hlength ▸ hfits⟩
  · rw [hlength]
    exact htake
  · rw [hlength, hbytes]
    exact Image.take_window image offset.toNat hfits

/-- The bytes of a decoded instruction: some bytes of the image, from the address on. -/
theorem decode_bytes (h : decode cpu image offset width = .ok instruction) :
    0 < instruction.bytes.length ∧
      offset.toNat + instruction.bytes.length ≤ image.limit ∧
      instruction.bytes = image.window offset.toNat instruction.bytes.length := by
  obtain ⟨⟨found, hrun, -⟩, hwindow, -⟩ := decode_found h
  have hlimit := Image.add_length_window_le (decode_contains h) instruction.bytes.length
  rw [← hwindow] at hlimit
  refine ⟨List.length_pos_iff.mpr fun hnil => ?_, hlimit, hwindow⟩
  -- Without a byte the decoding would wait for one.
  rw [hnil] at hrun
  cases (run_operation_nil width).symm.trans hrun

/-- Decoding depends on the bytes that it takes alone: where they stand in another image, or at another
address, the same instruction is found, whatever is behind them. -/
theorem decode_of_window {other : Image} {moved : UInt32}
    (h : decode cpu image offset width = .ok instruction)
    (hwindow : other.window moved.toNat instruction.bytes.length = instruction.bytes) :
    decode cpu other moved width = .ok { instruction with offset := moved } := by
  obtain ⟨⟨found, hrun, hruns, hoperation⟩, -, hfits⟩ := decode_found h
  have hfront : (other.window moved.toNat maxLength).take instruction.bytes.length =
      instruction.bytes := by
    rw [Image.take_window other moved.toNat hfits, hwindow]
  have hsame : (operation width).run (other.window moved.toNat maxLength) =
      .found found instruction.bytes.length := by
    rw [← List.take_append_drop instruction.bytes.length (other.window moved.toNat maxLength), hfront]
    exact Decoding.runFrom_append _ hrun
  rw [decode, hsame]
  simp only [if_pos hruns, hfront, ← hoperation, decode_width h]

/-! ## Processors -/

/-- What a processor decodes is decoded by every processor of its own era or a later one. -/
theorem decode_of_era_le {newer : Cpu} (order : cpu.era.rank ≤ newer.era.rank)
    (h : decode cpu image offset width = .ok instruction) :
    decode newer image offset width = .ok instruction := by
  obtain ⟨found, taken, bytes, hrun, hruns, rfl, rfl⟩ := decode_eq_ok h
  simp only [decode, hrun, if_pos (Cpu.runs_of_era_le order hruns)]

/-- Bytes that hold no operation, or are not there, fail on every processor alike: what depends on it is only
whether a found operation is refused. -/
theorem decode_eq_error_of_not_refused {error : Error}
    (hrefused : ∀ address refusing text, error ≠ .unsupportedInstruction address refusing text)
    (h : decode cpu image offset width = .error error) (other : Cpu) :
    decode other image offset width = .error error := by
  cases hrun : (operation width).run (image.window offset.toNat maxLength) with
  | found found taken =>
    simp only [decode, hrun] at h
    split at h
    · cases h
    · exact absurd (Except.error.inj h).symm (hrefused _ _ _)
  | undefined => simpa only [decode, hrun] using h
  | truncated => simpa only [decode, hrun] using h

theorem decode_eq_invalidInstruction_iff (cpu other : Cpu) (address : UInt32) (bytes : List UInt8) :
    decode cpu image offset width = .error (.invalidInstruction address bytes) ↔
      decode other image offset width = .error (.invalidInstruction address bytes) :=
  ⟨fun h => decode_eq_error_of_not_refused (by simp) h other,
    fun h => decode_eq_error_of_not_refused (by simp) h cpu⟩

theorem decode_eq_addressOutOfRange_iff (cpu other : Cpu) (address : Nat) :
    decode cpu image offset width = .error (.addressOutOfRange address) ↔
      decode other image offset width = .error (.addressOutOfRange address) :=
  ⟨fun h => decode_eq_error_of_not_refused (by simp) h other,
    fun h => decode_eq_error_of_not_refused (by simp) h cpu⟩

end FlowDisasm.X86
