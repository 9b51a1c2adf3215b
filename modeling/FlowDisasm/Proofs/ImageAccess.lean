import FlowDisasm.Proofs.Image

/-!
# Access to an image

A read of bytes gives just the bytes at the requested addresses if the image has all of them, and else names the
first requested address that it does not have. The exception is a request from inside the image whose end is no
64-bit number behind the base: it has no answer. Requests of 32-bit numbers always have one. Words are what their
bytes spell, and fail as a read of the bytes does.
-/
namespace FlowDisasm.Image

variable {image : Image} {address count : Nat}

/-- Whether a request starts in the image and its end, counted from the base, is no 64-bit number. -/
def Oversteps (image : Image) (address count : Nat) : Prop :=
  image.contains address = true ∧ UInt64.size ≤ address - image.base.toNat + count

/-- The first of some requested addresses that the image does not have. -/
structure FirstOutside (image : Image) (address count missing : Nat) : Prop where
  requested : address ≤ missing ∧ missing < address + count
  outside : image.contains missing = false
  inside : ∀ between, address ≤ between → between < missing → image.contains between = true

theorem contains_eq_false_iff : image.contains address = false ↔
    address < image.base.toNat ∨ image.limit ≤ address := by
  rw [← Bool.not_eq_true, contains_iff]
  omega

theorem contains_limit (image : Image) : image.contains image.limit = false :=
  contains_eq_false_iff.mpr (.inr (Nat.le_refl _))

/-- A request that starts outside has its first address outside, and any other the end of the image. -/
theorem firstOutside_of_not_fits (hcount : 1 ≤ count)
    (h : ¬(image.base.toNat ≤ address ∧ address + count ≤ image.limit)) :
    image.FirstOutside address count (if image.contains address then image.limit else address) := by
  cases hin : image.contains address with
  | true =>
    obtain ⟨hbase, hlimit⟩ := contains_iff.mp hin
    refine ⟨⟨Nat.le_of_lt hlimit, by simp only [if_true]; omega⟩, image.contains_limit, ?_⟩
    intro between hbehind hbefore
    exact contains_iff.mpr ⟨Nat.le_trans hbase hbehind, hbefore⟩
  | false =>
    refine ⟨⟨Nat.le_refl _, Nat.lt_add_of_pos_right hcount⟩, hin, ?_⟩
    intro between hbehind hbefore
    exact absurd hbefore (Nat.not_lt.mpr hbehind)

theorem fetch?_of_oversteps (h : image.Oversteps address count) : image.fetch? address count = none := by
  rw [fetch?, h.1, decide_eq_true h.2]
  rfl

/-- A request that does not overstep is a read. -/
theorem fetch?_eq_some (h : ¬image.Oversteps address count) :
    image.fetch? address count = some (image.read address count) := by
  refine if_neg fun hover => h ?_
  rwa [Bool.and_eq_true, decide_eq_true_iff] at hover

/-- Only requests that overstep have no answer. -/
theorem fetch?_eq_none_iff : image.fetch? address count = none ↔ image.Oversteps address count := by
  refine ⟨fun h => ?_, fetch?_of_oversteps⟩
  refine Classical.byContradiction fun hstep => ?_
  rw [fetch?_eq_some hstep] at h
  cases h

/-- A request that does not fit names the first address outside. -/
theorem read_of_not_fits (h : ¬(image.base.toNat ≤ address ∧ address + count ≤ image.limit)) :
    image.read address count =
      .error (.addressOutOfRange (if image.contains address then image.limit else address)) := by
  cases hread : image.read address count with
  | error error => rw [read_eq_error hread]
  | ok bytes =>
    obtain ⟨hbase, -, hlimit, -⟩ := read_eq_ok hread
    exact absurd ⟨hbase, hlimit⟩ h

theorem read_of_fits (hcount : 1 ≤ count) (hbase : image.base.toNat ≤ address)
    (hlimit : address + count ≤ image.limit) :
    image.read address count = .ok (image.window address count) :=
  read_window hbase (by omega) hlimit

/-- A few bytes are never too many for an image that leaves room for them. -/
theorem not_oversteps (hsize : image.bytes.size + count ≤ UInt64.size) : ¬image.Oversteps address count := by
  rintro ⟨hin, hover⟩
  rw [contains_iff, limit] at hin
  omega

/-- A request of 32-bit numbers is always a read. -/
theorem fetch?_of_words (image : Image) (start count : UInt32) :
    image.fetch? start.toNat count.toNat = some (image.read start.toNat count.toNat) := by
  have hstart := start.toNat_lt
  have hcount := count.toNat_lt
  refine fetch?_eq_some ?_
  rintro ⟨-, hover⟩
  unfold UInt64.size at hover
  omega

/-! ## Words -/

/-- The number that a word reads as is the one that its bytes spell, and it fails as they do. -/
theorem map_fetchWord? {α : Type} [Bytes.Word α] (image : Image) (address : Nat) :
    (image.fetchWord? address : Option (Except Error α)).map (Except.map Bytes.Word.toBits) =
      (image.fetch? address (Bytes.Word.width α)).map (Except.map Bytes.value) := by
  rw [fetchWord?]
  by_cases hstep : image.Oversteps address (Bytes.Word.width α)
  · rw [fetch?_of_oversteps hstep]
    rfl
  · rw [fetch?_eq_some hstep]
    cases hread : image.read address (Bytes.Word.width α) with
    | error error => rfl
    | ok bytes =>
      obtain ⟨hbase, -, hlimit, hwindow⟩ := read_eq_ok hread
      have hlength : bytes.length = Bytes.Word.width α := by rw [hwindow, length_window hbase hlimit]
      have hbits := Bytes.Word.toBits_ofBits (α := α) _ (hlength ▸ Bytes.value_lt bytes)
      exact congrArg (fun bits => some (Except.ok bits)) hbits

theorem contains_of_byte? {byte : UInt8} (h : image.byte? address = some byte) :
    image.contains address = true := by
  by_cases hin : image.contains address = true
  · exact hin
  · rw [byte?_eq_none_iff.mpr hin] at h
    cases h

theorem fetchByte_of_byte? {byte : UInt8} (hsize : image.bytes.size + 1 ≤ UInt64.size)
    (h : image.byte? address = some byte) : image.fetchWord? address = some (.ok byte) := by
  have hin : image.contains address = true := contains_of_byte? h
  obtain ⟨hbase, hlimit⟩ := contains_iff.mp hin
  have hbytes : image.window address 1 = [byte] := by
    apply window_of_byte? (Nat.le_refl 1)
    · rintro (_ | index) hindex
      · exact h
      · exact absurd hindex (by simp)
    · exact fun hshort => absurd hshort (Nat.lt_irrefl 1)
  have hfetch : image.fetch? address (Bytes.Word.width UInt8) = some (.ok [byte]) := by
    rw [← hbytes, ← read_of_fits (Nat.le_refl 1) hbase hlimit]
    exact fetch?_eq_some (not_oversteps hsize)
  have hspelled : Bytes.encode byte = [byte] := congrArg (fun first => [first]) UInt8.ofNat_toNat
  rw [fetchWord?, hfetch, ← hspelled]
  exact congrArg (fun word => some (Except.ok word)) (Bytes.decode_encode byte)

/-- In an image of a size that is a 64-bit number, the bytes that can be read are those of the image. -/
theorem fetchByte_eq_some_iff {byte : UInt8} (hsize : image.bytes.size + 1 ≤ UInt64.size) :
    image.fetchWord? address = some (.ok byte) ↔ image.byte? address = some byte := by
  refine ⟨fun h => ?_, fetchByte_of_byte? hsize⟩
  cases hbyte : image.byte? address with
  | some other =>
    exact congrArg some (Except.ok.inj (Option.some.inj ((fetchByte_of_byte? hsize hbyte).symm.trans h)))
  | none =>
    have hstep : ¬image.Oversteps address (Bytes.Word.width UInt8) := not_oversteps hsize
    rw [fetchWord?, fetch?_eq_some hstep, read_of_not_contains (byte?_eq_none_iff.mp hbyte)] at h
    cases h

theorem contains_iff_fetchByte (hsize : image.bytes.size + 1 ≤ UInt64.size) :
    image.contains address = true ↔ ∃ byte : UInt8, image.fetchWord? address = some (.ok byte) := by
  simp only [fetchByte_eq_some_iff hsize]
  constructor
  · intro hin
    cases hbyte : image.byte? address with
    | some byte => exact ⟨byte, rfl⟩
    | none => exact absurd hin (byte?_eq_none_iff.mp hbyte)
  · rintro ⟨byte, hbyte⟩
    exact contains_of_byte? hbyte

/-! ## All access -/

/-- Access to an image is exact. A request of at least one byte that does not overstep gives the bytes at the
requested addresses if the image has them all, and else names the first of these addresses that it does not have:
the end of the image if the request starts in it, and the start of the request if not. A request that oversteps has
no answer; one of 32-bit numbers has the answer of a read. Words of one, two and four bytes are what the bytes
spell, the least significant first, and fail as these do. An image that leaves room for a word at its end never
sees such a request overstep, and contains just the addresses of bytes that can be read. -/
theorem access_exact (image : Image) (address : Nat) :
    (∀ count, 1 ≤ count → ¬image.Oversteps address count →
      (image.base.toNat ≤ address ∧ address + count ≤ image.limit ∧
        ∃ bytes, image.fetch? address count = some (.ok bytes) ∧ bytes.length = count ∧
          ∀ index < count, bytes[index]? = image.byte? (address + index)) ∨
      ¬(image.base.toNat ≤ address ∧ address + count ≤ image.limit) ∧
        ∃ missing, image.FirstOutside address count missing ∧
          missing = (if image.contains address then image.limit else address) ∧
          image.fetch? address count = some (.error (.addressOutOfRange missing))) ∧
    (∀ count, image.fetch? address count = none ↔ image.Oversteps address count) ∧
    (∀ start count : UInt32,
      image.fetch? start.toNat count.toNat = some (image.read start.toNat count.toNat)) ∧
    (image.fetchWord? address).map (Except.map UInt8.toNat) =
      (image.fetch? address 1).map (Except.map Bytes.value) ∧
    (image.fetchWord? address).map (Except.map UInt16.toNat) =
      (image.fetch? address 2).map (Except.map Bytes.value) ∧
    (image.fetchWord? address).map (Except.map UInt32.toNat) =
      (image.fetch? address 4).map (Except.map Bytes.value) ∧
    (image.bytes.size + 4 ≤ UInt64.size →
      (∀ count ≤ 4, ¬image.Oversteps address count) ∧
      (∀ byte : UInt8, image.fetchWord? address = some (.ok byte) ↔ image.byte? address = some byte) ∧
      (image.contains address = true ↔ ∃ byte : UInt8, image.fetchWord? address = some (.ok byte))) := by
  refine ⟨fun count hcount hstep => ?_, fun count => fetch?_eq_none_iff, image.fetch?_of_words,
    image.map_fetchWord? address, image.map_fetchWord? address, image.map_fetchWord? address,
    fun hsize => ⟨fun count hcount => not_oversteps (by omega), fun byte => fetchByte_eq_some_iff (by omega),
      contains_iff_fetchByte (by omega)⟩⟩
  rw [fetch?_eq_some hstep]
  by_cases hfits : image.base.toNat ≤ address ∧ address + count ≤ image.limit
  · obtain ⟨hbase, hlimit⟩ := hfits
    exact .inl ⟨hbase, hlimit, image.window address count, congrArg some (read_of_fits hcount hbase hlimit),
      length_window hbase hlimit, fun index => getElem?_window hbase⟩
  · exact .inr ⟨hfits, _, firstOutside_of_not_fits hcount hfits, rfl, congrArg some (read_of_not_fits hfits)⟩

def shortImage : Image := ⟨0, ⟨#[0x90, 0x90]⟩⟩

/-- From the second byte on, all the bytes that a 64-bit number can count are more than the image has, and the first
that is missing is the one behind its end. The request has no answer that would say so. -/
theorem not_access_exact : ¬ ∀ (image : Image) (address count : Nat), address < UInt64.size → 1 ≤ count →
    count < UInt64.size → ¬(image.base.toNat ≤ address ∧ address + count ≤ image.limit) →
      ∃ missing, image.FirstOutside address count missing ∧
        image.fetch? address count = some (.error (.addressOutOfRange missing)) := by
  intro halways
  obtain ⟨missing, -, hfetch⟩ := halways shortImage 1 0xFFFFFFFFFFFFFFFF (by decide) (by decide) (by decide)
    (by decide)
  have hover : shortImage.fetch? 1 0xFFFFFFFFFFFFFFFF = none :=
    fetch?_of_oversteps ⟨by decide, by decide⟩
  rw [hfetch] at hover
  cases hover

end FlowDisasm.Image
