import FlowDisasm.Image

/-!
# Windows of an image

The bytes of an image between two addresses are a window of it. Windows that lie one behind the other make
up one window, and a read that succeeds gives the window that was asked for in full.
-/
namespace FlowDisasm.Image

variable {image : Image} {address count : Nat} {bytes : List UInt8}

theorem contains_iff : image.contains address = true ↔
    image.base.toNat ≤ address ∧ address < image.limit := by
  simp [contains]

def toList (image : Image) : List UInt8 := image.bytes.data.toList

theorem length_toList (image : Image) : image.toList.length = image.bytes.size := by
  rw [toList, Array.length_toList, ByteArray.size_data]

/-- From its base on, the windows of an image are parts of the list of its bytes. -/
theorem window_eq (h : image.base.toNat ≤ address) (count : Nat) :
    image.window address count = (image.toList.drop (address - image.base.toNat)).take count := by
  by_cases hin : image.contains address = true
  · rw [window, if_pos hin]
    simp only [toList, ByteArray.data_extract, Array.toList_extract, List.extract_eq_take_drop,
      Nat.add_sub_cancel_left]
  · have hbehind : image.toList.length ≤ address - image.base.toNat := by
      rw [contains_iff, limit] at hin
      rw [length_toList]
      omega
    rw [window, if_neg hin, List.drop_eq_nil_of_le hbehind, List.take_nil]

theorem length_window (h : image.base.toNat ≤ address) (hlimit : address + count ≤ image.limit) :
    (image.window address count).length = count := by
  rw [window_eq h, List.length_take, List.length_drop, length_toList]
  unfold limit at hlimit
  omega

/-- No window goes over the end of its image. -/
theorem add_length_window_le (h : image.contains address = true) (count : Nat) :
    address + (image.window address count).length ≤ image.limit := by
  obtain ⟨hbase, hin⟩ := contains_iff.mp h
  rw [window_eq hbase, List.length_take, List.length_drop, length_toList]
  unfold limit at hin ⊢
  omega

theorem window_zero (image : Image) (address : Nat) : image.window address 0 = [] :=
  List.eq_nil_of_length_eq_zero (Nat.le_zero.mp (image.length_window_le address 0))

/-- A window and the window behind it are one window. -/
theorem window_append (h : image.base.toNat ≤ address) (count more : Nat) :
    image.window address count ++ image.window (address + count) more =
      image.window address (count + more) := by
  have hbehind : address + count - image.base.toNat = address - image.base.toNat + count := by omega
  rw [window_eq h, window_eq (Nat.le_add_right_of_le h), window_eq h, List.take_add,
    List.drop_drop, hbehind]

/-- The front of a window is a window. -/
theorem take_window (image : Image) (address : Nat) {count less : Nat} (h : less ≤ count) :
    (image.window address count).take less = image.window address less := by
  by_cases hin : image.base.toNat ≤ address
  · rw [window_eq hin, window_eq hin, List.take_take, Nat.min_eq_left h]
  · have hout : ¬image.contains address = true := fun hin' => hin (contains_iff.mp hin').1
    rw [window, window, if_neg hout, if_neg hout, List.take_nil]

/-- What a read gives is the window that it asks for, and all of it is in the image. -/
theorem read_eq_ok (h : image.read address count = .ok bytes) :
    image.base.toNat ≤ address ∧ address < image.limit ∧ address + count ≤ image.limit ∧
      bytes = image.window address count := by
  unfold read at h
  split at h
  case isTrue hin =>
    split at h
    case isTrue hfits =>
      obtain ⟨hbase, hlimit⟩ := contains_iff.mp hin
      exact ⟨hbase, hlimit, hfits, (Except.ok.inj h).symm⟩
    case isFalse => cases h
  case isFalse => cases h

/-- A read starts in the image, however few bytes it asks for. -/
theorem read_of_not_contains (h : ¬image.contains address = true) (count : Nat) :
    image.read address count = .error (.addressOutOfRange address) := by
  rw [read, if_neg h]

/-- A read inside an image succeeds. -/
theorem read_window (h : image.base.toNat ≤ address) (hin : address < image.limit)
    (hlimit : address + count ≤ image.limit) :
    image.read address count = .ok (image.window address count) := by
  rw [read, if_pos (contains_iff.mpr ⟨h, hin⟩), if_pos hlimit]

/-- A read that fails names the first address that is not in the image. -/
theorem read_eq_error {error : Error} (h : image.read address count = .error error) :
    error = .addressOutOfRange (if image.contains address then image.limit else address) := by
  unfold read at h
  by_cases hin : image.contains address = true
  · rw [if_pos hin] at h ⊢
    split at h
    case isTrue => cases h
    case isFalse => exact (Except.error.inj h).symm
  · rw [if_neg hin] at h ⊢
    exact (Except.error.inj h).symm

/-- Whether a read succeeds, and what keeps it from doing so, is told by the addresses of an image alone. -/
theorem map_read_congr {other : Image} (hbase : other.base = image.base)
    (hsize : other.bytes.size = image.bytes.size) (address count : Nat) :
    (other.read address count).map (fun _ => ()) = (image.read address count).map fun _ => () := by
  have hlimit : other.limit = image.limit := by rw [limit, limit, hbase, hsize]
  have hcontains : other.contains address = image.contains address := by
    rw [contains, contains, hbase, hlimit]
  rw [read, read, hcontains, hlimit]
  by_cases hin : image.contains address = true
  · by_cases hfits : address + count ≤ image.limit
    · simp only [if_pos hin, if_pos hfits]
      rfl
    · simp only [if_pos hin, if_neg hfits]
  · simp only [if_neg hin]

/-! ## Bytes at addresses -/

def byte? (image : Image) (address : Nat) : Option UInt8 :=
  if image.base.toNat ≤ address then image.toList[address - image.base.toNat]? else none

def cut (image : Image) (address : Nat) : Image :=
  { image with bytes := image.bytes.extract 0 (address - image.base.toNat) }

theorem toList_cut (image : Image) (address : Nat) :
    (image.cut address).toList = image.toList.take (address - image.base.toNat) := by
  simp only [toList, cut, ByteArray.data_extract, Array.toList_extract, List.extract_eq_take_drop,
    Nat.sub_zero, List.drop_zero]

theorem byte?_eq_none_iff : image.byte? address = none ↔ ¬image.contains address = true := by
  rw [contains_iff, limit, byte?]
  split
  · rw [List.getElem?_eq_none_iff, length_toList]
    omega
  · simp only [true_iff]
    omega

/-- The bytes of a window are those at its addresses. -/
theorem getElem?_window {index : Nat} (h : image.base.toNat ≤ address) (hindex : index < count) :
    (image.window address count)[index]? = image.byte? (address + index) := by
  have hplace : address + index - image.base.toNat = address - image.base.toNat + index := by omega
  rw [window_eq h, List.getElem?_take_of_lt hindex, List.getElem?_drop, byte?,
    if_pos (Nat.le_add_right_of_le h), hplace]

/-- A window holds the bytes from an address on, up to its size or to the first address that is not in the image. -/
theorem window_of_byte? (hcount : bytes.length ≤ count)
    (hbytes : ∀ index < bytes.length, image.byte? (address + index) = bytes[index]?)
    (hend : bytes.length < count → image.byte? (address + bytes.length) = none) :
    image.window address count = bytes := by
  by_cases hin : image.contains address = true
  · obtain ⟨hbase, -⟩ := contains_iff.mp hin
    apply List.ext_getElem?
    intro index
    rcases Nat.lt_or_ge index bytes.length with hinside | hbehind
    · rw [getElem?_window hbase (by omega), hbytes index hinside]
    · rw [List.getElem?_eq_none hbehind, List.getElem?_eq_none_iff]
      rcases Nat.lt_or_ge bytes.length count with hshort | hfull
      · -- The image ends behind the bytes.
        have hlimit := byte?_eq_none_iff.mp (hend hshort)
        rw [contains_iff] at hlimit
        have hwindow := add_length_window_le hin count
        omega
      · have hlength := image.length_window_le address count
        omega
  · rw [window, if_neg hin]
    cases bytes with
    | nil => rfl
    | cons first rest =>
      have hfirst := hbytes 0 (by simp)
      rw [Nat.add_zero, byte?_eq_none_iff.mpr hin] at hfirst
      cases hfirst

theorem byte?_cut (h : address < count) : (image.cut count).byte? address = image.byte? address := by
  have hbase : (image.cut count).base = image.base := rfl
  rw [byte?, byte?, toList_cut, hbase]
  split
  · exact List.getElem?_take_of_lt (by omega)
  · rfl

theorem byte?_cut_self : (image.cut address).byte? address = none := by
  rw [byte?_eq_none_iff, contains_iff, limit, cut]
  simp only [ByteArray.size_extract]
  omega

end FlowDisasm.Image
