import FlowDisasm.Bytes.Buffer

/-!
# Bytes laid over an array

Bytes that are laid over an array are found where they were laid, and all other bytes stay. So a range
that lies apart from them reads as before. Adding to the word at a place is the one change of this kind
that relocation makes.
-/
namespace FlowDisasm.Bytes

variable {data : Array UInt8} {start other count index : Nat} {bytes : List UInt8}

theorem getElem?_overlay_outside (h : index < start ∨ start + bytes.length ≤ index) :
    (overlay data start bytes)[index]? = data[index]? := by
  induction bytes generalizing data start with
  | nil => rfl
  | cons byte rest ih =>
    simp only [List.length_cons] at h
    rw [overlay, ih (by omega), Array.getElem?_setIfInBounds_ne (by omega)]

theorem getElem?_overlay_inside (hfit : start + bytes.length ≤ data.size) (h : index < bytes.length) :
    (overlay data start bytes)[start + index]? = bytes[index]? := by
  induction bytes generalizing data start index with
  | nil => simp at h
  | cons byte rest ih =>
    simp only [List.length_cons] at hfit h
    rw [overlay]
    cases index with
    | zero =>
      rw [getElem?_overlay_outside (by omega)]
      simp only [Nat.add_zero, List.getElem?_cons_zero]
      exact Array.getElem?_setIfInBounds_self_of_lt (by omega)
    | succ index =>
      have hrest : start + (index + 1) = start + 1 + index := by omega
      rw [hrest, List.getElem?_cons_succ]
      exact ih (by rw [Array.size_setIfInBounds]; omega) (by omega)

theorem getElem?_overlay (hfit : start + bytes.length ≤ data.size) :
    (overlay data start bytes)[index]? =
      if start ≤ index ∧ index < start + bytes.length then bytes[index - start]?
      else data[index]? := by
  split
  · rename_i hin
    obtain ⟨distance, rfl⟩ : ∃ distance, index = start + distance := ⟨index - start, by omega⟩
    rw [getElem?_overlay_inside hfit (by omega), Nat.add_sub_cancel_left]
  · exact getElem?_overlay_outside (by omega)

/-! ## Ranges -/

theorem range?_eq_some_iff : range? data start count = some bytes ↔
    start + count ≤ data.size ∧ bytes.length = count ∧
      ∀ index < count, data[start + index]? = bytes[index]? := by
  constructor
  · intro h
    have hlength := length_of_range? h
    unfold range? at h
    split at h
    · rename_i hfit
      obtain rfl := Option.some.inj h
      refine ⟨hfit, hlength, fun index hindex => ?_⟩
      rw [Array.getElem?_toList, Array.getElem?_extract, if_pos (by omega)]
    · cases h
  · rintro ⟨hfit, hlength, hbytes⟩
    have hcount : (data.extract start (start + count)).toList.length = count :=
      length_of_range? (if_pos hfit)
    rw [range?, if_pos hfit]
    refine congrArg some (List.ext_getElem? fun index => ?_)
    by_cases hindex : index < count
    · rw [← hbytes index hindex, Array.getElem?_toList, Array.getElem?_extract, if_pos (by omega)]
    · rw [List.getElem?_eq_none (by omega), List.getElem?_eq_none (by omega)]

theorem range?_isSome (h : start + count ≤ data.size) : ∃ bytes, range? data start count = some bytes :=
  ⟨_, if_pos h⟩

theorem exists_read? {α : Type} [Word α] (h : start + Word.width α ≤ data.size) :
    ∃ word : α, read? data start = some word := by
  obtain ⟨bytes, hbytes⟩ := range?_isSome h
  exact ⟨decode bytes, congrArg (Option.map decode) hbytes⟩

theorem toList_extract (h : range? data start count = some bytes) :
    (data.extract start (start + count)).toList = bytes := by
  rw [range?, if_pos (range?_eq_some_iff.mp h).1] at h
  exact Option.some.inj h

theorem range?_overlay (hfit : start + bytes.length ≤ data.size) :
    range? (overlay data start bytes) start bytes.length = some bytes := by
  rw [range?_eq_some_iff, size_overlay]
  exact ⟨hfit, rfl, fun index hindex => getElem?_overlay_inside hfit hindex⟩

/-- Laying over what is there changes nothing. -/
theorem overlay_eq_self (h : range? data start bytes.length = some bytes) :
    overlay data start bytes = data := by
  obtain ⟨hfit, -, hbytes⟩ := range?_eq_some_iff.mp h
  refine Array.ext_getElem? fun index => ?_
  rw [getElem?_overlay hfit]
  split
  · rw [← hbytes (index - start) (by omega)]
    congr
    omega
  · rfl

/-- A range is read from its own bytes alone. -/
theorem range?_congr {changed : Array UInt8} (hsize : changed.size = data.size)
    (hsame : ∀ index < count, changed[start + index]? = data[start + index]?) :
    range? changed start count = range? data start count := by
  cases hrange : range? data start count with
  | none =>
    rw [range?_eq_none_iff] at hrange ⊢
    omega
  | some bytes =>
    rw [range?_eq_some_iff] at hrange ⊢
    obtain ⟨hfit, hlength, hbytes⟩ := hrange
    exact ⟨by omega, hlength, fun index hindex => (hsame index hindex).trans (hbytes index hindex)⟩

/-! ## Adding to words -/

/-- The data with an amount added to the word at a site, if the word is inside. -/
def addAt (amount : UInt32) (data : Array UInt8) (site : Nat) : Array UInt8 :=
  match (read? data site : Option UInt32) with
  | some word => overlay data site (encode (word + amount))
  | none => data

def addAll (amount : UInt32) (data : Array UInt8) (sites : List Nat) : Array UInt8 :=
  sites.foldl (addAt amount) data

variable {amount word : UInt32} {site : Nat} {sites : List Nat}

theorem read?_isSome (h : site + 4 ≤ data.size) : ∃ word : UInt32, read? data site = some word :=
  exists_read? h

theorem fits_of_read? (h : read? data site = some word) : site + 4 ≤ data.size := by
  obtain ⟨bytes, hbytes, -⟩ := Option.map_eq_some_iff.mp h
  exact (range?_eq_some_iff.mp hbytes).1

@[simp] theorem size_addAt : (addAt amount data site).size = data.size := by
  unfold addAt
  split
  · exact size_overlay ..
  · rfl

theorem getElem?_addAt (h : index < site ∨ site + 4 ≤ index) :
    (addAt amount data site)[index]? = data[index]? := by
  unfold addAt
  split
  · exact getElem?_overlay_outside (by rw [length_encode]; exact h)
  · rfl

theorem read?_addAt (h : read? data site = some word) :
    read? (addAt amount data site) site = some (word + amount) := by
  have hfit : site + (encode (word + amount)).length ≤ data.size := by
    rw [length_encode]
    exact fits_of_read? h
  simp only [addAt, h]
  have hrange := range?_overlay hfit
  rw [length_encode] at hrange
  rw [read?, hrange, Option.map_some, decode_encode]

/-- Adding at a site leaves the words apart from it as they are. -/
theorem read?_addAt_of_apart (h : other + 4 ≤ site ∨ site + 4 ≤ other) :
    (read? (addAt amount data site) other : Option UInt32) = read? data other := by
  refine congrArg (Option.map decode) (range?_congr size_addAt fun index hindex => ?_)
  have hwidth : index < 4 := hindex
  exact getElem?_addAt (by omega)

@[simp] theorem addAll_nil : addAll amount data [] = data := rfl

theorem addAll_cons : addAll amount data (site :: sites) = addAll amount (addAt amount data site) sites :=
  rfl

theorem addAll_append (more : List Nat) :
    addAll amount data (sites ++ more) = addAll amount (addAll amount data sites) more :=
  List.foldl_append

@[simp] theorem size_addAll : (addAll amount data sites).size = data.size := by
  induction sites generalizing data with
  | nil => rfl
  | cons site sites ih => rw [addAll_cons, ih, size_addAt]

/-- Only the four bytes at each site can change. -/
theorem getElem?_addAll (h : ∀ site ∈ sites, index < site ∨ site + 4 ≤ index) :
    (addAll amount data sites)[index]? = data[index]? := by
  induction sites generalizing data with
  | nil => rfl
  | cons site sites ih =>
    rw [addAll_cons, ih fun other hother => h other (List.mem_cons_of_mem _ hother)]
    exact getElem?_addAt (h site List.mem_cons_self)

theorem read?_addAll_of_apart (h : ∀ site ∈ sites, other + 4 ≤ site ∨ site + 4 ≤ other) :
    (read? (addAll amount data sites) other : Option UInt32) = read? data other := by
  induction sites generalizing data with
  | nil => rfl
  | cons site sites ih =>
    rw [addAll_cons, ih fun site hsite => h site (List.mem_cons_of_mem _ hsite)]
    exact read?_addAt_of_apart (h site List.mem_cons_self)

/-- The word at a site that is apart from all other sites is added to once. -/
theorem read?_addAll {before after : List Nat} (hword : read? data site = some word)
    (hapart : ∀ other ∈ before ++ after, site + 4 ≤ other ∨ other + 4 ≤ site) :
    read? (addAll amount data (before ++ site :: after)) site = some (word + amount) := by
  have hbefore : read? (addAll amount data before) site = some word := by
    rw [read?_addAll_of_apart fun other hother => hapart other (List.mem_append_left _ hother)]
    exact hword
  rw [addAll_append, addAll_cons,
    read?_addAll_of_apart fun other hother => hapart other (List.mem_append_right _ hother)]
  exact read?_addAt hbefore

end FlowDisasm.Bytes
