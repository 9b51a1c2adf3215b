import FlowDisasm.Proofs.Bytes.Overlay

/-!
# Adding more than once

Adding to a word twice adds the sum, and additions to words without a common byte can be done in either order. So
where any two sites have the same word or no byte in common, adding at all sites twice adds the sum at all of them.
-/
namespace FlowDisasm.Bytes

variable {data : Array UInt8} {start other index site : Nat} {bytes more : List UInt8}
  {amount first second word : UInt32} {sites : List Nat}

/-! ## Bytes laid over bytes -/

/-- The last of several layers is seen. -/
theorem overlay_overlay (hfit : start + bytes.length ≤ data.size) (hlength : more.length = bytes.length) :
    overlay (overlay data start bytes) start more = overlay data start more := by
  have hfit' : start + more.length ≤ data.size := hlength ▸ hfit
  refine Array.ext_getElem? fun index => ?_
  rw [getElem?_overlay (by rwa [size_overlay]), getElem?_overlay hfit, getElem?_overlay hfit', hlength]
  split <;> rfl

/-- Layers without a common place can be laid in either order. -/
theorem overlay_comm (hfit : start + bytes.length ≤ data.size) (hfit' : other + more.length ≤ data.size)
    (hapart : start + bytes.length ≤ other ∨ other + more.length ≤ start) :
    overlay (overlay data start bytes) other more = overlay (overlay data other more) start bytes := by
  refine Array.ext_getElem? fun index => ?_
  rw [getElem?_overlay (by rwa [size_overlay]), getElem?_overlay hfit,
    getElem?_overlay (by rwa [size_overlay]), getElem?_overlay hfit']
  by_cases hfirst : start ≤ index ∧ index < start + bytes.length
  · rw [if_pos hfirst, if_neg (by omega), if_pos hfirst]
  · rw [if_neg hfirst, if_neg hfirst]

/-! ## Two additions -/

theorem addAt_of_read? (h : read? data site = some word) :
    addAt amount data site = overlay data site (encode (word + amount)) := by
  rw [addAt, h]

theorem addAt_of_outside (h : (read? data site : Option UInt32) = none) : addAt amount data site = data := by
  rw [addAt, h]

theorem addAt_zero : addAt 0 data site = data := by
  cases hword : (read? data site : Option UInt32) with
  | none => exact addAt_of_outside hword
  | some word =>
    rw [addAt_of_read? hword, UInt32.add_zero]
    obtain ⟨bytes, hbytes, rfl⟩ := Option.map_eq_some_iff.mp hword
    rw [encode_decode bytes (length_of_range? hbytes)]
    exact overlay_eq_self (by rw [length_of_range? hbytes]; exact hbytes)

theorem addAt_addAt : addAt second (addAt first data site) site = addAt (first + second) data site := by
  cases hword : (read? data site : Option UInt32) with
  | none => rw [addAt_of_outside hword, addAt_of_outside hword, addAt_of_outside hword]
  | some word =>
    have hfit : site + (encode (word + first)).length ≤ data.size := by
      rw [length_encode]
      exact fits_of_read? hword
    rw [addAt_of_read? (read?_addAt hword), addAt_of_read? hword, addAt_of_read? hword,
      overlay_overlay hfit (by rw [length_encode, length_encode]), UInt32.add_assoc]

/-- Additions to words without a common byte can be done in either order. -/
theorem addAt_comm_of_apart (hapart : site + 4 ≤ other ∨ other + 4 ≤ site) :
    addAt second (addAt first data site) other = addAt first (addAt second data other) site := by
  have hother : (read? (addAt first data site) other : Option UInt32) = read? data other :=
    read?_addAt_of_apart hapart.symm
  have hsite : (read? (addAt second data other) site : Option UInt32) = read? data site :=
    read?_addAt_of_apart hapart
  cases hword : (read? data site : Option UInt32) with
  | none =>
    rw [hword] at hsite
    rw [addAt_of_outside hword, addAt_of_outside hsite]
  | some word =>
    rw [hword] at hsite
    cases hnext : (read? data other : Option UInt32) with
    | none =>
      rw [hnext] at hother
      rw [addAt_of_outside hother, addAt_of_outside hnext]
    | some next =>
      rw [hnext] at hother
      rw [addAt_of_read? hother, addAt_of_read? hword, addAt_of_read? hsite, addAt_of_read? hnext]
      refine overlay_comm ?_ ?_ ?_
      · rw [length_encode]
        exact fits_of_read? hword
      · rw [length_encode]
        exact fits_of_read? hnext
      · rw [length_encode, length_encode]
        exact hapart

/-- The words at two sites are the same or have no byte in common. -/
def SameOrApart (site other : Nat) : Prop :=
  site = other ∨ site + 4 ≤ other ∨ other + 4 ≤ site

instance : Decidable (SameOrApart site other) :=
  inferInstanceAs (Decidable (_ ∨ _ ∨ _))

theorem addAt_comm (h : SameOrApart site other) :
    addAt second (addAt first data site) other = addAt first (addAt second data other) site := by
  rcases h with rfl | hapart
  · rw [addAt_addAt, addAt_addAt, UInt32.add_comm]
  · exact addAt_comm_of_apart hapart

/-! ## Additions at many sites -/

theorem addAll_zero : addAll 0 data sites = data := by
  induction sites generalizing data with
  | nil => rfl
  | cons site sites ih => rw [addAll_cons, addAt_zero, ih]

/-- One more addition can be done before or after all others. -/
theorem addAll_addAt (h : ∀ other ∈ sites, SameOrApart site other) :
    addAll second (addAt first data site) sites = addAt first (addAll second data sites) site := by
  induction sites generalizing data with
  | nil => rfl
  | cons other sites ih =>
    obtain ⟨hother, hsites⟩ := List.forall_mem_cons.mp h
    rw [addAll_cons, addAt_comm hother, ih hsites, addAll_cons]

theorem addAll_addAll (h : sites.Pairwise SameOrApart) :
    addAll second (addAll first data sites) sites = addAll (first + second) data sites := by
  induction sites generalizing data with
  | nil => rw [addAll_nil, addAll_nil, addAll_nil]
  | cons site sites ih =>
    obtain ⟨hsite, hsites⟩ := List.pairwise_cons.mp h
    calc addAll second (addAll first data (site :: sites)) (site :: sites)
      _ = addAll second (addAt second (addAll first (addAt first data site) sites) site) sites := rfl
      -- The second addition at the first site is done right behind the first one there.
      _ = addAll second (addAll first (addAt second (addAt first data site) site) sites) sites := by
        rw [← addAll_addAt hsite]
      _ = addAll (first + second) (addAt (first + second) data site) sites := by
        rw [addAt_addAt, ih hsites]
      _ = addAll (first + second) data (site :: sites) := rfl

/-- Words that overlap in part do not add up: a carry that leaves the first word may stay in the second one. -/
example :
    let data : Array UInt8 := #[0, 0, 0xFF, 0xFF, 0, 0]
    addAll 0x10000 (addAll 0x1 data [0, 2]) [0, 2] ≠ addAll 0x10001 data [0, 2] := by
  decide +kernel

end FlowDisasm.Bytes
