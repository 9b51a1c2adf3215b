import FlowDisasm.Listing

/-!
# Blocks of a listing

A listing consists of blocks: visited instructions, and gaps in front of those that begin behind the end of
the one before. Blocks begin at ascending addresses, whatever the instructions overlap. Nothing below the
end of an instruction is left out, and a gap lies between the end of one instruction and the start of the
next.
-/
namespace FlowDisasm.Listing

/-- A visited offset with what stands there in a listing. -/
structure Entry where
  offset : UInt32
  visit : Visit
  code : Code

def Entry.limit (entry : Entry) : Nat :=
  entry.offset.toNat + entry.code.bytes.length

/-- A gap or a visited instruction. -/
inductive Block where
  | gap (start size : Nat)
  | code (entry : Entry)

namespace Block

def start : Block → Nat
  | gap start _ => start
  | code entry => entry.offset.toNat

def entry? : Block → Option Entry
  | gap _ _ => none
  | code entry => some entry

def gap? : Block → Option (Nat × Nat)
  | gap start size => some (start, size)
  | code _ => none

theorem mem_of_mem_gaps {blocks : List Block} {start size : Nat}
    (h : (start, size) ∈ blocks.filterMap gap?) : gap start size ∈ blocks := by
  obtain ⟨block, hblock, hgap⟩ := List.mem_filterMap.mp h
  cases block with
  | gap first count =>
    obtain ⟨rfl, rfl⟩ := Prod.mk.inj (Option.some.inj hgap)
    exact hblock
  | code entry => cases hgap

end Block

/-- The blocks of entries, where everything below some address is shown already. -/
def blocksFrom (shown : Nat) : List Entry → List Block
  | [] => []
  | entry :: rest =>
    if shown < entry.offset.toNat then
      .gap shown (entry.offset.toNat - shown) :: .code entry :: blocksFrom entry.limit rest
    else .code entry :: blocksFrom entry.limit rest

/-- Entries in the order of a listing, none of them without bytes. -/
structure Ordered (entries : List Entry) : Prop where
  ascending : entries.Pairwise fun first second => first.offset < second.offset
  nonempty : ∀ entry ∈ entries, 0 < entry.code.bytes.length

variable {shown address start size : Nat} {entry : Entry} {entries rest : List Entry} {block : Block}

theorem Ordered.tail (h : Ordered (entry :: rest)) : Ordered rest where
  ascending := h.ascending.of_cons
  nonempty other hother := h.nonempty other (List.mem_cons_of_mem _ hother)

theorem Ordered.offset_lt {other : Entry} (h : Ordered (entry :: rest)) (hother : other ∈ rest) :
    entry.offset < other.offset :=
  (List.pairwise_cons.mp h.ascending).1 other hother

theorem Ordered.offset_lt_limit (h : Ordered entries) (hentry : entry ∈ entries) :
    entry.offset.toNat < entry.limit :=
  Nat.lt_add_of_pos_right (h.nonempty entry hentry)

/-- An entry comes directly, or behind a gap. -/
theorem blocksFrom_cons (shown : Nat) (entry : Entry) (rest : List Entry) :
    ∃ gaps, blocksFrom shown (entry :: rest) = gaps ++ .code entry :: blocksFrom entry.limit rest ∧
      (gaps = [] ∧ entry.offset.toNat ≤ shown ∨
        gaps = [.gap shown (entry.offset.toNat - shown)] ∧ shown < entry.offset.toNat) := by
  by_cases hgap : shown < entry.offset.toNat
  · exact ⟨_, by rw [blocksFrom, if_pos hgap]; rfl, .inr ⟨rfl, hgap⟩⟩
  · exact ⟨_, by rw [blocksFrom, if_neg hgap]; rfl, .inl ⟨rfl, Nat.le_of_not_lt hgap⟩⟩

/-- Every entry has one block, in the order of the entries. -/
theorem filterMap_entry?_blocksFrom (shown : Nat) (entries : List Entry) :
    (blocksFrom shown entries).filterMap Block.entry? = entries := by
  induction entries generalizing shown with
  | nil => rfl
  | cons entry rest ih =>
    obtain ⟨gaps, hblocks, hgaps⟩ := blocksFrom_cons shown entry rest
    have hnone : gaps.filterMap Block.entry? = [] := by
      rcases hgaps with ⟨rfl, -⟩ | ⟨rfl, -⟩ <;> rfl
    rw [hblocks, List.filterMap_append, hnone, List.nil_append, List.filterMap_cons, ih]
    rfl

theorem mem_blocksFrom : .code entry ∈ blocksFrom shown entries ↔ entry ∈ entries := by
  have hmem : entry ∈ entries ↔ ∃ block ∈ blocksFrom shown entries, block.entry? = some entry := by
    rw [← List.mem_filterMap, filterMap_entry?_blocksFrom]
  rw [hmem]
  constructor
  · intro hblock
    exact ⟨_, hblock, rfl⟩
  · rintro ⟨block, hblock, hentry⟩
    cases block with
    | gap start size => cases hentry
    | code other =>
      obtain rfl := Option.some.inj hentry
      exact hblock

/-! ## Where blocks begin -/

/-- Blocks begin where all is shown that is below, or at the end of some entry, or with an entry. -/
theorem start_of_mem_blocksFrom (hblock : block ∈ blocksFrom shown entries) :
    block.start = shown ∨ ∃ entry ∈ entries, block.start = entry.limit ∨
      block.start = entry.offset.toNat := by
  induction entries generalizing shown with
  | nil => cases hblock
  | cons entry rest ih =>
    obtain ⟨gaps, hblocks, hgaps⟩ := blocksFrom_cons shown entry rest
    rw [hblocks, List.mem_append, List.mem_cons] at hblock
    rcases hblock with hgap | rfl | hrest
    · rcases hgaps with ⟨rfl, -⟩ | ⟨rfl, -⟩
      · cases hgap
      · rw [List.mem_singleton.mp hgap]
        exact .inl rfl
    · exact .inr ⟨entry, List.mem_cons_self, .inr rfl⟩
    · right
      rcases ih hrest with hlimit | ⟨other, hother, hstart⟩
      · exact ⟨entry, List.mem_cons_self, .inl hlimit⟩
      · exact ⟨other, List.mem_cons_of_mem _ hother, hstart⟩

/-- What comes behind an entry begins behind its start. -/
theorem offset_lt_start (h : Ordered (entry :: rest)) (hblock : block ∈ blocksFrom entry.limit rest) :
    entry.offset.toNat < block.start := by
  have hentry := h.offset_lt_limit List.mem_cons_self
  rcases start_of_mem_blocksFrom hblock with hstart | ⟨other, hother, hstart | hstart⟩
  · omega
  · have := h.tail.offset_lt_limit hother
    have := UInt32.lt_iff_toNat_lt.mp (h.offset_lt hother)
    omega
  · have := UInt32.lt_iff_toNat_lt.mp (h.offset_lt hother)
    omega

/-- No two blocks begin at one address, whatever the instructions overlap. -/
theorem starts_ascend (h : Ordered entries) :
    (blocksFrom shown entries).Pairwise fun first second => first.start < second.start := by
  induction entries generalizing shown with
  | nil => exact .nil
  | cons entry rest ih =>
    have hbehind : ∀ block ∈ blocksFrom entry.limit rest, entry.offset.toNat < block.start :=
      fun block => offset_lt_start h
    have hcode : (Block.code entry :: blocksFrom entry.limit rest).Pairwise
        fun first second => first.start < second.start :=
      List.pairwise_cons.mpr ⟨hbehind, ih h.tail⟩
    obtain ⟨gaps, hblocks, ⟨rfl, -⟩ | ⟨rfl, hgap⟩⟩ := blocksFrom_cons shown entry rest
    · rwa [hblocks]
    · rw [hblocks]
      refine List.pairwise_cons.mpr ⟨fun block hblock => ?_, hcode⟩
      rcases List.mem_cons.mp hblock with rfl | hrest
      · exact hgap
      · exact Nat.lt_trans hgap (hbehind block hrest)

/-! ## Gaps -/

/-- A gap is not empty. It begins where all is shown that is below, or at the end of an entry, and ends
where the next entry starts. -/
theorem gap_between (hgap : .gap start size ∈ blocksFrom shown entries) :
    ∃ before after, ∃ next : Entry, entries = before ++ next :: after ∧ 0 < size ∧
      start + size = next.offset.toNat ∧
      start = (before.getLast?.map Entry.limit).getD shown := by
  induction entries generalizing shown with
  | nil => cases hgap
  | cons entry rest ih =>
    obtain ⟨gaps, hblocks, hgaps⟩ := blocksFrom_cons shown entry rest
    rw [hblocks, List.mem_append, List.mem_cons] at hgap
    rcases hgap with hgap | hcode | hrest
    · rcases hgaps with ⟨rfl, -⟩ | ⟨rfl, hless⟩
      · cases hgap
      · obtain ⟨rfl, rfl⟩ := Block.gap.inj (List.mem_singleton.mp hgap)
        exact ⟨[], rest, entry, rfl, by omega, by omega, rfl⟩
    · cases hcode
    · obtain ⟨before, after, next, hentries, hsize, hend, hstart⟩ := ih hrest
      refine ⟨entry :: before, after, next, by rw [hentries]; rfl, hsize, hend, ?_⟩
      rw [hstart, List.getLast?_cons]
      cases before.getLast? <;> rfl

/-- No block begins inside a gap. -/
theorem start_outside_gap (h : Ordered entries) (hgap : .gap start size ∈ blocksFrom shown entries)
    (hblock : block ∈ blocksFrom shown entries) : block.start ≤ start ∨ start + size ≤ block.start := by
  induction entries generalizing shown with
  | nil => cases hgap
  | cons entry rest ih =>
    obtain ⟨gaps, hblocks, hgaps⟩ := blocksFrom_cons shown entry rest
    rw [hblocks, List.mem_append, List.mem_cons] at hgap hblock
    rcases hgap with hgap | hcode | hlater
    · rcases hgaps with ⟨rfl, -⟩ | ⟨rfl, hless⟩
      · cases hgap
      · obtain ⟨rfl, rfl⟩ := Block.gap.inj (List.mem_singleton.mp hgap)
        rcases hblock with hsame | rfl | hbehind
        · rw [List.mem_singleton.mp hsame]
          exact .inl (Nat.le_refl _)
        · exact .inr (Nat.le_of_eq (Nat.add_sub_of_le (Nat.le_of_lt hless)))
        · have := offset_lt_start h hbehind
          exact .inr (by omega)
    · cases hcode
    · have hstart : entry.offset.toNat < start := offset_lt_start h hlater
      rcases hblock with hfirst | rfl | hbehind
      · rcases hgaps with ⟨rfl, -⟩ | ⟨rfl, hless⟩
        · cases hfirst
        · rw [List.mem_singleton.mp hfirst]
          exact .inl (Nat.le_of_lt (Nat.lt_trans hless hstart))
      · exact .inl (Nat.le_of_lt hstart)
      · exact ih h.tail hlater hbehind

/-- If a gap covers a byte of an entry, then an entry that begins later ends where the gap begins. -/
theorem gap_inside (h : Ordered entries) (hgap : .gap start size ∈ blocksFrom shown entries)
    (hentry : entry ∈ entries) (haddress : start ≤ address)
    (hinside : address < start + size) (hoffset : entry.offset.toNat ≤ address)
    (hlimit : address < entry.limit) :
    ∃ inner ∈ entries, entry.offset < inner.offset ∧ inner.limit = start := by
  obtain ⟨before, after, next, rfl, -, hend, hstart⟩ := gap_between hgap
  have hascending := List.pairwise_append.mp h.ascending
  -- The entry starts below the end of the gap, so it stands in front of it.
  have hbefore : entry ∈ before := by
    rcases List.mem_append.mp hentry with hbefore | hafter
    · exact hbefore
    · have hnext : next.offset.toNat ≤ entry.offset.toNat := by
        rcases List.mem_cons.mp hafter with rfl | hlater
        · exact Nat.le_refl _
        · exact Nat.le_of_lt
            (UInt32.lt_iff_toNat_lt.mp ((List.pairwise_cons.mp hascending.2.1).1 entry hlater))
      omega
  obtain ⟨front, last, rfl⟩ :=
    (List.eq_nil_or_concat before).resolve_left (List.ne_nil_of_mem hbefore)
  rw [List.concat_eq_append] at hascending hbefore hstart ⊢
  rw [List.getLast?_concat] at hstart
  refine ⟨last, by simp, ?_, hstart.symm⟩
  rcases List.mem_append.mp hbefore with hfront | heq
  · exact (List.pairwise_append.mp hascending.1).2.2 entry hfront last (by simp)
  · obtain rfl := List.mem_singleton.mp heq
    exact absurd haddress (Nat.not_le.mpr (hstart ▸ hlimit))

/-! ## What is covered -/

/-- Below the end of an entry, every address that was not shown before is that of a byte of an entry or
lies in a gap. -/
theorem covered_of_lt_limit (hentry : entry ∈ entries) (hshown : shown ≤ address)
    (hlimit : address < entry.limit) :
    (∃ other ∈ entries, other.offset.toNat ≤ address ∧ address < other.limit) ∨
      ∃ start size, .gap start size ∈ blocksFrom shown entries ∧
        start ≤ address ∧ address < start + size := by
  induction entries generalizing shown with
  | nil => cases hentry
  | cons first rest ih =>
    obtain ⟨gaps, hblocks, hgaps⟩ := blocksFrom_cons shown first rest
    by_cases hoffset : address < first.offset.toNat
    · rcases hgaps with ⟨-, hless⟩ | ⟨rfl, hless⟩
      · omega
      · refine .inr ⟨shown, first.offset.toNat - shown, ?_, hshown, by omega⟩
        rw [hblocks]
        exact List.mem_cons_self
    · by_cases hfirst : address < first.limit
      · exact .inl ⟨first, List.mem_cons_self, Nat.le_of_not_lt hoffset, hfirst⟩
      · rcases List.mem_cons.mp hentry with rfl | hrest
        · exact absurd hlimit hfirst
        · rcases ih hrest (Nat.le_of_not_lt hfirst) with
            ⟨other, hother, hin⟩ | ⟨start, size, hgap, hin⟩
          · exact .inl ⟨other, List.mem_cons_of_mem _ hother, hin⟩
          · refine .inr ⟨start, size, ?_, hin⟩
            rw [hblocks]
            exact List.mem_append_right _ (List.mem_cons_of_mem _ hgap)

end FlowDisasm.Listing
