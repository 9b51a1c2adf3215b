import FlowDisasm.Proofs.Listing.Rendering

/-!
# Which addresses a listing covers

An entry shows as many bytes as its instruction and the data behind it have. They lie one behind the other
in the image, except that a service call which ends the address space has its data at address zero. Such
data can be read only in an image with a byte for every 32-bit number. So an entry covers its footprint, and
a gap meets a footprint only where an instruction that starts later ends earlier.
-/
namespace FlowDisasm

namespace Listing

variable {subject : Subject} {state : Exploration} {entry : Entry} {entries : List Entry}
  {instruction : X86.Instruction} {address start size : Nat}

namespace Shows

theorem footprint_eq (h : Shows subject state entry instruction) :
    subject.footprint entry.place =
      List.range' entry.offset.toNat instruction.bytes.length ++
        List.range' instruction.next.toNat (subject.dataCount instruction entry.visit.mode) :=
  Subject.footprint_of_ok h.decoded

theorem length_bytes (h : Shows subject state entry instruction) :
    entry.code.bytes.length =
      instruction.bytes.length + subject.dataCount instruction entry.visit.mode := by
  rw [h.bytes, List.length_append]
  congr 1
  rcases Nat.eq_zero_or_pos (subject.dataCount instruction entry.visit.mode) with hzero | hpos
  · rw [hzero, Image.window_zero]
    rfl
  · obtain ⟨hbase, hlimit⟩ := h.dataInImage hpos
    exact Image.length_window hbase hlimit

theorem limit_eq (h : Shows subject state entry instruction) :
    entry.limit = entry.offset.toNat +
      (instruction.bytes.length + subject.dataCount instruction entry.visit.mode) := by
  rw [Entry.limit, h.length_bytes]

theorem endAt_place (h : Shows subject state entry instruction) :
    subject.endAt entry.place = entry.limit := by
  rw [Subject.endAt, h.footprint_eq, List.length_append, List.length_range', List.length_range',
    h.limit_eq]
  rfl

/-- In the address space an entry covers its footprint and nothing else. -/
theorem mem_footprint_of_lt (h : Shows subject state entry instruction)
    (hoffset : entry.offset.toNat ≤ address) (hlimit : address < entry.limit)
    (hspace : address < UInt32.size) : address ∈ subject.footprint entry.place := by
  have hnext : instruction.next.toNat =
      (entry.offset.toNat + instruction.bytes.length) % UInt32.size :=
    Subject.toNat_next h.decoded
  have hend := h.limit_eq
  rw [h.footprint_eq, List.mem_append, List.mem_range'_1, List.mem_range'_1]
  by_cases hinstruction : address < entry.offset.toNat + instruction.bytes.length
  · exact .inl ⟨hoffset, hinstruction⟩
  · rw [Nat.mod_eq_of_lt (by omega)] at hnext
    exact .inr (by omega)

theorem lt_limit_of_mem_footprint (h : Shows subject state entry instruction)
    (haddress : address ∈ subject.footprint entry.place) : address < entry.limit := by
  have hnext : instruction.next.toNat =
      (entry.offset.toNat + instruction.bytes.length) % UInt32.size :=
    Subject.toNat_next h.decoded
  have hless := Nat.mod_le (entry.offset.toNat + instruction.bytes.length) UInt32.size
  have hend := h.limit_eq
  rw [h.footprint_eq, List.mem_append, List.mem_range'_1, List.mem_range'_1] at haddress
  omega

/-- A footprint has no holes above the start of its instruction. -/
theorem mem_footprint_of_le (h : Shows subject state entry instruction) {behind : Nat}
    (hbehind : behind ∈ subject.footprint entry.place) (hoffset : entry.offset.toNat ≤ address)
    (haddress : address ≤ behind) : address ∈ subject.footprint entry.place := by
  have hnext : instruction.next.toNat =
      (entry.offset.toNat + instruction.bytes.length) % UInt32.size :=
    Subject.toNat_next h.decoded
  have hless := Nat.mod_le (entry.offset.toNat + instruction.bytes.length) UInt32.size
  rw [h.footprint_eq, List.mem_append, List.mem_range'_1, List.mem_range'_1] at hbehind ⊢
  omega

theorem offset_mem_footprint (h : Shows subject state entry instruction) :
    entry.offset.toNat ∈ subject.footprint entry.place := by
  have hlength := (X86.decode_bytes h.decoded).1
  rw [h.footprint_eq, List.mem_append, List.mem_range'_1]
  omega

/-- Data around the end of the address space are in the image only if the image is as large as that space. -/
theorem ascends (h : Shows subject state entry instruction)
    (hsize : subject.image.bytes.size < UInt32.size) :
    (subject.footprint entry.place).Pairwise (· < ·) := by
  have hnext : instruction.next.toNat =
      (entry.offset.toNat + instruction.bytes.length) % UInt32.size :=
    Subject.toNat_next h.decoded
  have hend : entry.offset.toNat + instruction.bytes.length ≤ subject.image.limit :=
    (X86.decode_bytes h.decoded).2.1
  have hstretch : subject.dataCount instruction entry.visit.mode = 0 ∨
      instruction.next.toNat = entry.offset.toNat + instruction.bytes.length := by
    rcases Nat.eq_zero_or_pos (subject.dataCount instruction entry.visit.mode) with hzero | hpos
    · exact .inl hzero
    · right
      have hbase := (h.dataInImage hpos).1
      unfold Image.limit at hend
      unfold UInt32.size at hnext hsize
      omega
  rw [Subject.footprint_eq_range' h.decoded hstretch]
  exact List.pairwise_lt_range' 1

/-- A footprint with ascending addresses begins with its instruction. -/
theorem offset_le_of_ascending (h : Shows subject state entry instruction)
    (hascending : (subject.footprint entry.place).Pairwise (· < ·))
    (haddress : address ∈ subject.footprint entry.place) : entry.offset.toNat ≤ address := by
  rw [Subject.footprint_eq_range' h.decoded (Subject.footprint_of_ascending h.decoded hascending),
    List.mem_range'_1] at haddress
  exact haddress.1

end Shows

namespace Listed

/-- Every byte of the image below a byte of a visited instruction is shown as code or in a gap. -/
theorem covered {place : Root} {behind : Nat} (h : Listed subject state entries)
    (hplace : place ∈ state.places) (hbehind : behind ∈ subject.footprint place)
    (hbase : subject.image.base.toNat ≤ address) (haddress : address ≤ behind) :
    (∃ other ∈ state.places, address ∈ subject.footprint other) ∨
      ∃ start size, .gap start size ∈ blocksFrom subject.image.base.toNat entries ∧
        start ≤ address ∧ address < start + size := by
  have hplaces := h.map_place
  rw [← hplaces] at hplace ⊢
  obtain ⟨entry, hentry, rfl⟩ := List.mem_map.mp hplace
  obtain ⟨instruction, hshows⟩ := h.shows entry hentry
  by_cases hoffset : entry.offset.toNat ≤ address
  · exact .inl ⟨entry.place, hplace, hshows.mem_footprint_of_le hbehind hoffset haddress⟩
  · have hlimit : address < entry.limit := by
      have := h.ordered.offset_lt_limit hentry
      omega
    rcases covered_of_lt_limit hentry hbase hlimit with ⟨other, hother, hin⟩ | hgap
    · obtain ⟨found, hfound⟩ := h.shows other hother
      have hspace : address < UInt32.size := by
        have := entry.offset.toNat_lt
        unfold UInt32.size
        omega
      exact .inl ⟨other.place, List.mem_map_of_mem hother,
        hfound.mem_footprint_of_lt hin.1 hin.2 hspace⟩
    · exact .inr hgap

/-- A gap lies inside the image. -/
theorem gap_in_image (h : Listed subject state entries)
    (hgap : .gap start size ∈ blocksFrom subject.image.base.toNat entries) :
    subject.image.base.toNat ≤ start ∧ 0 < size ∧ start + size ≤ subject.image.limit ∧
      start + size < UInt32.size := by
  obtain ⟨before, after, next, hentries, hsize, hend, hstart⟩ := gap_between hgap
  have hbounds {other : Entry} (hother : other ∈ entries) :
      subject.image.base.toNat ≤ other.offset.toNat ∧ other.offset.toNat < subject.image.limit := by
    obtain ⟨instruction, hshows⟩ := h.shows other hother
    exact Subject.bounds_of_decodeAt hshows.decoded
  have hnext := hbounds (hentries ▸ List.mem_append_right before List.mem_cons_self : next ∈ entries)
  refine ⟨?_, hsize, hend ▸ Nat.le_of_lt hnext.2, hend ▸ next.offset.toNat_lt⟩
  cases hlast : before.getLast? with
  | none =>
    rw [hlast] at hstart
    exact Nat.le_of_eq hstart.symm
  | some last =>
    have hmem : last ∈ entries := by
      rw [hentries]
      exact List.mem_append_left _ (List.mem_of_getLast? hlast)
    rw [hlast] at hstart
    exact hstart ▸ Nat.le_trans (hbounds hmem).1 (Nat.le_of_lt (h.ordered.offset_lt_limit hmem))

end Listed

end Listing

namespace Listing

/-- No two visited instructions overlap, each taken with the data behind it. In an image as large as the
address space or larger, no such data goes around the end of that space either; in a smaller one it cannot. -/
structure Separate (subject : Subject) (state : Exploration) : Prop where
  disjoint : state.places.Pairwise fun first second =>
    ∀ address ∈ subject.footprint first, address ∉ subject.footprint second
  unwrapped : UInt32.size ≤ subject.image.bytes.size →
    ∀ place ∈ state.places, (subject.footprint place).Pairwise (· < ·)

theorem Separate.not_mem_footprint {first second : Root} (h : Separate subject state)
    (hfirst : first ∈ state.places) (hsecond : second ∈ state.places) (hne : first ≠ second)
    (haddress : address ∈ subject.footprint first) : address ∉ subject.footprint second := by
  have hsymm : Std.Symm fun first second : Root =>
      ∀ address ∈ subject.footprint first, address ∉ subject.footprint second :=
    ⟨fun _ _ hapart _ hsecond hfirst => hapart _ hfirst hsecond⟩
  exact h.disjoint.forall hfirst hsecond hne address haddress

/-- How the gaps of a listing lie to what was visited. A gap reaches from the end of a visited instruction,
or from the base, to the start of the next one. Where it covers a byte of a visited instruction or of its
data, the instruction that ends right before the gap begins behind the one that is covered; the one
exception is data that wrapped around to address zero. Without overlaps no gap covers code. -/
structure Gapped (subject : Subject) (state : Exploration) (found : List Block) : Prop where
  listed : blocks subject state = .ok found
  shown : ∀ layout, items layout subject state =
    .ok (found.flatMap (Block.items layout subject state))
  between : ∀ start size, .gap start size ∈ found →
    ∃ before next after, state.places = before ++ next :: after ∧ 0 < size ∧
      start + size = next.offset.toNat ∧
      start = (before.getLast?.map subject.endAt).getD subject.image.base.toNat
  nested : ∀ start size, .gap start size ∈ found → ∀ place ∈ state.places,
    ∀ address ∈ subject.footprint place, start ≤ address → address < start + size →
      address < place.offset.toNat ∨
        ∃ inner ∈ state.places, place.offset < inner.offset ∧ subject.endAt inner = start
  apart : Separate subject state → ∀ start size, .gap start size ∈ found →
    ∀ place ∈ state.places, ∀ address ∈ subject.footprint place,
      ¬(start ≤ address ∧ address < start + size)

namespace Listed

/-- The last of some entries ends where its place does. -/
theorem endAt_getLast? {before : List Entry} (h : Listed subject state entries)
    (hbefore : before ⊆ entries) :
    (before.map Entry.place).getLast?.map subject.endAt = before.getLast?.map Entry.limit := by
  rw [List.getLast?_map]
  cases hlast : before.getLast? with
  | none => rfl
  | some last =>
    obtain ⟨instruction, hshows⟩ := h.shows last (hbefore (List.mem_of_getLast? hlast))
    exact congrArg some hshows.endAt_place

theorem between (h : Listed subject state entries)
    (hgap : .gap start size ∈ blocksFrom subject.image.base.toNat entries) :
    ∃ before next after, state.places = before ++ next :: after ∧ 0 < size ∧
      start + size = next.offset.toNat ∧
      start = (before.getLast?.map subject.endAt).getD subject.image.base.toNat := by
  obtain ⟨before, after, next, rfl, hsize, hend, hstart⟩ := gap_between hgap
  refine ⟨before.map Entry.place, next.place, after.map Entry.place, ?_, hsize, hend, ?_⟩
  · rw [← h.map_place, List.map_append, List.map_cons]
  · rw [hstart, h.endAt_getLast? (List.subset_append_left _ _)]

theorem nested {place : Root} (h : Listed subject state entries)
    (hgap : .gap start size ∈ blocksFrom subject.image.base.toNat entries)
    (hplace : place ∈ state.places) (haddress : address ∈ subject.footprint place)
    (hstart : start ≤ address) (hend : address < start + size) :
    address < place.offset.toNat ∨
      ∃ inner ∈ state.places, place.offset < inner.offset ∧ subject.endAt inner = start := by
  rw [← h.map_place] at hplace ⊢
  obtain ⟨entry, hentry, rfl⟩ := List.mem_map.mp hplace
  obtain ⟨instruction, hshows⟩ := h.shows entry hentry
  by_cases hoffset : address < entry.offset.toNat
  · exact .inl hoffset
  · right
    have hlimit := hshows.lt_limit_of_mem_footprint haddress
    obtain ⟨inner, hinner, hless, hat⟩ := gap_inside h.ordered hgap hentry hstart hend
      (Nat.le_of_not_lt hoffset) hlimit
    obtain ⟨other, hother⟩ := h.shows inner hinner
    exact ⟨inner.place, List.mem_map_of_mem hinner, hless, hother.endAt_place.trans hat⟩

theorem ascends {place : Root} (h : Listed subject state entries) (hseparate : Separate subject state)
    (hplace : place ∈ state.places) : (subject.footprint place).Pairwise (· < ·) := by
  rcases Nat.lt_or_ge subject.image.bytes.size UInt32.size with hsize | hsize
  · obtain ⟨entry, -, rfl, instruction, hshows⟩ := h.exists_entry hplace
    exact hshows.ascends hsize
  · exact hseparate.unwrapped hsize place hplace

/-- Without overlaps the places of entries are separate from all gaps. -/
theorem not_mem_gap {place : Root} (h : Listed subject state entries)
    (hseparate : Separate subject state)
    (hgap : .gap start size ∈ blocksFrom subject.image.base.toNat entries)
    (hplace : place ∈ state.places) (haddress : address ∈ subject.footprint place) :
    ¬(start ≤ address ∧ address < start + size) := by
  rintro ⟨hstart, hend⟩
  obtain ⟨entry, hentry, rfl, instruction, hshows⟩ := h.exists_entry hplace
  have hoffset := hshows.offset_le_of_ascending (h.ascends hseparate hplace) haddress
  rcases h.nested hgap hplace haddress hstart hend with hbelow | ⟨inner, hinner, hless, hat⟩
  · exact Nat.lt_irrefl _ (Nat.lt_of_lt_of_le hbelow hoffset)
  · -- The inner instruction starts at an address of the outer one, so the two overlap.
    obtain ⟨other, hother, rfl, found, hfound⟩ := h.exists_entry hinner
    have hlimit := h.ordered.offset_lt_limit hother
    rw [hfound.endAt_place] at hat
    have hmem := hshows.mem_footprint_of_le haddress
      (Nat.le_of_lt (UInt32.lt_iff_toNat_lt.mp hless)) (by omega : other.offset.toNat ≤ address)
    have hne : entry.place ≠ other.place := fun heq => UInt32.lt_irrefl _ (heq ▸ hless)
    exact hseparate.not_mem_footprint hplace hinner hne hmem hfound.offset_mem_footprint

end Listed

end Listing

namespace Session

open Listing

/-- After analyses that did not fail, the gaps of a listing lie between visited instructions. Only behind an
instruction that starts inside another one and ends before it does, a gap shows code as data. -/
theorem gaps_lie_between (subject : Subject) (history : List Request)
    (herrors : (run subject history).errors = []) :
    ∃ found, Gapped subject (run subject history).state found := by
  obtain ⟨entries, hlisted⟩ := run_listed herrors
  exact ⟨_, {
    listed := hlisted.blocks_eq
    shown := hlisted.items_eq
    between := fun _ _ hgap => hlisted.between hgap
    nested := fun _ _ hgap _ hplace _ haddress => hlisted.nested hgap hplace haddress
    apart := fun hseparate _ _ hgap _ hplace _ => hlisted.not_mem_gap hseparate hgap hplace }⟩

/-- A jump back into the first instruction, where its second byte is a return. -/
def overlapping : Subject where
  image := ⟨0, ⟨#[0xB8, 0xC3, 0x00, 0x00, 0x00, 0xEB, 0xFA]⟩⟩
  cpu := .i80386
  service := none

def overlappingHistory : List Request := [.root 0 ⟨.bits32, false⟩ none, .analyze]

theorem gaps_lie_between_overlapping :
    (run overlapping overlappingHistory).errors = [] ∧
    ∃ found, Gapped overlapping (run overlapping overlappingHistory).state found :=
  have herrors : (run overlapping overlappingHistory).errors = [] := by decide +kernel
  ⟨herrors, gaps_lie_between overlapping overlappingHistory herrors⟩

/-- Gaps do cover code: here the last three bytes of the first instruction are listed as data, too. -/
theorem gap_over_code : ¬ ∀ (subject : Subject) (history : List Request),
    (run subject history).errors = [] →
      ∀ found, blocks subject (run subject history).state = .ok found →
        ∀ start size, .gap start size ∈ found → ∀ place ∈ (run subject history).state.places,
          ∀ address ∈ subject.footprint place, ¬(start ≤ address ∧ address < start + size) := by
  intro hnever
  have herrors : (run overlapping overlappingHistory).errors = [] := by decide +kernel
  have hplace : ⟨0, ⟨.bits32, false⟩⟩ ∈ (run overlapping overlappingHistory).state.places := by
    decide +kernel
  have haddress : 2 ∈ overlapping.footprint ⟨0, ⟨.bits32, false⟩⟩ := by decide +kernel
  have hgaps : (blocks overlapping (run overlapping overlappingHistory).state).toOption.map
      (List.filterMap Block.gap?) = some [(2, 3)] := by
    decide +kernel
  obtain ⟨found, hfound, hpair⟩ := exists_of_facts hgaps
  have hgap : .gap 2 3 ∈ found := by
    refine Block.mem_of_mem_gaps ?_
    rw [hpair]
    exact List.mem_cons_self
  exact hnever overlapping overlappingHistory herrors found hfound 2 3 hgap _ hplace 2 haddress
    ⟨by omega, by omega⟩

end Session

end FlowDisasm
