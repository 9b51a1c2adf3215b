import FlowDisasm.Proofs.Module.FixupPages
import FlowDisasm.Proofs.Module.Rebasing

/-!
# What a refused relocation leaves

A relocation stops at the first page whose stream is not well formed or at the first reference that does not fit. Each
loop fails in one round, after the rounds in front of it were done, so the image has the base added for all references
in front of that place and for no other one. The records of a page are read before any of them is applied: a stream
that is not well formed changes nothing for its page.
-/
namespace FlowDisasm

open FlowDisasm.Module

namespace Module

theorem FixupRecord.readAll_eq_error {page : UInt32} {stream : List UInt8} {error : Error}
    (h : readAll page stream = .error error) :
    ∃ position fault, error = failure page stream position fault := by
  unfold readAll at h
  split at h
  · cases h
  · exact ⟨_, _, (Except.error.inj h).symm⟩

namespace WrittenRecord

theorem le_position {position : Nat} {written : List WrittenRecord} {record : FixupRecord}
    (h : record ∈ recordsFrom position written) : position ≤ record.position := by
  induction written generalizing position with
  | nil => cases h
  | cons first rest ih =>
    rcases List.mem_cons.mp h with rfl | hrest
    · exact Nat.le_refl _
    · exact (Nat.le_add_right _ _).trans (ih hrest)

theorem positions_ascend (position : Nat) (written : List WrittenRecord) :
    (recordsFrom position written).Pairwise fun record later => record.position < later.position := by
  induction written generalizing position with
  | nil => exact .nil
  | cons first rest ih =>
    refine List.pairwise_cons.mpr ⟨fun later hlater => ?_, ih _⟩
    exact (Nat.lt_add_of_pos_right first.length_bytes_pos).trans_le (le_position hlater)

end WrittenRecord

namespace Relocation

variable {base pageSize : UInt32} {relocation after : Relocation} {error : Error}

/-- The places where the base is added for some references. -/
def patchedSites (pageSize : UInt32) (references : List Reference) : List Nat :=
  (references.filter Reference.isPatched).map (Reference.site pageSize)

/-- What references leave of an image that all of them fit into. -/
structure Leaves (base pageSize : UInt32) (references : List Reference) (image left : Array UInt8) :
    Prop where
  fits : ∀ reference ∈ references, reference.Fits pageSize image.size
  left_eq : left = Bytes.addAll base image (patchedSites pageSize references)

theorem Leaves.nothing (image : Array UInt8) : Leaves base pageSize [] image image :=
  ⟨nofun, rfl⟩

theorem Leaves.append {front back : List Reference} {image mid left : Array UInt8}
    (h : Leaves base pageSize front image mid) (h' : Leaves base pageSize back mid left) :
    Leaves base pageSize (front ++ back) image left := by
  obtain ⟨hfront, rfl⟩ := h
  obtain ⟨hback, rfl⟩ := h'
  rw [Bytes.size_addAll] at hback
  refine ⟨List.forall_mem_append.mpr ⟨hfront, hback⟩, ?_⟩
  simp only [patchedSites, List.filter_append, List.map_append, Bytes.addAll_append]

/-- A step that succeeds was possible and has gone over all references of its batch. -/
theorem Does.of_ok {step : Step Unit} {possible : Prop} {batch : Batch}
    (hdoes : Does base pageSize step possible batch)
    (h : outcome step relocation = (.ok (), after)) :
    possible ∧ Leaves base pageSize batch.references relocation.image after.image := by
  obtain ⟨hpossible, hfits⟩ : possible ∧ batch.Fits pageSize relocation.image.size := by
    by_contra hnot
    obtain ⟨error, herror⟩ := hdoes.refused relocation hnot
    rw [h] at herror
    cases herror
  have hdone := hdoes.done relocation hpossible hfits
  rw [h] at hdone
  obtain rfl := (Prod.mk.inj hdone).2
  exact ⟨hpossible, hfits, rfl⟩

/-- A loop fails in the round of one item, after the rounds of all items in front of it. -/
theorem outcome_forM_error {ι : Type} {round : ι → Step Unit} {items : List ι}
    (h : outcome (items.forM round) relocation = (.error error, after)) :
    ∃ front item back between, items = front ++ item :: back ∧
      outcome (front.forM round) relocation = (.ok (), between) ∧
      outcome (round item) between = (.error error, after) := by
  induction items generalizing relocation with
  | nil => cases h
  | cons first rest ih =>
    change outcome (round first >>= fun _ => rest.forM round) relocation = _ at h
    rw [outcome_bind] at h
    rcases hround : outcome (round first) relocation with ⟨result, between⟩
    rw [hround] at h
    cases result with
    | error failure => exact ⟨[], first, rest, relocation, rfl, rfl, hround.trans h⟩
    | ok value =>
      obtain ⟨front, item, back, last, rfl, hfront, hitem⟩ := ih h
      refine ⟨first :: front, item, back, last, rfl, ?_, hitem⟩
      change outcome (round first >>= fun _ => front.forM round) relocation = _
      rw [outcome_bind, hround]
      exact hfront

variable {page : Nat} {stream : List UInt8} {record : FixupRecord} {source : Int16}

theorem outcome_applySource_error
    (h : outcome (applySource base pageSize page stream record source) relocation =
      (.error error, after)) :
    after = relocation ∧
      ∃ fault, Reference.misfit? pageSize relocation.image.size ⟨page, record.kind, source⟩ =
          some fault ∧
        error = FixupRecord.failure (UInt32.ofNat page) stream record.position fault := by
  rw [outcome_applySource] at h
  cases hfault : Reference.misfit? pageSize relocation.image.size ⟨page, record.kind, source⟩ with
  | none =>
    rw [hfault] at h
    cases h
  | some fault =>
    rw [hfault] at h
    cases h
    exact ⟨rfl, fault, rfl, rfl⟩

/-- A record fails at one of its sources, and all sources in front of it were gone over. -/
theorem outcome_applyRecord_error
    (h : outcome (applyRecord base pageSize page stream record) relocation = (.error error, after)) :
    ∃ front source back fault, record.sources = front ++ source :: back ∧
      Reference.misfit? pageSize relocation.image.size ⟨page, record.kind, source⟩ = some fault ∧
      error = FixupRecord.failure (UInt32.ofNat page) stream record.position fault ∧
      Leaves base pageSize (front.map fun source => ⟨page, record.kind, source⟩) relocation.image
        after.image := by
  unfold applyRecord at h
  simp only [outcome_bind, outcome_count, outcome_note] at h
  obtain ⟨front, source, back, between, hsources, hfront, hsource⟩ := outcome_forM_error h
  obtain ⟨-, hleaves⟩ := (Does.sources page stream record front).of_ok hfront
  obtain ⟨rfl, fault, hfault, rfl⟩ := outcome_applySource_error hsource
  refine ⟨front, source, back, fault, hsources, ?_, rfl, hleaves⟩
  rwa [hleaves.left_eq, Bytes.size_addAll] at hfault

end Relocation

namespace FixupTable

open Relocation

variable {table : FixupTable}

def referencesBefore (table : FixupTable) (page : Nat) : List Reference :=
  (List.range page).flatMap fun page => (table.fixups page).flatMap (referencesOf page)

/-- How a page stops the relocation of an image of a size: the position of the record with the fault, and the
references of the page that come before the fault. A stream that is not well formed has none. -/
inductive StopsAt (table : FixupTable) (size page : Nat) : Nat → FixupFault → List Reference → Prop
  | malformed {position : Nat} {fault : FixupFault}
      (stream : table.recordsOf page = .error
        (FixupRecord.failure (UInt32.ofNat page) (table.pageRecords page) position fault)) :
      StopsAt table size page position fault []
  | misfit {front back : List FixupRecord} {record : FixupRecord} {done rest : List Int16}
      {source : Int16} {fault : FixupFault}
      (stream : table.recordsOf page = .ok (front ++ record :: back))
      (earlier : ∀ other ∈ front, other.position < record.position)
      (later : ∀ other ∈ back, record.position < other.position)
      (sources : record.sources = done ++ source :: rest)
      (misfit : Reference.misfit? table.pageSize size ⟨page, record.kind, source⟩ = some fault) :
      StopsAt table size page record.position fault
        (front.flatMap (referencesOf page) ++ done.map fun source => ⟨page, record.kind, source⟩)

/-- The records of a page are in the order of their positions. -/
theorem positions_of_records {page : Nat} {front back : List FixupRecord} {record : FixupRecord}
    (h : table.recordsOf page = .ok (front ++ record :: back)) :
    (∀ other ∈ front, other.position < record.position) ∧
      ∀ other ∈ back, record.position < other.position := by
  obtain ⟨written, -, hwritten⟩ :=
    ((FixupRecord.readAll_exact (UInt32.ofNat page) (table.pageRecords page)).1 _).mp h
  have hascend := WrittenRecord.positions_ascend 0 written
  rw [← hwritten, List.pairwise_append, List.pairwise_cons] at hascend
  obtain ⟨-, ⟨hback, -⟩, hfront⟩ := hascend
  exact ⟨fun other hother => hfront other hother record List.mem_cons_self, hback⟩

variable {base : UInt32} {relocation after : Relocation} {error : Error} {page : Nat}

theorem outcome_applyPage_error
    (h : outcome (applyPage table base page) relocation = (.error error, after)) :
    ∃ position fault gone,
      error = FixupRecord.failure (UInt32.ofNat page) (table.pageRecords page) position fault ∧
      table.StopsAt relocation.image.size page position fault gone ∧
      Leaves base table.pageSize gone relocation.image after.image := by
  unfold applyPage at h
  by_cases hstream : (table.pageRecords page).isEmpty
  · simp only [hstream, Bool.not_true, Bool.false_eq_true, if_false] at h
    cases h
  simp only [hstream, Bool.not_false, if_true, outcome_bind, outcome_count] at h
  have hread : FixupRecord.readAll (UInt32.ofNat page) (table.pageRecords page) =
      table.recordsOf page := rfl
  rw [hread] at h
  cases hrecords : table.recordsOf page with
  | error failure =>
    rw [hrecords] at h
    cases h
    obtain ⟨position, fault, rfl⟩ := FixupRecord.readAll_eq_error hrecords
    exact ⟨position, fault, [], rfl, .malformed hrecords, .nothing _⟩
  | ok records =>
    rw [hrecords] at h
    obtain ⟨front, record, back, between, rfl, hfront, hrecord⟩ := outcome_forM_error h
    obtain ⟨-, hgone⟩ :=
      (Does.records page (table.pageRecords page) front).of_ok hfront
    obtain ⟨done, source, rest, fault, hsources, hfault, rfl, hdone⟩ :=
      outcome_applyRecord_error hrecord
    rw [hgone.left_eq, Bytes.size_addAll] at hfault
    obtain ⟨hearlier, hlater⟩ := positions_of_records hrecords
    exact ⟨record.position, fault, _, rfl, .misfit hrecords hearlier hlater hsources hfault,
      hgone.append hdone⟩

/-- The numbers in front of a number are those below it. -/
theorem front_of_range {count number : Nat} {front back : List Nat}
    (h : List.range count = front ++ number :: back) : front = List.range number ∧ number < count := by
  have hlength : (List.range count)[front.length]? = some number := by
    rw [h, List.getElem?_append_right (Nat.le_refl _), Nat.sub_self]
    rfl
  obtain ⟨hfront, hat⟩ := List.getElem?_eq_some_iff.mp hlength
  rw [List.getElem_range] at hat
  rw [List.length_range] at hfront
  refine ⟨?_, hat ▸ hfront⟩
  have htake := congrArg (List.take front.length) h
  rw [List.take_left, List.take_range, Nat.min_eq_left hfront.le] at htake
  rw [← htake, hat]

theorem outcome_applyAll_error
    (h : outcome (applyAll table base) relocation = (.error error, after)) :
    ∃ page < table.pageCount, ∃ position fault gone,
      error = FixupRecord.failure (UInt32.ofNat page) (table.pageRecords page) position fault ∧
      (∀ earlier < page, ∃ records, table.recordsOf earlier = .ok records) ∧
      table.StopsAt relocation.image.size page position fault gone ∧
      Leaves base table.pageSize (table.referencesBefore page ++ gone) relocation.image
        after.image := by
  have hloop : outcome ((List.range table.pageCount).forM (applyPage table base)) relocation =
      (.error error, after) := by
    rw [outcome_applyAll] at h
    split at h
    · cases h
    · rename_i hfailed
      cases h
      exact hfailed
  obtain ⟨front, page, back, between, hpages, hfront, hpage⟩ := outcome_forM_error hloop
  obtain ⟨rfl, hcount⟩ := front_of_range hpages
  obtain ⟨hearlier, hbefore⟩ := (Does.loop _ (Does.page table)).of_ok hfront
  rw [all_pageBatch] at hbefore
  obtain ⟨position, fault, gone, rfl, hstops, hgone⟩ := outcome_applyPage_error hpage
  rw [hbefore.left_eq, Bytes.size_addAll] at hstops
  exact ⟨page, hcount, position, fault, gone, rfl,
    fun earlier hlt => hearlier earlier (List.mem_range.mpr hlt), hstops, hbefore.append hgone⟩

end FixupTable

end Module

/-- A file whose own pages cannot be relocated is never loaded. -/
theorem Executable.parse_of_refused {file : Array UInt8} {headerOffset : UInt32}
    {header : LinearHeader} {table : FixupTable} {base : UInt32} {error : Error}
    (hnext : DosHeader.nextHeader file = .ok headerOffset)
    (hlinear : hasLinearHeader file headerOffset.toNat = true)
    (hheader : LinearHeader.read file headerOffset.toNat = .ok header)
    (htable : FixupTable.read file headerOffset header = .ok table)
    (h : (table.relocate (file.extract header.contents.dataPages.toNat file.size) base).value.1 =
      .error error) (other : UInt32) :
    ∃ failure, (parse file other).value = .error failure := by
  rw [value_parse]
  cases hread : Outline.read file with
  | error failure => exact ⟨failure, rfl⟩
  | ok outline =>
    rw [ok_bind]
    rcases Outline.read_eq_ok hread with ⟨found, rfl, hsound⟩ | ⟨dos, _, rfl, -, -, hsame, hnone⟩
    · obtain rfl : headerOffset = found.headerOffset :=
        Except.ok.inj (hnext.symm.trans hsound.headerOffset)
      obtain rfl : header = found.header := Except.ok.inj (hheader.symm.trans hsound.header)
      obtain rfl : table = found.fixups := Except.ok.inj (htable.symm.trans hsound.fixups)
      have hother := (found.fixups.relocate_result_eq (found.pages file) other base).trans h
      exact ⟨error, LinearOutline.load_of_error hother⟩
    · obtain rfl := Except.ok.inj (hnext.symm.trans hsame)
      rw [hlinear] at hnone
      cases hnone

/-- A relocation that is refused tells the page and the position of the record that stopped it. What it leaves is the
image with the base added for the references of all pages before, and, if the stream of the page is well formed, for
those of the records before and of the sources before in the record itself, and for nothing else. All of these
fitted. A file with such a table, pages and base is loaded to no base. -/
theorem Module.FixupTable.relocate_refused {file : Array UInt8} {headerOffset : UInt32}
    {header : LinearHeader} {table : FixupTable}
    (hread : FixupTable.read file headerOffset header = .ok table) :
    (∀ (image : Array UInt8) (base : UInt32) (error : Error),
      (table.relocate image base).value.1 = .error error →
      ∃ (page : UInt32) (position : Nat) (fault : FixupFault) (gone : List Reference),
        error = .fixup page position fault (((table.pageRecords page.toNat).drop position).take 16) ∧
        page.toNat < table.pageCount ∧
        (∀ earlier < page.toNat, ∃ records, table.recordsOf earlier = .ok records) ∧
        table.StopsAt image.size page.toNat position fault gone ∧
        Relocation.Leaves base table.pageSize (table.referencesBefore page.toNat ++ gone) image
          (table.relocate image base).value.2) ∧
    (DosHeader.nextHeader file = .ok headerOffset →
      Executable.hasLinearHeader file headerOffset.toNat = true →
      LinearHeader.read file headerOffset.toNat = .ok header →
      ∀ (base : UInt32) (error : Error),
        (table.relocate (file.extract header.contents.dataPages.toNat file.size) base).value.1 =
          .error error →
        ∀ other, ∃ failure, (Executable.parse file other).value = .error failure) := by
  constructor
  · intro image base error herror
    rw [relocate_value] at herror ⊢
    rcases hended : Relocation.outcome (Relocation.applyAll table base) { image } with ⟨result, after⟩
    rw [hended] at herror
    obtain rfl : result = .error error := herror
    obtain ⟨page, hpage, position, fault, gone, rfl, hearlier, hstops, hleaves⟩ :=
      outcome_applyAll_error hended
    -- A table has no more pages than a header can tell, so the error names the page itself.
    have hnumber : (UInt32.ofNat page).toNat = page := by
      obtain ⟨hcut, -⟩ := read_eq_ok hread
      rw [hcut.pageCount_eq] at hpage
      exact UInt32.toNat_ofNat_of_lt (hpage.trans (UInt32.toNat_lt _))
    refine ⟨UInt32.ofNat page, position, fault, gone, ?_⟩
    rw [hnumber]
    exact ⟨rfl, hpage, hearlier, hstops, hleaves⟩
  · intro hnext hlinear hheader base error herror other
    exact Executable.parse_of_refused hnext hlinear hheader hread herror other

/-- A module of two pages of eight bytes, the second of which is cut short. A list of sources refers to it from its
first byte and from its seventh, where no word is left. -/
def Module.overhangingModule : Array UInt8 :=
  let fields : List (Nat × List UInt8) := [
    (0, [0x4D, 0x5A]), (0x3C, [0x40]), (0x40, [0x4C, 0x45]), (0x54, [2]), (0x58, [1]), (0x5C, [2]),
    (0x68, [8]), (0x80, [196]), (0x84, [1]), (0xA8, [220]), (0xAC, [232]), (0xC0, [0x3C, 0x01]),
    (0x108, [0x10]), (0x120, [7]), (0x124, [17]), (0x128, [0x07, 0x00, 0x01, 0x00, 0x01]),
    (0x12F, [0x27, 0x00, 0x02, 0x01, 0x00, 0x00, 0x00, 0x00, 0x06, 0x00])]
  fields.foldl (fun file field => Bytes.overlay file field.1 field.2) (Array.replicate 0x148 0)

theorem Module.FixupTable.relocate_refused_overhanging :
    ∃ header table, LinearHeader.read overhangingModule 0x40 = .ok header ∧
      FixupTable.read overhangingModule 0x40 header = .ok table ∧
      (∃ gone, table.StopsAt 12 1 0 (.outsideImage 14) gone ∧
        Relocation.Leaves 0x01000000 table.pageSize (table.referencesBefore 1 ++ gone)
          (Array.replicate 12 0) #[0, 0, 0, 0, 0x01, 0, 0, 0, 0, 0, 0, 0x01]) ∧
      ∀ base, ∃ failure, (Executable.parse overhangingModule base).value = .error failure := by
  have hrun : ((LinearHeader.read overhangingModule 0x40).bind fun header =>
      (FixupTable.read overhangingModule 0x40 header).map fun table =>
        (overhangingModule.extract header.contents.dataPages.toNat overhangingModule.size,
          (table.relocate
            (overhangingModule.extract header.contents.dataPages.toNat overhangingModule.size)
              0x01000000).value)) =
      .ok (Array.replicate 12 0,
        .error (.fixup 1 0 (.outsideImage 14) [0x27, 0, 2, 1, 0, 0, 0, 0, 6, 0]),
        #[0, 0, 0, 0, 0x01, 0, 0, 0, 0, 0, 0, 0x01]) := by
    decide +kernel
  cases hheader : LinearHeader.read overhangingModule 0x40 with
  | error error =>
    rw [hheader] at hrun
    cases hrun
  | ok header =>
    rw [hheader] at hrun
    dsimp only [Except.bind] at hrun
    cases hread : FixupTable.read overhangingModule 0x40 header with
    | error error =>
      rw [hread] at hrun
      cases hrun
    | ok table =>
      rw [hread] at hrun
      obtain ⟨hpages, hrelocated⟩ := Prod.mk.inj (Except.ok.inj hrun)
      obtain ⟨hstops, hloads⟩ := FixupTable.relocate_refused hread
      refine ⟨header, table, rfl, hread, ?_, ?_⟩
      · rw [hpages] at hrelocated
        obtain ⟨page, position, fault, gone, herror, -, -, hstops, hleaves⟩ :=
          hstops (Array.replicate 12 0) 0x01000000 _ (congrArg Prod.fst hrelocated)
        rw [hrelocated] at hleaves
        obtain ⟨rfl, rfl, rfl, -⟩ := Error.fixup.inj herror
        exact ⟨gone, hstops, hleaves⟩
      · exact hloads (by decide +kernel) (by decide +kernel) hheader 0x01000000 _
          (congrArg Prod.fst hrelocated)

end FlowDisasm
