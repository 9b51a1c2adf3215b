import FlowDisasm.Module.FixupTable
import FlowDisasm.Proofs.Bytes.Overlay
import Mathlib.Data.List.Basic

/-!
# What relocating does

Relocating goes over pages, the records of a page and the sources of a record. Each of these steps is
told by a batch: the references that it goes over, in order, with the numbers of pages and records that
it counts. A step succeeds exactly if its streams are well formed and its references fit, and then it adds
the base at the sites of its batch. Batches of steps in a row are appended.
-/
namespace FlowDisasm.Module

open Bytes (addAt addAll)

/-- One place in a page from which a record refers to its target. -/
structure Reference where
  page : Nat
  kind : FixupKind
  source : Int16

namespace Reference

/-- Whether a reference begins on the page before and is handled there. -/
def isCrossPage (reference : Reference) : Bool := reference.source < 0

def isPatched (reference : Reference) : Bool :=
  0 ≤ reference.source && reference.kind = .offset32

/-- Whether a reference is right wherever the module is. -/
def isRelative (reference : Reference) : Bool :=
  0 ≤ reference.source && reference.kind = .relative32

/-- Where a reference is in the image, if it does not begin on the page before. -/
def site (pageSize : UInt32) (reference : Reference) : Nat :=
  reference.page * pageSize.toNat + reference.source.toInt.toNat

/-- A reference is in its page, and one that is to be patched is in the image with all its bytes. -/
structure Fits (pageSize : UInt32) (size : Nat) (reference : Reference) : Prop where
  inPage : 0 ≤ reference.source → reference.source.toInt.toNat < pageSize.toNat
  inImage : reference.isPatched → reference.site pageSize + 4 ≤ size

/-- What is wrong with a reference in an image of a size. -/
def misfit? (pageSize : UInt32) (size : Nat) (reference : Reference) : Option FixupFault :=
  let place := reference.source.toInt.toNat
  if reference.source < 0 then none
  else if pageSize.toNat ≤ place then some (.outsidePage place pageSize.toNat)
  else if reference.isPatched ∧ size < reference.site pageSize + 4 then
    some (.outsideImage (reference.site pageSize))
  else none

/-- Nothing is wrong with a reference exactly if it fits. -/
theorem misfit?_eq_none_iff {pageSize : UInt32} {size : Nat} {reference : Reference} :
    reference.misfit? pageSize size = none ↔ reference.Fits pageSize size := by
  unfold misfit?
  by_cases hcross : reference.source < 0
  · have hnot : ¬ 0 ≤ reference.source := Int16.not_le.mpr hcross
    simp only [if_pos hcross, true_iff]
    exact ⟨fun hin => absurd hin hnot, fun hpatched => by simp [isPatched, hnot] at hpatched⟩
  have hin : 0 ≤ reference.source := Int16.not_lt.mp hcross
  by_cases hpage : pageSize.toNat ≤ reference.source.toInt.toNat
  · simp only [if_neg hcross, if_pos hpage, reduceCtorEq, false_iff]
    exact fun hfits => Nat.not_lt.mpr hpage (hfits.inPage hin)
  simp only [if_neg hcross, if_neg hpage]
  constructor
  · intro h
    refine ⟨fun _ => Nat.not_le.mp hpage, fun hpatched => ?_⟩
    simpa [hpatched] using h
  · intro hfits
    rw [if_neg]
    simp only [not_and, Nat.not_lt]
    exact hfits.inImage

end Reference

namespace FixupTable

def fixups (table : FixupTable) (page : Nat) : List FixupRecord :=
  match table.recordsOf page with
  | .ok records => records
  | .error _ => []

def referencesOf (page : Nat) (record : FixupRecord) : List Reference :=
  record.sources.map fun source => ⟨page, record.kind, source⟩

/-- The references of a table in the order of pages, records and sources. -/
def references (table : FixupTable) : List Reference :=
  (List.range table.pageCount).flatMap fun page => (table.fixups page).flatMap (referencesOf page)

/-- The places where the base is added, one for each reference. -/
def sites (table : FixupTable) : List Nat :=
  (table.references.filter Reference.isPatched).map (Reference.site table.pageSize)

/-- The stream of each page is well formed and each reference fits into an image of a size. -/
structure Relocatable (table : FixupTable) (size : Nat) : Prop where
  wellFormed : ∀ page < table.pageCount, ∃ records, table.recordsOf page = .ok records
  fits : ∀ reference ∈ table.references, reference.Fits table.pageSize size

end FixupTable

namespace Relocation

variable {α β : Type}

/-- What a step does to an image, without its log. -/
def outcome (step : Step α) (relocation : Relocation) : Except Error α × Relocation :=
  (step.run.run relocation).value

theorem outcome_bind (step : Step α) (next : α → Step β) (relocation : Relocation) :
    outcome (step >>= next) relocation =
      match outcome step relocation with
      | (.ok value, after) => outcome (next value) after
      | (.error error, after) => (.error error, after) := by
  simp only [outcome, ExceptT.run_bind, StateT.run_bind, Logged.value_bind]
  rcases (step.run.run relocation).value with ⟨result, after⟩
  cases result <;> rfl

theorem outcome_pure (value : α) (relocation : Relocation) :
    outcome (pure value) relocation = (.ok value, relocation) := rfl

theorem outcome_throw (error : Error) (relocation : Relocation) :
    outcome (throw error : Step α) relocation = (.error error, relocation) := rfl

theorem outcome_note (level : Level) (text : String) (relocation : Relocation) :
    outcome (note level text) relocation = (.ok (), relocation) := rfl

theorem outcome_count (change : RelocationStats → RelocationStats) (relocation : Relocation) :
    outcome (count change) relocation =
      (.ok (), { relocation with stats := change relocation.stats }) := rfl

theorem outcome_get (relocation : Relocation) :
    outcome (get : Step Relocation) relocation = (.ok relocation, relocation) := rfl

theorem outcome_set (next relocation : Relocation) :
    outcome (set next : Step PUnit) relocation = (.ok (), next) := rfl

end Relocation

/-- The references that a step goes over, with the pages and records that it counts. -/
structure Batch where
  pages : Nat := 0
  records : Nat := 0
  references : List Reference := []

namespace Batch

def append (first second : Batch) : Batch where
  pages := first.pages + second.pages
  records := first.records + second.records
  references := first.references ++ second.references

def all (batches : List Batch) : Batch := batches.foldr append {}

def Fits (pageSize : UInt32) (size : Nat) (batch : Batch) : Prop :=
  ∀ reference ∈ batch.references, reference.Fits pageSize size

/-- What a batch makes of an image that it fits into. -/
def applied (base pageSize : UInt32) (batch : Batch) (relocation : Relocation) : Relocation where
  image := addAll base relocation.image
    ((batch.references.filter Reference.isPatched).map (Reference.site pageSize))
  stats := {
    pages := relocation.stats.pages + batch.pages
    records := relocation.stats.records + batch.records
    patched := relocation.stats.patched + batch.references.countP Reference.isPatched
    relative := relocation.stats.relative + batch.references.countP Reference.isRelative
    crossPage := relocation.stats.crossPage + batch.references.countP Reference.isCrossPage }

variable {base pageSize : UInt32} {first second batch : Batch} {relocation : Relocation} {size : Nat}

@[simp] theorem size_applied :
    (batch.applied base pageSize relocation).image.size = relocation.image.size :=
  Bytes.size_addAll

theorem applied_append : (first.append second).applied base pageSize relocation =
    second.applied base pageSize (first.applied base pageSize relocation) := by
  simp only [applied, append, List.filter_append, List.map_append, Bytes.addAll_append,
    List.countP_append, Nat.add_assoc]

theorem fits_append : (first.append second).Fits pageSize size ↔
    first.Fits pageSize size ∧ second.Fits pageSize size :=
  List.forall_mem_append

end Batch

namespace Relocation

/-- A step does what a batch says if it is possible at all and the batch fits, and else it fails. -/
structure Does (base pageSize : UInt32) (step : Step Unit) (possible : Prop) (batch : Batch) : Prop where
  done : ∀ relocation : Relocation, possible → batch.Fits pageSize relocation.image.size →
    outcome step relocation = (.ok (), batch.applied base pageSize relocation)
  refused : ∀ relocation : Relocation, ¬ (possible ∧ batch.Fits pageSize relocation.image.size) →
    ∃ error, (outcome step relocation).1 = .error error

variable {base pageSize : UInt32} {first second : Step Unit} {p q : Prop} {front back : Batch}

theorem Does.nothing : Does base pageSize (pure ()) True {} where
  done _ _ _ := rfl
  refused _ h := absurd ⟨trivial, nofun⟩ h

theorem Does.note (level : Level) (text : String) : Does base pageSize (note level text) True {} where
  done _ _ _ := rfl
  refused _ h := absurd ⟨trivial, nofun⟩ h

/-- Counting goes over no reference. -/
theorem Does.counting {change : RelocationStats → RelocationStats} {batch : Batch}
    (hnone : batch.references = [])
    (h : ∀ relocation, batch.applied base pageSize relocation =
      { relocation with stats := change relocation.stats }) :
    Does base pageSize (count change) True batch where
  done relocation _ _ := by
    rw [h]
    rfl
  refused relocation hnot := by
    refine absurd ⟨trivial, ?_⟩ hnot
    rw [Batch.Fits, hnone]
    exact List.forall_mem_nil _

theorem Does.andThen (h : Does base pageSize first p front) (h' : Does base pageSize second q back) :
    Does base pageSize (first >>= fun _ => second) (p ∧ q) (front.append back) where
  done relocation hpossible hfits := by
    obtain ⟨hfront, hback⟩ := Batch.fits_append.mp hfits
    rw [outcome_bind, h.done relocation hpossible.1 hfront, Batch.applied_append]
    exact h'.done _ hpossible.2 (by rwa [Batch.size_applied])
  refused relocation hnot := by
    rw [outcome_bind]
    by_cases hfirst : p ∧ front.Fits pageSize relocation.image.size
    · rw [h.done relocation hfirst.1 hfirst.2]
      refine h'.refused _ fun hsecond => hnot ?_
      rw [Batch.size_applied] at hsecond
      exact ⟨⟨hfirst.1, hsecond.1⟩, Batch.fits_append.mpr ⟨hfirst.2, hsecond.2⟩⟩
    · obtain ⟨error, herror⟩ := h.refused relocation hfirst
      generalize outcome first relocation = ended at herror
      obtain ⟨result, after⟩ := ended
      obtain rfl : result = .error error := herror
      exact ⟨error, rfl⟩

/-- A loop does the batches of its rounds, one after the other. -/
theorem Does.loop {ι : Type} {round : ι → Step Unit} {possible : ι → Prop} {batch : ι → Batch}
    (items : List ι) (h : ∀ item, Does base pageSize (round item) (possible item) (batch item)) :
    Does base pageSize (items.forM round) (∀ item ∈ items, possible item)
      (Batch.all (items.map batch)) := by
  induction items with
  | nil =>
    simp only [List.not_mem_nil, false_imp_iff, implies_true]
    exact .nothing
  | cons item items ih =>
    rw [List.forall_mem_cons]
    exact (h item).andThen ih

/-! ## The steps of relocation -/

def single (reference : Reference) : Batch := { references := [reference] }

variable {reference : Reference} {relocation : Relocation}

theorem patch_eq (image : Array UInt8) (site : Nat) :
    (do let word : UInt32 ← Bytes.read? image site
        Bytes.write? image site (word + base)) =
      if site + 4 ≤ image.size then some (addAt base image site) else none := by
  by_cases hfit : site + 4 ≤ image.size
  · obtain ⟨word, hword⟩ := Bytes.read?_isSome hfit
    rw [if_pos hfit, addAt, hword]
    exact if_pos hfit
  · cases hword : (Bytes.read? image site : Option UInt32) with
    | none => exact (if_neg hfit).symm
    | some word => exact absurd (Bytes.fits_of_read? hword) hfit

/-- A source is refused with the record that it stands in if its reference does not fit, and else done. -/
theorem outcome_applySource (page : Nat) (stream : List UInt8) (record : FixupRecord) (source : Int16)
    (relocation : Relocation) :
    outcome (applySource base pageSize page stream record source) relocation =
      match Reference.misfit? pageSize relocation.image.size ⟨page, record.kind, source⟩ with
      | none => (.ok (), (single ⟨page, record.kind, source⟩).applied base pageSize relocation)
      | some fault =>
        (.error (FixupRecord.failure (UInt32.ofNat page) stream record.position fault), relocation) := by
  unfold applySource Reference.misfit?
  by_cases hcross : source < 0
  · have hnot : ¬ 0 ≤ source := Int16.not_le.mpr hcross
    simp only [if_pos hcross, outcome_count]
    simp [Batch.applied, single, Reference.isCrossPage, Reference.isPatched, Reference.isRelative,
      hcross, hnot]
  by_cases hpage : pageSize.toNat ≤ source.toInt.toNat
  · simp only [if_neg hcross, if_pos hpage, outcome_throw]
  have hin : 0 ≤ source := Int16.not_lt.mp hcross
  simp only [if_neg hcross, if_neg hpage]
  cases record.kind with
  | relative32 =>
    simp only [outcome_count]
    simp [Batch.applied, single, Reference.isCrossPage, Reference.isPatched, Reference.isRelative,
      hcross, hin]
  | offset32 =>
    have hpatched : Reference.isPatched ⟨page, .offset32, source⟩ = true := by
      simp [Reference.isPatched, hin]
    simp only [outcome_bind, outcome_get, patch_eq, hpatched, true_and, Reference.site]
    by_cases hfit : page * pageSize.toNat + source.toInt.toNat + 4 ≤ relocation.image.size
    · simp only [if_pos hfit, if_neg (Nat.not_lt.mpr hfit), outcome_set]
      simp [Batch.applied, single, Reference.isCrossPage, Reference.isRelative, Reference.site,
        Bytes.addAll, hcross, hpatched]
    · simp only [if_neg hfit, if_pos (Nat.not_le.mp hfit), outcome_throw]

theorem Does.source (page : Nat) (stream : List UInt8) (record : FixupRecord) (source : Int16) :
    Does base pageSize (applySource base pageSize page stream record source) True
      (single ⟨page, record.kind, source⟩) := by
  constructor
  · intro relocation _ hfits
    have hnone := Reference.misfit?_eq_none_iff.mpr (hfits _ List.mem_cons_self)
    rw [outcome_applySource, hnone]
  · intro relocation hnot
    rw [outcome_applySource]
    cases hfault : Reference.misfit? pageSize relocation.image.size ⟨page, record.kind, source⟩ with
    | none =>
      have hfits := Reference.misfit?_eq_none_iff.mp hfault
      exact absurd ⟨trivial, List.forall_mem_singleton.mpr hfits⟩ hnot
    | some fault => exact ⟨_, rfl⟩

def recordBatch (page : Nat) (record : FixupRecord) : Batch where
  records := 1
  references := FixupTable.referencesOf page record

theorem all_single (references : List Reference) :
    Batch.all (references.map single) = { references } := by
  induction references with
  | nil => rfl
  | cons reference references ih =>
    rw [List.map_cons, Batch.all, List.foldr_cons, ← Batch.all, ih]
    rfl

theorem Does.sources (page : Nat) (stream : List UInt8) (record : FixupRecord) (sources : List Int16) :
    Does base pageSize (sources.forM (applySource base pageSize page stream record)) True
      { references := sources.map fun source => ⟨page, record.kind, source⟩ } := by
  have hloop : Does base pageSize _ _ _ := Does.loop sources
    fun source => Does.source page stream record source
  have hall : Batch.all (sources.map fun source => single ⟨page, record.kind, source⟩) =
      { references := sources.map fun source => ⟨page, record.kind, source⟩ } := by
    rw [← all_single, List.map_map]
    rfl
  simp only [hall, implies_true] at hloop
  exact hloop

theorem Does.record (page : Nat) (stream : List UInt8) (record : FixupRecord) :
    Does base pageSize (applyRecord base pageSize page stream record) True
      (recordBatch page record) := by
  have hcount : Does base pageSize
      (count fun stats => { stats with records := stats.records + 1 }) True { records := 1 } :=
    .counting rfl fun _ => rfl
  have hbody := hcount.andThen ((Does.note .trace (recordText page record)).andThen
    (Does.sources page stream record record.sources))
  simp only [and_true, Batch.append, Nat.add_zero, List.nil_append] at hbody
  exact hbody

theorem all_recordBatch (page : Nat) (records : List FixupRecord) :
    Batch.all (records.map (recordBatch page)) =
      { records := records.length, references := records.flatMap (FixupTable.referencesOf page) } := by
  induction records with
  | nil => rfl
  | cons record records ih =>
    rw [List.map_cons, Batch.all, List.foldr_cons, ← Batch.all, ih]
    simp only [Batch.append, recordBatch, List.length_cons, List.flatMap_cons, Nat.add_zero,
      Nat.add_comm 1]

theorem Does.records (page : Nat) (stream : List UInt8) (records : List FixupRecord) :
    Does base pageSize (records.forM (applyRecord base pageSize page stream)) True
      { records := records.length, references := records.flatMap (FixupTable.referencesOf page) } := by
  have hloop : Does base pageSize _ _ _ := Does.loop records
    fun record => Does.record page stream record
  simp only [all_recordBatch, implies_true] at hloop
  exact hloop

def pageBatch (table : FixupTable) (page : Nat) : Batch where
  pages := if (table.pageRecords page).isEmpty then 0 else 1
  records := (table.fixups page).length
  references := (table.fixups page).flatMap (FixupTable.referencesOf page)

theorem Does.page (table : FixupTable) (page : Nat) :
    Does base table.pageSize (applyPage table base page)
      (∃ records, table.recordsOf page = .ok records) (pageBatch table page) := by
  unfold applyPage
  by_cases hstream : (table.pageRecords page).isEmpty
  · have hrecords : table.recordsOf page = .ok [] := by
      rw [FixupTable.recordsOf, List.isEmpty_iff.mp hstream]
      rfl
    have hbatch : pageBatch table page = {} := by
      simp [pageBatch, hstream, FixupTable.fixups, hrecords]
    have hpossible : (∃ records, table.recordsOf page = .ok records) = True :=
      eq_true ⟨[], hrecords⟩
    rw [hbatch, hpossible]
    simp only [hstream, Bool.not_true, Bool.false_eq_true, if_false]
    exact .nothing
  simp only [hstream, Bool.not_false, if_true]
  cases hrecords : table.recordsOf page with
  | error error =>
    have hread : FixupRecord.readAll (UInt32.ofNat page) (table.pageRecords page) = .error error :=
      hrecords
    refine ⟨fun relocation hpossible => ?_, fun relocation _ => ⟨error, ?_⟩⟩
    · obtain ⟨records, h⟩ := hpossible
      cases h
    · rw [hread]
      rfl
  | ok records =>
    have hread : FixupRecord.readAll (UInt32.ofNat page) (table.pageRecords page) = .ok records :=
      hrecords
    have hcount : Does base table.pageSize
        (count fun stats => { stats with pages := stats.pages + 1 }) True { pages := 1 } :=
      .counting rfl fun _ => rfl
    have hloop := hcount.andThen (Does.records page (table.pageRecords page) records)
    have hbatch : pageBatch table page = Batch.append { pages := 1 }
        { records := records.length
          references := records.flatMap (FixupTable.referencesOf page) } := by
      simp [pageBatch, hstream, FixupTable.fixups, hrecords, Batch.append]
    rw [and_true] at hloop
    rw [hread, hbatch, eq_true (⟨records, rfl⟩ : ∃ found, Except.ok records = .ok found)]
    exact hloop

def tableBatch (table : FixupTable) : Batch :=
  Batch.all ((List.range table.pageCount).map (pageBatch table))

theorem all_pageBatch (table : FixupTable) (pages : List Nat) :
    Batch.all (pages.map (pageBatch table)) = {
      pages := pages.countP fun page => !(table.pageRecords page).isEmpty
      records := (pages.flatMap table.fixups).length
      references := pages.flatMap fun page =>
        (table.fixups page).flatMap (FixupTable.referencesOf page) } := by
  induction pages with
  | nil => rfl
  | cons page pages ih =>
    rw [List.map_cons, Batch.all, List.foldr_cons, ← Batch.all, ih]
    cases hstream : (table.pageRecords page).isEmpty <;>
      simp [Batch.append, pageBatch, hstream, Nat.add_comm 1]

theorem Does.pages (base : UInt32) (table : FixupTable) : Does base table.pageSize
    ((List.range table.pageCount).forM (applyPage table base))
    (∀ page ∈ List.range table.pageCount, ∃ records, table.recordsOf page = .ok records)
    (tableBatch table) :=
  Does.loop _ (Does.page table)

/-- Behind its pages a relocation only tells what it counted. -/
theorem outcome_applyAll (base : UInt32) (table : FixupTable) (relocation : Relocation) :
    outcome (applyAll table base) relocation =
      match outcome ((List.range table.pageCount).forM (applyPage table base)) relocation with
      | (.ok _, after) => (.ok after.stats, after)
      | (.error error, after) => (.error error, after) := by
  simp only [applyAll, outcome_bind, outcome_get, outcome_note, outcome_pure]
  rcases outcome ((List.range table.pageCount).forM (applyPage table base)) relocation with
    ⟨result, after⟩
  cases result <;> rfl

theorem possible_and_fits_iff (table : FixupTable) (size : Nat) :
    ((∀ page ∈ List.range table.pageCount, ∃ records, table.recordsOf page = .ok records) ∧
      (tableBatch table).Fits table.pageSize size) ↔ table.Relocatable size := by
  have hreferences : (tableBatch table).references = table.references := by
    rw [tableBatch, all_pageBatch]
    rfl
  rw [Batch.Fits, hreferences]
  constructor
  · rintro ⟨hpossible, hfits⟩
    exact ⟨fun page hpage => hpossible page (List.mem_range.mpr hpage), hfits⟩
  · rintro ⟨hwell, hfits⟩
    exact ⟨fun page hpage => hwell page (List.mem_range.mp hpage), hfits⟩

end Relocation

namespace FixupTable

open Relocation

/-- What a relocation of a table counts. -/
def stats (table : FixupTable) : RelocationStats where
  pages := (List.range table.pageCount).countP fun page => !(table.pageRecords page).isEmpty
  records := ((List.range table.pageCount).flatMap table.fixups).length
  patched := table.references.countP Reference.isPatched
  relative := table.references.countP Reference.isRelative
  crossPage := table.references.countP Reference.isCrossPage

variable {table : FixupTable} {image : Array UInt8} {base : UInt32}

theorem relocate_value (table : FixupTable) (image : Array UInt8) (base : UInt32) :
    (table.relocate image base).value =
      ((outcome (applyAll table base) { image }).1, (outcome (applyAll table base) { image }).2.image) :=
  rfl

theorem relocate_of_relocatable (h : table.Relocatable image.size) :
    (table.relocate image base).value = (.ok table.stats, addAll base image table.sites) := by
  obtain ⟨hpossible, hfits⟩ := (possible_and_fits_iff table image.size).mpr h
  have hpages := (Does.pages base table).done { image } hpossible hfits
  have hbatch : (tableBatch table).applied base table.pageSize { image } =
      ⟨addAll base image table.sites, table.stats⟩ := by
    rw [tableBatch, all_pageBatch]
    simp only [Batch.applied, Nat.zero_add]
    rfl
  rw [hbatch] at hpages
  rw [relocate_value, outcome_applyAll, hpages]

theorem relocate_of_not_relocatable (base : UInt32) (h : ¬ table.Relocatable image.size) :
    ∃ error, (table.relocate image base).value.1 = .error error := by
  have hnot := (possible_and_fits_iff table image.size).not.mpr h
  obtain ⟨error, herror⟩ := (Does.pages base table).refused { image } hnot
  refine ⟨error, ?_⟩
  rw [relocate_value, outcome_applyAll]
  generalize outcome ((List.range table.pageCount).forM (applyPage table base)) { image } = ended
    at herror
  obtain ⟨result, after⟩ := ended
  obtain rfl : result = .error error := herror
  rfl

theorem relocatable_of_ok {stats : RelocationStats}
    (h : (table.relocate image base).value.1 = .ok stats) : table.Relocatable image.size := by
  by_contra hnot
  obtain ⟨error, herror⟩ := relocate_of_not_relocatable base hnot
  rw [h] at herror
  cases herror

theorem fits_of_mem_sites {site : Nat} (h : table.Relocatable image.size) (hsite : site ∈ table.sites) :
    site + 4 ≤ image.size := by
  obtain ⟨reference, hreference, rfl⟩ := List.mem_map.mp hsite
  obtain ⟨hmem, hpatched⟩ := List.mem_filter.mp hreference
  exact (h.fits reference hmem).inImage hpatched

/-- Relocating succeeds exactly if all streams are well formed and all references fit. Then the size
stays, every byte stays that belongs to no site, the word at a site that overlaps no other site had the
base added once, and the numbers are those of the references. References that begin on the page before
and relative ones are at no site, so they change nothing. -/
theorem relocate_exact (table : FixupTable) (image : Array UInt8) (base : UInt32) :
    let relocated := (table.relocate image base).value
    ((∃ stats, relocated.1 = .ok stats) ↔ table.Relocatable image.size) ∧
    ∀ stats, relocated.1 = .ok stats →
      relocated.2.size = image.size ∧
      (∀ index, (∀ site ∈ table.sites, index < site ∨ site + 4 ≤ index) →
        relocated.2[index]? = image[index]?) ∧
      (∀ before site after, table.sites = before ++ site :: after →
        (∀ other ∈ before ++ after, site + 4 ≤ other ∨ other + 4 ≤ site) →
        ∃ word : UInt32, Bytes.read? image site = some word ∧
          Bytes.read? relocated.2 site = some (word + base)) ∧
      stats = table.stats := by
  intro relocated
  have hdone (h : table.Relocatable image.size) :
      relocated = (.ok table.stats, addAll base image table.sites) := relocate_of_relocatable h
  constructor
  · constructor
    · rintro ⟨stats, hstats⟩
      exact relocatable_of_ok hstats
    · intro h
      exact ⟨table.stats, by rw [hdone h]⟩
  · intro stats hstats
    have hrelocatable := relocatable_of_ok hstats
    rw [hdone hrelocatable] at hstats ⊢
    refine ⟨Bytes.size_addAll, fun index hout => Bytes.getElem?_addAll hout, ?_,
      (Except.ok.inj hstats).symm⟩
    intro before site after hsites hapart
    have hmem : site ∈ table.sites := by
      rw [hsites]
      exact List.mem_append_right _ List.mem_cons_self
    obtain ⟨word, hword⟩ := Bytes.read?_isSome (fits_of_mem_sites hrelocatable hmem)
    exact ⟨word, hword, by rw [hsites]; exact Bytes.read?_addAll hword hapart⟩

/-- Two pages of eight bytes: the second has a list of sources, the first of which begins on the page
before. -/
example :
    let table : FixupTable := {
      pageOffsets := #[0, 0, 10]
      records := #[0x27, 0x00, 2, 1, 0, 0, 0xFE, 0xFF, 0x04, 0x00]
      pageSize := 8 }
    let image := Array.replicate 12 0xC3 ++ #[0x10, 0, 0, 0xFF]
    let relocated := (table.relocate image 0x01000001).value
    relocated.1.toOption = some { pages := 1, records := 1, patched := 1, crossPage := 1 } ∧
      relocated.2 = Array.replicate 12 0xC3 ++ #[0x11, 0, 0, 0] := by
  decide +kernel

end FixupTable

end FlowDisasm.Module
