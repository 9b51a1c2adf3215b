import FlowDisasm.Proofs.Module.Loading

/-!
# Loading to another base

Two relocations of one image to different bases go in lockstep: at every step they look at the same reference of the
same record, and what decides whether it can be applied is the size of the image and not its bytes. So they end in
the same way, with the same numbers. What they leave differs at the patched words alone, by the difference of the
bases, and so do all addresses that a loaded module tells.
-/
namespace FlowDisasm

open FlowDisasm.Module

namespace Module.Relocation

variable {α β ι : Type}

/-- Relocations of images of one size that count the same. -/
structure Abreast (first second : Relocation) : Prop where
  size : first.image.size = second.image.size
  stats : first.stats = second.stats

/-- Two steps end in the same way wherever they start abreast, and are abreast then. -/
def Lockstep (first second : Step α) : Prop :=
  ∀ relocation other, Abreast relocation other →
    (outcome first relocation).1 = (outcome second other).1 ∧
      Abreast (outcome first relocation).2 (outcome second other).2

namespace Lockstep

variable {first second : Step α} {next following : α → Step β}

theorem pure (value : α) : Lockstep (pure value) (pure value) :=
  fun _ _ h => ⟨rfl, h⟩

theorem throw (error : Error) : Lockstep (throw error : Step α) (throw error) :=
  fun _ _ h => ⟨rfl, h⟩

theorem note (level : Level) (text : String) : Lockstep (note level text) (note level text) :=
  fun _ _ h => ⟨rfl, h⟩

theorem count (change : RelocationStats → RelocationStats) :
    Lockstep (count change) (count change) :=
  fun _ _ h => ⟨rfl, h.size, congrArg change h.stats⟩

theorem bind (h : Lockstep first second) (hnext : ∀ value, Lockstep (next value) (following value)) :
    Lockstep (first >>= next) (second >>= following) := by
  intro relocation other habreast
  have hfirst := h relocation other habreast
  simp only [outcome_bind]
  generalize outcome first relocation = ended at hfirst
  generalize outcome second other = ended' at hfirst
  obtain ⟨result, after⟩ := ended
  obtain ⟨result', after'⟩ := ended'
  obtain ⟨rfl, hafter⟩ := hfirst
  cases result with
  | error error => exact ⟨rfl, hafter⟩
  | ok value => exact hnext value after after' hafter

theorem loop {round round' : ι → Step Unit} (items : List ι)
    (h : ∀ item, Lockstep (round item) (round' item)) :
    Lockstep (items.forM round) (items.forM round') := by
  induction items with
  | nil => exact pure ()
  | cons item items ih => exact (h item).bind fun _ => ih

variable {base other pageSize : UInt32} {page : Nat} {stream : List UInt8} {record : FixupRecord}

/-- Whether a reference can be applied is a matter of the size of the image, and not of what is added to which
words. -/
theorem applySource (source : Int16) :
    Lockstep (applySource base pageSize page stream record source)
      (applySource other pageSize page stream record source) := by
  intro relocation relocation' h
  rw [outcome_applySource, outcome_applySource, ← h.size]
  cases Reference.misfit? pageSize relocation.image.size ⟨page, record.kind, source⟩ with
  | none =>
    refine ⟨rfl, ?_, ?_⟩
    · rw [Batch.size_applied, Batch.size_applied, h.size]
    · simp only [Batch.applied, h.stats]
  | some fault => exact ⟨rfl, h⟩

theorem applyRecord : Lockstep (applyRecord base pageSize page stream record)
    (applyRecord other pageSize page stream record) :=
  (count _).bind fun _ => (note _ _).bind fun _ => loop _ applySource

theorem applyPage (table : FixupTable) (page : Nat) :
    Lockstep (applyPage table base page) (applyPage table other page) := by
  unfold Relocation.applyPage
  by_cases hstream : (table.pageRecords page).isEmpty = true
  · simp only [hstream, Bool.not_true, Bool.false_eq_true, if_false]
    exact pure ()
  simp only [hstream, Bool.not_false, if_true]
  refine (count _).bind fun _ => bind ?_ fun records => loop _ fun record => applyRecord
  cases FixupRecord.readAll (UInt32.ofNat page) (table.pageRecords page) with
  | error error => exact throw error
  | ok records => exact pure records

theorem applyAll (table : FixupTable) : Lockstep (applyAll table base) (applyAll table other) := by
  refine (loop _ (applyPage table)).bind fun _ => ?_
  intro relocation relocation' h
  simp only [outcome_bind, outcome_get, outcome_note, outcome_pure]
  exact ⟨congrArg Except.ok h.stats, h⟩

end Lockstep

end Module.Relocation

/-- A relocation of another image of the same size, to any base, ends in the same way, with the same numbers or the
same error. -/
theorem Module.FixupTable.relocate_result_congr (table : FixupTable) {image changed : Array UInt8}
    (hsize : image.size = changed.size) (base other : UInt32) :
    (table.relocate image base).value.1 = (table.relocate changed other).value.1 := by
  simp only [relocate_value]
  exact (Relocation.Lockstep.applyAll table { image } { image := changed } ⟨hsize, rfl⟩).1

/-- A relocation to another base ends in the same way. -/
theorem Module.FixupTable.relocate_result_eq (table : FixupTable) (image : Array UInt8)
    (base other : UInt32) : (table.relocate image base).value.1 = (table.relocate image other).value.1 :=
  table.relocate_result_congr rfl base other

/-- A loaded module and the same module at another base: addresses differ by the difference of the bases, and so
does each patched word that overlaps no other one. All other bytes are the same. -/
structure Rebased (file : Array UInt8) (shift : UInt32) (source : LinearModule)
    (executable moved : Executable) : Prop where
  format : moved.format = .linear source
  imageBase : moved.image.base = executable.image.base + shift
  segmentStarts : moved.segmentStarts = executable.segmentStarts.map (· + shift)
  entry : moved.entry? =
    executable.entry?.map fun entry => { entry with offset := entry.offset + shift }
  symbolAddress : ∀ symbol, moved.symbolAddress symbol =
    (executable.symbolAddress symbol).map (· + shift)
  imageSize : moved.image.bytes.size = executable.image.bytes.size
  patched : ∃ table, FixupTable.read file source.headerOffset source.header = .ok table ∧
    (∀ index, (∀ site ∈ table.sites, index < site ∨ site + 4 ≤ index) →
      moved.image.bytes.data[index]? = executable.image.bytes.data[index]?) ∧
    ∀ before site after, table.sites = before ++ site :: after →
      (∀ neighbour ∈ before ++ after, site + 4 ≤ neighbour ∨ neighbour + 4 ≤ site) →
      ∃ word : UInt32, Bytes.read? executable.image.bytes.data site = some word ∧
        Bytes.read? moved.image.bytes.data site = some (word + shift)

/-- What was added for one base is made up for by the difference to another one. -/
theorem add_add_sub (number base other : UInt32) :
    number + base + (other - base) = number + other := by
  rw [UInt32.add_assoc, UInt32.add_comm base, UInt32.sub_add_cancel]

theorem add_add_add_sub (number base other behind : UInt32) :
    number + base + behind + (other - base) = number + other + behind := by
  rw [UInt32.add_assoc, UInt32.add_comm behind, ← UInt32.add_assoc, add_add_sub]

namespace LinearOutline

variable {file : Array UInt8} {found : LinearOutline}

theorem Sound.rebased (hsound : found.Sound file)
    (hrelocatable : found.fixups.Relocatable (found.pages file).size) (base other : UInt32) :
    ∃ source, (found.executable found.fixups.stats
        ⟨base, ⟨Bytes.addAll base (found.pages file) found.fixups.sites⟩⟩).format = .linear source ∧
      Rebased file (other - base) source
        (found.executable found.fixups.stats
          ⟨base, ⟨Bytes.addAll base (found.pages file) found.fixups.sites⟩⟩)
        (found.executable found.fixups.stats
          ⟨other, ⟨Bytes.addAll other (found.pages file) found.fixups.sites⟩⟩) := by
  refine ⟨_, rfl, ?_⟩
  exact {
    format := rfl
    imageBase := by
      change other = base + (other - base)
      rw [UInt32.add_comm, UInt32.sub_add_cancel]
    segmentStarts := by
      rw [segmentStarts_executable, segmentStarts_executable, List.map_map]
      exact List.map_congr_left fun entry _ => (add_add_sub entry.loadOffset base other).symm
    entry := by
      simp [entry?_executable, Function.comp_def, add_add_add_sub]
    symbolAddress := fun symbol => by
      simp only [symbolAddress_executable]
      cases (if symbol.segment = 0 then none else found.objects[symbol.segment.toNat - 1]?) with
      | none => rfl
      | some entry => simp only [Except.map, add_add_add_sub]
    imageSize := Bytes.size_addAll.trans Bytes.size_addAll.symm
    patched := by
      refine ⟨found.fixups, hsound.fixups, fun index hout => ?_, fun before site after hsites hapart => ?_⟩
      · exact (Bytes.getElem?_addAll hout).trans (Bytes.getElem?_addAll hout).symm
      · have hmem : site ∈ found.fixups.sites := by
          rw [hsites]
          exact List.mem_append_right _ List.mem_cons_self
        obtain ⟨word, hword⟩ := Bytes.read?_isSome (FixupTable.fits_of_mem_sites hrelocatable hmem)
        refine ⟨word + base, ?_, ?_⟩
        · change Bytes.read? (Bytes.addAll base _ _) site = _
          rw [hsites]
          exact Bytes.read?_addAll hword hapart
        · change Bytes.read? (Bytes.addAll other _ _) site = _
          rw [hsites, add_add_sub]
          exact Bytes.read?_addAll hword hapart }

end LinearOutline

namespace Executable

/-- The base only translates. Loading to two bases fails with the same error, or gives the same DOS program, or one
module at both bases: headers, objects and numbers are the same, and what depends on the base differs by the
difference of the two. -/
theorem base_translates (file : Array UInt8) (base other : UInt32) :
    (∃ error, (parse file base).value = .error error ∧ (parse file other).value = .error error) ∨
    ∃ executable moved, (parse file base).value = .ok executable ∧
      (parse file other).value = .ok moved ∧
      match executable.format with
      | .linear source => Rebased file (other - base) source executable moved
      | .dos _ => moved = executable
      | .raw => False := by
  simp only [value_parse]
  cases hread : Outline.read file with
  | error error => exact .inl ⟨error, rfl, rfl⟩
  | ok outline =>
    simp only [ok_bind]
    rcases Outline.read_eq_ok hread with ⟨found, rfl, hsound⟩ | ⟨dos, -, rfl, -⟩
    · by_cases hrelocatable : found.fixups.Relocatable (found.pages file).size
      · right
        obtain ⟨source, hformat, hrebased⟩ := hsound.rebased hrelocatable base other
        refine ⟨_, _, LinearOutline.load_of_relocatable hrelocatable base,
          LinearOutline.load_of_relocatable hrelocatable other, ?_⟩
        rw [hformat]
        exact hrebased
      · left
        obtain ⟨error, herror⟩ := FixupTable.relocate_of_not_relocatable base hrelocatable
        have hother := (found.fixups.relocate_result_eq (found.pages file) other base).trans herror
        exact ⟨error, LinearOutline.load_of_error herror, LinearOutline.load_of_error hother⟩
    · exact .inr ⟨_, _, rfl, rfl, rfl⟩

def sampleModule : Array UInt8 :=
  let fields : List (Nat × List UInt8) := [
    (0, [0x4D, 0x5A]), (0x3C, [0x40]), (0x40, [0x4C, 0x45]), (0x54, [1]), (0x58, [1]), (0x5C, [2]),
    (0x68, [8]), (0x80, [196]), (0x84, [1]), (0xA8, [220]), (0xAC, [228]), (0xC0, [0x30, 0x01]),
    (0x108, [0x10]), (0x120, [7]), (0x124, [0x07, 0x00, 0x01, 0x00, 0x01]),
    (0x130, [0xB8, 0x10, 0, 0, 0, 0xC3])]
  fields.foldl (fun file field => Bytes.overlay file field.1 field.2) (Array.replicate 0x138 0)

example :
    let loaded (base : UInt32) := (parse sampleModule base).value.toOption.map fun executable =>
      (executable.segmentStarts, executable.entry?.map EntryPoint.offset, executable.image.bytes.data)
    loaded 0x01000000 =
      some ([0x01000010], some 0x01000012, #[0xB8, 0x10, 0, 0, 0x01, 0xC3, 0, 0]) ∧
    loaded 0x02000000 =
      some ([0x02000010], some 0x02000012, #[0xB8, 0x10, 0, 0, 0x02, 0xC3, 0, 0]) := by
  decide +kernel

end Executable

end FlowDisasm
