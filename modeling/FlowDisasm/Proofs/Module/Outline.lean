import FlowDisasm.Module.Executable
import FlowDisasm.Proofs.Bytes.Fields

/-!
# Loading in two parts

Loading reads the headers and tables of a file first and relocates afterwards. What it reads does not depend on the
base; this part is told on its own, as an outline of the executable. The second part has nothing to check but the
relocation. Both parts together are the loader without its log: the same steps in a host that takes no notes.
-/
namespace FlowDisasm

open FlowDisasm.Module

section Results

variable {α β : Type}

@[simp] theorem ok_bind (value : α) (next : α → Except Error β) :
    ((Except.ok value : Except Error α) >>= next) = next value := rfl

@[simp] theorem error_bind (error : Error) (next : α → Except Error β) :
    ((Except.error error : Except Error α) >>= next) = .error error := rfl

@[simp] theorem pure_eq_ok (value : α) : (pure value : Except Error α) = .ok value := rfl

@[simp] theorem throw_eq_error (error : Error) : (throw error : Except Error α) = .error error := rfl

end Results

/-! ## Without notes -/

/-- A host without notes, which checks nothing again. -/
instance : Host (Except Error) where
  note _ _ := .ok ()
  require _ := .ok ()

section Steps

variable {α : Type}

@[simp] theorem note_eq_ok (level : Level) (text : String) :
    (Host.note level text : Except Error Unit) = .ok () := rfl

@[simp] theorem require_eq_ok (condition : Prop) [Decidable condition] :
    (Host.require condition : Except Error Unit) = .ok () := rfl

@[simp] theorem sum_eq_ok (first second : Nat) :
    (Host.sum first second : Except Error Nat) = .ok (first + second) := rfl

@[simp] theorem discard_eq_ok (value : α) : discard (Except.ok value : Except Error α) = .ok () := rfl

@[simp] theorem ofExcept_eq (result : Except Error α) :
    (MonadExcept.ofExcept result : Except Error α) = result := by
  cases result <;> rfl

end Steps

namespace LinearOutline

def pages (found : LinearOutline) (file : Array UInt8) : Array UInt8 :=
  file.extract found.header.contents.dataPages.toNat file.size

theorem size_pages (found : LinearOutline) (file : Array UInt8) :
    (found.pages file).size = file.size - found.header.contents.dataPages.toNat := by
  rw [pages, Array.size_extract, Nat.min_self]

def load (file : Array UInt8) (base : UInt32) (found : LinearOutline) : Except Error Executable :=
  let (result, bytes) := (found.fixups.relocate (found.pages file) base).value
  result.map fun relocation => found.executable relocation ⟨base, ⟨bytes⟩⟩

/-- What is made of a loaded module is made of what the relocation leaves. -/
theorem map_load {β : Type} (file : Array UInt8) (base : UInt32) (found : LinearOutline)
    (change : Executable → β) :
    (found.load file base).map change =
      ((found.fixups.relocate (found.pages file) base).value.1.map fun relocation =>
        (relocation, (found.fixups.relocate (found.pages file) base).value.2)) >>=
      fun relocated => .ok (change (found.executable relocated.1 ⟨base, ⟨relocated.2⟩⟩)) := by
  simp only [load]
  cases (found.fixups.relocate (found.pages file) base).value.1 <;> rfl

def read (file : Array UInt8) (dos : DosHeader) (headerOffset : UInt32) : Except Error LinearOutline :=
  find file dos headerOffset

@[simp] theorem find_eq (file : Array UInt8) (dos : DosHeader) (headerOffset : UInt32) :
    (find file dos headerOffset : Except Error LinearOutline) = read file dos headerOffset := rfl

end LinearOutline

namespace Outline

def load (file : Array UInt8) (base : UInt32) : Outline → Except Error Executable
  | linear found => found.load file base
  | dos header => .ok {
      format := .dos header, image := ⟨0, ⟨file.extract header.headerSize file.size⟩⟩ }

/-- What a file tells. -/
def read (file : Array UInt8) : Except Error Outline :=
  find file

end Outline

namespace Executable

variable {α β : Type}

/-- What a step of loading comes to, without its log. -/
def outcome (loading : Loading α) : Except Error α := loading.run.value

@[simp] theorem outcome_pure (value : α) : outcome (pure value) = .ok value := rfl

@[simp] theorem outcome_throw (error : Error) : outcome (throw error : Loading α) = .error error := rfl

@[simp] theorem outcome_note (level : Level) (text : String) :
    outcome (Host.note level text) = .ok () := rfl

@[simp] theorem outcome_require (condition : Prop) [Decidable condition] :
    outcome (Host.require condition) = .ok () := rfl

@[simp] theorem outcome_ofExcept (result : Except Error α) :
    outcome (MonadExcept.ofExcept result) = result := by
  cases result <;> rfl

@[simp] theorem outcome_lift (logged : Logged α) :
    outcome (ExceptT.lift logged) = .ok logged.value := rfl

@[simp] theorem outcome_bind (first : Loading α) (next : α → Loading β) :
    outcome (first >>= next) = outcome first >>= fun value => outcome (next value) := by
  simp only [outcome, ExceptT.run_bind, Logged.value_bind]
  cases first.run.value <;> rfl

@[simp] theorem outcome_discard (loading : Loading α) :
    outcome (discard loading) = discard (outcome loading) := by
  refine (outcome_bind loading fun _ => pure ()).trans ?_
  cases outcome loading <;> rfl

@[simp] theorem outcome_sum (first second : Nat) :
    outcome (Host.sum first second) = .ok (first + second) := rfl

variable {file : Array UInt8} {dos : DosHeader} {headerOffset base : UInt32}

theorem outcome_findLinear : outcome (LinearOutline.find file dos headerOffset) =
    LinearOutline.read file dos headerOffset := by
  unfold LinearOutline.read LinearOutline.find
  cases LinearHeader.read file headerOffset.toNat with
  | error error => simp
  | ok header =>
    by_cases hpages : file.size < header.contents.dataPages.toNat
    · simp [hpages]
    by_cases hstart : header.start.codeObject = 0 ∨ header.tables.objectCount < header.start.codeObject <;>
      simp [hpages, hstart]

theorem outcome_find : outcome (Outline.find file) = Outline.read file := by
  unfold Outline.read Outline.find
  by_cases hsize : file.size < minFileSize
  · simp [hsize]
  cases DosHeader.read file with
  | error error => simp [hsize]
  | ok dos =>
    by_cases hheader : file.size ≤ DosHeader.size + dos.headerSize
    · simp [hsize, hheader]
    cases DosHeader.nextHeader file with
    | error error => simp [hsize, hheader]
    | ok headerOffset =>
      by_cases hlinear : hasLinearHeader file headerOffset.toNat = true
      · simp [hsize, hheader, hlinear, outcome_findLinear]
      · simp [hsize, hheader, hlinear]

theorem outcome_relocate (table : FixupTable) (pages : Array UInt8) (base : UInt32) :
    outcome (relocate table pages base) = (table.relocate pages base).value.1.map fun relocation =>
      (relocation, (table.relocate pages base).value.2) := by
  simp only [relocate, outcome_bind, outcome_lift, ok_bind, outcome_ofExcept, outcome_pure]
  cases (table.relocate pages base).value.1 <;> rfl

/-- What is finished is the executable of an outline, with the place where it starts. -/
theorem outcome_finish (outline : Outline) : outcome (outline.finish relocate file base) =
    (outline.load file base).map fun executable => (executable, executable.entry?) := by
  cases outline with
  | linear found =>
    rw [Outline.load, LinearOutline.map_load, ← outcome_relocate, Outline.finish, outcome_bind]
    exact outcome_bind ..
  | dos header => rfl

/-- Loading reads an outline and relocates it. -/
theorem value_parse (file : Array UInt8) (base : UInt32) :
    (parse file base).value = Outline.read file >>= Outline.load file base := by
  change (outcome (Executable.load file base)).map Prod.fst = _
  rw [Executable.load, outcome_bind, outcome_find]
  cases Outline.read file with
  | error error => rfl
  | ok outline =>
    rw [ok_bind, ok_bind, outcome_finish]
    cases outline.load file base <;> rfl

end Executable

/-! ## Addresses in a module -/

namespace LinearOutline

variable {found : LinearOutline} {relocation : RelocationStats} {image : Image}

theorem segmentStarts_executable : (found.executable relocation image).segmentStarts =
    found.objects.map fun entry => entry.loadOffset + image.base := rfl

theorem getElem?_segmentStarts {place : Nat} (h : place < found.objects.length) :
    (found.executable relocation image).segmentStarts[place]? =
      some (found.objects[place].loadOffset + image.base) := by
  rw [segmentStarts_executable, List.getElem?_map, List.getElem?_eq_getElem h]
  rfl

theorem entry?_executable : Executable.entry? (found.executable relocation image) =
    found.objects[found.header.start.codeObject.toNat - 1]?.map fun entry => {
      offset := entry.loadOffset + image.base + found.header.start.instructionPointer
      mode := .protected32, name := "Entry" } := by
  simp only [executable, Executable.entry?, Executable.segmentStarts, Executable.objects,
    List.getElem?_map]
  cases found.objects[found.header.start.codeObject.toNat - 1]? <;> rfl

/-- Segments are numbered from one. -/
theorem symbolAddress_executable (symbol : Symbol) :
    (found.executable relocation image).symbolAddress symbol =
      match if symbol.segment = 0 then none else found.objects[symbol.segment.toNat - 1]? with
      | some entry => .ok (entry.loadOffset + image.base + symbol.offset)
      | none =>
        .error (.symbol (.segmentNumber symbol.name symbol.segment found.objects.length)) := by
  simp only [Executable.symbolAddress, Executable.segmentStarts, Executable.objects, executable,
    List.getElem?_map]
  by_cases hzero : symbol.segment = 0
  · simp only [hzero, if_true]
  · simp only [hzero, if_false]
    cases found.objects[symbol.segment.toNat - 1]? <;> rfl

end LinearOutline

/-! ## What is known of an outline -/

/-- What reading the headers and tables of a module makes sure of. -/
structure LinearOutline.Sound (file : Array UInt8) (found : LinearOutline) : Prop where
  dos : DosHeader.read file = .ok found.dos
  headerOffset : DosHeader.nextHeader file = .ok found.headerOffset
  present : Executable.hasLinearHeader file found.headerOffset.toNat = true
  header : LinearHeader.read file found.headerOffset.toNat = .ok found.header
  dataPages : found.header.contents.dataPages.toNat ≤ file.size
  startPositive : 1 ≤ found.header.start.codeObject.toNat
  startPresent : found.header.start.codeObject.toNat ≤ found.header.tables.objectCount.toNat
  objects : ObjectEntry.readTable file (found.headerOffset.toNat + found.header.tables.objects.toNat)
    found.header.tables.objectCount.toNat = .ok found.objects
  fixups : FixupTable.read file found.headerOffset found.header = .ok found.fixups

theorem Module.ObjectEntry.length_of_readTable {file : Array UInt8} {offset count : Nat}
    {entries : List ObjectEntry} (h : readTable file offset count = .ok entries) :
    entries.length = count := by
  unfold readTable at h
  dsimp only at h
  split at h
  · rename_i found hfound
    obtain rfl := Except.ok.inj h
    obtain ⟨bytes, -, hread⟩ := Option.bind_eq_some_iff.mp hfound
    exact Bytes.Layout.length_of_read?_repeat hread
  · cases h

variable {file : Array UInt8} {dos : DosHeader} {headerOffset : UInt32} {found : LinearOutline}
  {outline : Outline}

/-- A module is read once its pages begin in the file, its start object is one of its objects, and its tables are
in the file. -/
theorem LinearOutline.sound_of_read (hdos : DosHeader.read file = .ok dos)
    (hnext : DosHeader.nextHeader file = .ok headerOffset)
    (hlinear : Executable.hasLinearHeader file headerOffset.toNat = true)
    (h : read file dos headerOffset = .ok found) : found.Sound file := by
  unfold read find at h
  cases hheader : LinearHeader.read file headerOffset.toNat with
  | error error => simp [hheader] at h
  | ok header =>
    by_cases hpages : file.size < header.contents.dataPages.toNat
    · simp [hheader, hpages] at h
    by_cases hstart : header.start.codeObject = 0 ∨ header.tables.objectCount < header.start.codeObject
    · simp [hheader, hpages, hstart] at h
    cases hobjects : ObjectEntry.readTable file (headerOffset.toNat + header.tables.objects.toNat)
        header.tables.objectCount.toNat with
    | error error => simp [hheader, hpages, hstart, hobjects] at h
    | ok objects =>
      cases hfixups : FixupTable.read file headerOffset header with
      | error error => simp [hheader, hpages, hstart, hobjects, hfixups] at h
      | ok fixups =>
        obtain rfl : _ = found := by simpa [hheader, hpages, hstart, hobjects, hfixups] using h
        obtain ⟨hzero, hcount⟩ := not_or.mp hstart
        have hpositive : header.start.codeObject.toNat ≠ 0 := fun hnone =>
          hzero (UInt32.toNat_inj.mp hnone)
        exact {
          dos := hdos, headerOffset := hnext, present := hlinear, header := hheader
          dataPages := Nat.le_of_not_lt hpages
          startPositive := Nat.one_le_iff_ne_zero.mpr hpositive
          startPresent := UInt32.le_iff_toNat_le.mp (UInt32.not_lt.mp hcount)
          objects := hobjects, fixups := hfixups }

/-- A file tells of a module if it has a linear header, and else of a DOS program. -/
theorem Outline.read_eq_ok (h : read file = .ok outline) :
    (∃ found, outline = .linear found ∧ found.Sound file) ∨
      ∃ dos headerOffset, outline = .dos dos ∧ DosHeader.read file = .ok dos ∧
        DosHeader.size + dos.headerSize < file.size ∧
        DosHeader.nextHeader file = .ok headerOffset ∧
        Executable.hasLinearHeader file headerOffset.toNat = false := by
  unfold read find at h
  by_cases hsize : file.size < Executable.minFileSize
  · simp [hsize] at h
  cases hdos : DosHeader.read file with
  | error error => simp [hsize, hdos] at h
  | ok dos =>
    by_cases hheader : file.size ≤ DosHeader.size + dos.headerSize
    · simp [hsize, hdos, hheader] at h
    cases hnext : DosHeader.nextHeader file with
    | error error => simp [hsize, hdos, hheader, hnext] at h
    | ok headerOffset =>
      by_cases hlinear : Executable.hasLinearHeader file headerOffset.toNat = true
      · cases hread : LinearOutline.read file dos headerOffset with
        | error error => simp [hsize, hdos, hheader, hnext, hlinear, hread] at h
        | ok found =>
          obtain rfl : _ = outline := by
            simpa [hsize, hdos, hheader, hnext, hlinear, hread] using h
          exact .inl ⟨found, rfl, LinearOutline.sound_of_read hdos hnext hlinear hread⟩
      · obtain rfl : _ = outline := by simpa [hsize, hdos, hheader, hnext, hlinear] using h
        exact .inr ⟨dos, headerOffset, rfl, rfl, Nat.lt_of_not_le hheader, rfl,
          Bool.not_eq_true _ ▸ hlinear⟩

end FlowDisasm
