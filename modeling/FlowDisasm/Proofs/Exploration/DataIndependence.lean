import FlowDisasm.Proofs.Exploration.Replay

/-!
# Data bytes

An exploration reads the instructions at the places that it visits and nothing else: in another image with
the same addresses and the same bytes there, it goes the same way.
-/
namespace FlowDisasm

/-! ## Images with the same code -/

def Subject.codeAt (subject : Subject) (place : Root) : List UInt8 :=
  match subject.decodeAt place with
  | .ok instruction => instruction.bytes
  | .error _ => []

/-- An image has the addresses of that of a subject and, at some places, the bytes of the instructions
there. -/
structure SameCode (subject : Subject) (places : List Root) (image : Image) : Prop where
  base : image.base = subject.image.base
  size : image.bytes.size = subject.image.bytes.size
  code : ∀ place ∈ places,
    image.window place.offset.toNat (subject.codeAt place).length = subject.codeAt place

namespace SameCode

variable {subject : Subject} {places fewer : List Root} {image : Image}

theorem mono (h : SameCode subject places image) (hfewer : fewer ⊆ places) :
    SameCode subject fewer image :=
  { h with code := fun place hplace => h.code place (hfewer hplace) }

theorem limit (h : SameCode subject places image) : image.limit = subject.image.limit := by
  rw [Image.limit, Image.limit, h.base, h.size]

theorem decodeAt {place : Root} {instruction : X86.Instruction} (h : SameCode subject places image)
    (hplace : place ∈ places) (hread : subject.decodeAt place = .ok instruction) :
    { subject with image }.decodeAt place = .ok instruction := by
  have hcode := h.code place hplace
  simp only [Subject.codeAt, hread] at hcode
  have hoffset : instruction.offset = place.offset := X86.decode_offset hread
  have hsame : { instruction with offset := place.offset } = instruction := by rw [← hoffset]
  exact (X86.decode_of_window hread hcode).trans (congrArg Except.ok hsame)

/-- The data of a service call are looked for but not looked at. -/
theorem course (h : SameCode subject places image) (instruction : X86.Instruction) (mode : Mode) :
    { subject with image }.course instruction mode = subject.course instruction mode := by
  have htrailing : { subject with image }.trailing? instruction mode =
      subject.trailing? instruction mode := rfl
  unfold Subject.course
  cases instruction.operation.flow with
  | int =>
    simp only [htrailing]
    cases subject.trailing? instruction mode with
    | none => rfl
    | some count =>
      have hread := Image.map_read_congr h.base h.size instruction.next.toNat count.toNat
      dsimp only
      cases hfirst : image.read instruction.next.toNat count.toNat <;>
        cases hsecond : subject.image.read instruction.next.toNat count.toNat <;>
          simp_all [Except.map]
  | _ => rfl

theorem agrees (h : SameCode subject places image) :
    subject.Agrees places { subject with image } where
  limit := h.limit
  decodeAt _ hplace _ hread := h.decodeAt hplace hread
  course := h.course

end SameCode

namespace Session

variable {subject : Subject} {image : Image} {session : Session} {history : List Request}

/-- An analysis that does not fail does the same in an image with the same code. -/
theorem perform_analyze_congr (herrors : (session.perform subject .analyze).errors = [])
    (h : SameCode subject (session.perform subject .analyze).state.places image) :
    session.perform { subject with image } .analyze = session.perform subject .analyze :=
  perform_analyze_replay herrors h.agrees

/-- A run that does not fail is the same in every image that has the same addresses and the same bytes of the
instructions that it visits, whatever the other bytes are. -/
theorem data_irrelevant (herrors : (run subject history).errors = [])
    (h : SameCode subject (run subject history).state.places image) :
    (run { subject with image } history).errors = [] ∧
    (run { subject with image } history).state = (run subject history).state := by
  suffices hsame : run { subject with image } history = run subject history by
    rw [hsame]
    exact ⟨herrors, rfl⟩
  induction history using List.reverseRecOn with
  | nil => rfl
  | append_singleton history request ih =>
    rw [run_concat] at h
    have hbefore := ih (errors_of_concat herrors) (h.mono (places_perform request))
    rw [run_concat] at herrors ⊢
    rw [run_concat, hbefore]
    cases request with
    | root offset mode name => rfl
    | label offset name => rfl
    | segment start => rfl
    | analyze => exact perform_analyze_congr herrors h

/-- A service call with its data, a jump over a byte, and a return with a byte behind it. -/
def serviceCaller : Subject where
  image := ⟨0x1000, ⟨#[0xCD, 0x20, 0x01, 0x00, 0x2A, 0x00, 0xEB, 0x01, 0xFF, 0xC3, 0xFF]⟩⟩
  cpu := .i80386
  service := some (.driverCall 0x20)

theorem data_irrelevant_serviceCaller :
    let history : List Request := [.root 0x1000 .protected32 (some "entry"), .analyze]
    let other : Image := ⟨0x1000, ⟨#[0xCD, 0x20, 0xCC, 0xCC, 0xCC, 0xCC, 0xEB, 0x01, 0x90, 0xC3, 0x90]⟩⟩
    (run serviceCaller history).errors = [] ∧
    (run serviceCaller history).state.places.length = 3 ∧
    (run { serviceCaller with image := other } history).errors = [] ∧
    (run { serviceCaller with image := other } history).state = (run serviceCaller history).state := by
  intro history other
  have herrors : (run serviceCaller history).errors = [] := by decide +kernel
  exact ⟨herrors, by decide +kernel, data_irrelevant herrors ⟨rfl, rfl, by decide +kernel⟩⟩

end Session

end FlowDisasm
