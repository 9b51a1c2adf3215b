import FlowDisasm.Proofs.Exploration.Replay
import FlowDisasm.Proofs.Listing.Rendering

/-!
# Newer processors

A newer processor runs all that an older one runs, and finds the same in it. So a run that the older one does not
fail is replayed on the newer one at all places that it visits, and its listing decodes nothing but these places.
-/
namespace FlowDisasm

variable {subject : Subject} {newer : X86.Cpu}

theorem Subject.agrees_of_era_le (order : subject.cpu.era.rank ≤ newer.era.rank) (places : List Root) :
    subject.Agrees places { subject with cpu := newer } where
  limit := rfl
  decodeAt _ _ _ hread := X86.decode_of_era_le order hread
  course _ _ := rfl

namespace Listing

variable {state : Exploration} {offset : UInt32} {visit : Visit} {code : Code} {entries : List Entry}
  {visits : List (UInt32 × Visit)}

theorem codeOf_of_era_le (order : subject.cpu.era.rank ≤ newer.era.rank)
    (h : codeOf subject state offset visit = .ok code) :
    codeOf { subject with cpu := newer } state offset visit = .ok code := by
  cases hread : X86.decode subject.cpu subject.image offset visit.mode.width with
  | error error =>
    simp only [codeOf, hread] at h
    cases h
  | ok instruction =>
    have hnewer := X86.decode_of_era_le order hread
    simp only [codeOf, hread, hnewer] at h ⊢
    exact h

theorem entriesOf_of_era_le (order : subject.cpu.era.rank ≤ newer.era.rank)
    (h : entriesOf subject state visits = .ok entries) :
    entriesOf { subject with cpu := newer } state visits = .ok entries := by
  induction visits generalizing entries with
  | nil => exact h
  | cons visited rest ih =>
    obtain ⟨code, others, hcode, hothers, rfl⟩ := entriesOf_cons h
    simp only [entriesOf, codeOf_of_era_le order hcode, ih hothers]
    rfl

/-- What an older processor lists is listed alike by a newer one. -/
theorem Listed.of_era_le (order : subject.cpu.era.rank ≤ newer.era.rank)
    (h : Listed subject state entries) : Listed { subject with cpu := newer } state entries where
  found := entriesOf_of_era_le order h.found
  visits := h.visits
  shows entry hentry := by
    obtain ⟨instruction, hshows⟩ := h.shows entry hentry
    exact ⟨instruction, { hshows with decoded := X86.decode_of_era_le order hshows.decoded }⟩

end Listing

namespace Session

/-- A newer processor changes nothing that worked: what an older one decodes it decodes to the same, where the
bytes hold no instruction or end too early it fails alike, and a run without a failure on the older one is the same
run on the newer one, with the same listing in every layout. -/
theorem newer_processor_irrelevant {older newer : X86.Cpu}
    (order : older.era.rank ≤ newer.era.rank) :
    (∀ (image : Image) (offset : UInt32) (width : X86.Width),
      (∀ instruction, X86.decode older image offset width = .ok instruction →
        X86.decode newer image offset width = .ok instruction) ∧
      (∀ address bytes,
        X86.decode older image offset width = .error (.invalidInstruction address bytes) ↔
          X86.decode newer image offset width = .error (.invalidInstruction address bytes)) ∧
      ∀ address,
        X86.decode older image offset width = .error (.addressOutOfRange address) ↔
          X86.decode newer image offset width = .error (.addressOutOfRange address)) ∧
    ∀ (image : Image) (service : Option ServiceCall) (history : List Request),
      let before := run ⟨image, older, service⟩ history
      let after := run ⟨image, newer, service⟩ history
      before.errors = [] →
        after.errors = [] ∧ after.state = before.state ∧
        ∀ layout, ∃ text,
          Listing.render layout ⟨image, older, service⟩ before.state = .ok text ∧
          Listing.render layout ⟨image, newer, service⟩ after.state = .ok text := by
  constructor
  · intro image offset width
    exact ⟨fun instruction => X86.decode_of_era_le order,
      X86.decode_eq_invalidInstruction_iff older newer,
      X86.decode_eq_addressOutOfRange_iff older newer⟩
  · intro image service history before after herrors
    have hagrees : Subject.Agrees ⟨image, older, service⟩ before.state.places
        ⟨image, newer, service⟩ := Subject.agrees_of_era_le order _
    have hsame : after = before := run_replay herrors hagrees
    obtain ⟨entries, hlisted⟩ := run_listed herrors
    refine ⟨hsame ▸ herrors, hsame ▸ rfl, fun layout => ⟨_, hlisted.render_eq layout, ?_⟩⟩
    rw [hsame]
    exact (hlisted.of_era_le order).render_eq layout

def registerPusher : Image := ⟨0x1000, ⟨#[0x60, 0x75, 0xFE, 0xC3]⟩⟩

theorem newer_processor_irrelevant_pusher :
    let history : List Request := [.root 0x1000 .real16 none, .analyze]
    (run ⟨registerPusher, .i8086, none⟩ history).errors ≠ [] ∧
    X86.Cpu.i80186.era.rank ≤ X86.Cpu.i80586.era.rank ∧
    (run ⟨registerPusher, .i80186, none⟩ history).errors = [] ∧
    (run ⟨registerPusher, .i80186, none⟩ history).state.places.length = 3 ∧
    (run ⟨registerPusher, .i80586, none⟩ history).errors = [] ∧
    (run ⟨registerPusher, .i80586, none⟩ history).state =
      (run ⟨registerPusher, .i80186, none⟩ history).state := by
  intro history
  have order : X86.Cpu.i80186.era.rank ≤ X86.Cpu.i80586.era.rank := by decide
  have herrors : (run ⟨registerPusher, .i80186, none⟩ history).errors = [] := by decide +kernel
  obtain ⟨hnewer, hstate, -⟩ :=
    (newer_processor_irrelevant order).2 registerPusher none history herrors
  exact ⟨by decide +kernel, order, herrors, by decide +kernel, hnewer, hstate⟩

end Session

end FlowDisasm
