import FlowDisasm.Proofs.Exploration.Masking
import FlowDisasm.Proofs.Listing.Rendering

/-!
# Listings and the assumption of protected mode

A listing decodes by the width that an offset was visited with, and shows addresses by it. Labels come from names and
destinations, and without service calls there are no data to be looked for. So explorations that differ in the
assumption alone have one listing.
-/
namespace FlowDisasm

namespace Listing

variable {layout : Layout} {subject : Subject} {state other : Exploration} {visit visit' : Visit}

theorem labelFor_masked (h : state.SameMasked other) (offset : UInt32) :
    state.labelFor offset = other.labelFor offset := by
  rw [Exploration.labelFor, Exploration.labelFor, h.labels]
  cases hvisit : state.visited[offset]? with
  | none => rw [h.visited_eq_none hvisit]
  | some visit =>
    obtain ⟨⟨mode', isTarget'⟩, hvisit', hmasked⟩ := h.exists_visit hvisit
    obtain rfl : visit.isTarget = isTarget' := (Visit.masked_eq_iff.mp hmasked).2
    rw [hvisit']
    cases other.labels[offset]? <;> rfl

theorem labelName_masked (h : state.SameMasked other) (offset : UInt32) :
    labelName state offset = labelName other offset := by
  rw [labelName, labelFor_masked h, labelName]

theorem gapItems_masked (h : state.SameMasked other) (start size : Nat) :
    gapItems layout subject state start size = gapItems layout subject other start size := by
  rw [gapItems, labelName_masked h, gapItems]

theorem labelItems_masked (h : state.SameMasked other) (offset : UInt32)
    (hvisit : visit.masked = visit'.masked) :
    labelItems state offset visit = labelItems other offset visit' := by
  rw [labelItems, labelName_masked h, (Visit.masked_eq_iff.mp hvisit).2, h.labels, labelItems]

theorem codeOf_masked (hservice : subject.service = none) (h : state.SameMasked other) (offset : UInt32)
    (hvisit : visit.masked = visit'.masked) :
    codeOf subject state offset visit = codeOf subject other offset visit' := by
  have hmode := (Visit.masked_eq_iff.mp hvisit).1
  have hlabels : state.labelFor = other.labelFor := funext (labelFor_masked h)
  simp only [codeOf, Mode.masked_eq_iff.mp hmode, hlabels, h.address offset hmode,
    Subject.trailing?_of_no_service hservice]

theorem itemsFrom_masked (hservice : subject.service = none) (h : state.SameMasked other) (shown : Nat)
    {visits visits' : List (UInt32 × Visit)}
    (hvisits : visits.map (fun visited => (visited.1, visited.2.masked)) =
      visits'.map (fun visited => (visited.1, visited.2.masked))) :
    itemsFrom layout subject state shown visits = itemsFrom layout subject other shown visits' := by
  induction visits generalizing visits' shown with
  | nil =>
    obtain rfl := List.map_eq_nil_iff.mp hvisits.symm
    rfl
  | cons visited rest ih =>
    obtain ⟨⟨offset', visit'⟩, rest', rfl, hfirst, hrest⟩ := List.map_eq_cons_iff.mp hvisits.symm
    obtain ⟨offset, visit⟩ := visited
    obtain ⟨rfl, hvisit⟩ := Prod.mk.inj hfirst
    have hbehind (shown : Nat) := ih shown hrest.symm
    simp only [itemsFrom, gapItems_masked h, codeOf_masked hservice h _ hvisit.symm,
      labelItems_masked h _ hvisit.symm, hbehind]

/-- The visited offsets come in the same order, with the same visits apart from the assumption. -/
theorem toList_masked (h : state.SameMasked other) :
    state.visited.toList.map (fun visited => (visited.1, visited.2.masked)) =
      other.visited.toList.map (fun visited => (visited.1, visited.2.masked)) := by
  have hsame : state.visited.map (fun _ => Visit.masked) = other.visited.map (fun _ => Visit.masked) :=
    Std.ExtTreeMap.ext_getElem? fun offset => by
      rw [Std.ExtTreeMap.getElem?_map, Std.ExtTreeMap.getElem?_map, h.visited offset]
  have hlists := congrArg Std.ExtTreeMap.toList hsame
  rwa [Std.ExtTreeMap.toList_map, Std.ExtTreeMap.toList_map] at hlists

theorem render_masked (hservice : subject.service = none) (h : state.SameMasked other) (layout : Layout) :
    render layout subject state = render layout subject other := by
  rw [render, items, itemsFrom_masked hservice h _ (toList_masked h), render, items]

end Listing

namespace Session

/-- Assuming protected mode is a matter of how code is followed, and of nothing else. Let service calls be disabled
and two histories ask the same but for the assumption at roots. If the first one does not fail and visits no far
branch with its destination in its own bytes, the second one does not fail either; it visits the same offsets with the
same widths and the same destinations among them, counts the same, and has the same listing in every layout. -/
theorem assumption_irrelevant {subject : Subject} {history other : List Request}
    (hservice : subject.service = none)
    (hrequests : history.map Request.masked = other.map Request.masked)
    (herrors : (run subject history).errors = [])
    (hnot : ∀ place ∈ (run subject history).state.places, subject.isDirectFarAt place = false) :
    let before := run subject history
    let after := run subject other
    after.errors = [] ∧ before.state.SameMasked after.state ∧
      ∀ layout, ∃ text, Listing.render layout subject before.state = .ok text ∧
        Listing.render layout subject after.state = .ok text := by
  intro before after
  obtain ⟨herrors', hsame⟩ := run_masked hservice hrequests herrors hnot
  obtain ⟨entries, hlisted⟩ := run_listed herrors
  refine ⟨herrors', hsame, fun layout => ⟨_, hlisted.render_eq layout, ?_⟩⟩
  rw [← Listing.render_masked hservice hsame]
  exact hlisted.render_eq layout

/-- A switch of the mode, a jump over a byte, and a return. -/
def modeSwitcher : Subject where
  image := ⟨0, ⟨#[0x0F, 0x22, 0xC0, 0xEB, 0x01, 0x90, 0xC3]⟩⟩
  cpu := .i80386
  service := none

theorem assumption_irrelevant_modeSwitcher :
    let history : List Request := [.root 0 .real16 (some "start"), .analyze]
    let other : List Request := [.root 0 ⟨.bits16, true⟩ (some "start"), .analyze]
    (run modeSwitcher history).errors = [] ∧
    (run modeSwitcher history).state.places =
      [⟨0, .real16⟩, ⟨3, ⟨.bits16, true⟩⟩, ⟨6, ⟨.bits16, true⟩⟩] ∧
    (run modeSwitcher other).state.places =
      [⟨0, ⟨.bits16, true⟩⟩, ⟨3, .real16⟩, ⟨6, .real16⟩] ∧
    (run modeSwitcher other).errors = [] ∧
    (run modeSwitcher history).state.SameMasked (run modeSwitcher other).state ∧
    ∀ layout, ∃ text,
      Listing.render layout modeSwitcher (run modeSwitcher history).state = .ok text ∧
      Listing.render layout modeSwitcher (run modeSwitcher other).state = .ok text := by
  intro history other
  have herrors : (run modeSwitcher history).errors = [] := by decide +kernel
  exact ⟨herrors, by decide +kernel, by decide +kernel,
    assumption_irrelevant rfl rfl herrors (by decide +kernel)⟩

end Session

end FlowDisasm
