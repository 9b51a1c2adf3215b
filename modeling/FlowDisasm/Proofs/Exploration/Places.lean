import FlowDisasm.Proofs.Exploration.ControlFlow
import Mathlib.Data.List.Perm.Basic
import Mathlib.Data.List.Nodup

/-!
# Visited places

The visited map as a list of places, each offset once, with the mode of its visit; which of the offsets
are marked as destinations is kept apart. What the operations on an exploration do is said through these
two views and not through the map.
-/
namespace FlowDisasm

def Walk.place (walk : Walk) : Root := ⟨walk.offset, walk.mode⟩

def Root.walk (root : Root) : Walk := ⟨root.offset, root.mode, true⟩

namespace Exploration

def places (state : Exploration) : List Root :=
  state.visited.toList.map fun entry => ⟨entry.1, entry.2.mode⟩

/-- An offset is flagged if it was visited and is known as a destination. -/
def Flagged (state : Exploration) (offset : UInt32) : Prop :=
  ∃ visit, state.visited[offset]? = some visit ∧ visit.isTarget

variable {state : Exploration} {place : Root} {walk : Walk} {visit : Visit} {offset : UInt32}

theorem mem_places : place ∈ state.places ↔
    ∃ visit, state.visited[place.offset]? = some visit ∧ visit.mode = place.mode := by
  simp only [places, List.mem_map, Prod.exists]
  constructor
  · rintro ⟨offset, visit, hmem, rfl⟩
    exact ⟨visit, Std.ExtTreeMap.mem_toList_iff_getElem?_eq_some.mp hmem, rfl⟩
  · rintro ⟨visit, hvisit, hmode⟩
    refine ⟨place.offset, visit, Std.ExtTreeMap.mem_toList_iff_getElem?_eq_some.mpr hvisit, ?_⟩
    rw [hmode]

theorem mem_places_of_getElem? (h : state.visited[offset]? = some visit) :
    ⟨offset, visit.mode⟩ ∈ state.places :=
  mem_places.mpr ⟨visit, h, rfl⟩

theorem mem_visited_iff : offset ∈ state.visited ↔ ∃ place ∈ state.places, place.offset = offset := by
  rw [Std.ExtTreeMap.mem_iff_isSome_getElem?, Option.isSome_iff_exists]
  constructor
  · rintro ⟨visit, h⟩
    exact ⟨_, mem_places_of_getElem? h, rfl⟩
  · rintro ⟨place, hplace, rfl⟩
    obtain ⟨visit, h, -⟩ := mem_places.mp hplace
    exact ⟨visit, h⟩

theorem offsets_places (state : Exploration) :
    state.places.map Root.offset = state.visited.keys := by
  rw [places, List.map_map, ← Std.ExtTreeMap.map_fst_toList_eq_keys]
  rfl

/-- No offset was visited twice. -/
theorem nodup_offsets (state : Exploration) : (state.places.map Root.offset).Nodup := by
  rw [offsets_places]
  exact Std.ExtTreeMap.nodup_keys

theorem nodup_places (state : Exploration) : state.places.Nodup :=
  (nodup_offsets state).of_map _

/-- Places are listed by ascending offsets. -/
theorem places_ascend (state : Exploration) :
    state.places.Pairwise fun first second => first.offset < second.offset := by
  refine List.pairwise_map.mpr (Std.ExtTreeMap.ordered_keys_toList.imp ?_)
  intro first second hless
  exact compareOfLessAndEq_eq_lt.mp hless

theorem length_places (state : Exploration) : state.places.length = state.visited.size := by
  rw [places, List.length_map, Std.ExtTreeMap.length_toList]

theorem getElem?_insert_visited (key : UInt32) :
    (state.visited.insert key visit)[offset]? =
      if key = offset then some visit else state.visited[offset]? := by
  rw [Std.ExtTreeMap.getElem?_insert]
  simp only [Std.compare_eq_iff_eq]

theorem Flagged.offset_mem (h : state.Flagged offset) : ∃ place ∈ state.places, place.offset = offset := by
  obtain ⟨visit, hvisit, -⟩ := h
  exact ⟨_, mem_places_of_getElem? hvisit, rfl⟩

/-- Places and flags are all that the map says. -/
theorem visited_eq_of_places {other : Exploration} (hplaces : state.places.Perm other.places)
    (hflagged : ∀ offset, state.Flagged offset ↔ other.Flagged offset) :
    state.visited = other.visited := by
  have hsame {left right : Exploration} {offset : UInt32} {visit : Visit}
      (hplaces : left.places.Perm right.places)
      (hflagged : left.Flagged offset ↔ right.Flagged offset)
      (hvisit : left.visited[offset]? = some visit) : right.visited[offset]? = some visit := by
    obtain ⟨found, hfound, hmode⟩ :=
      mem_places.mp (hplaces.mem_iff.mp (mem_places_of_getElem? hvisit))
    have htarget : visit.isTarget = found.isTarget := by
      simp only [Flagged, hvisit, hfound, Option.some.injEq, exists_eq_left'] at hflagged
      exact Bool.eq_iff_iff.mpr hflagged
    rw [hfound]
    rcases visit with ⟨mode, isTarget⟩
    rcases found with ⟨_, _⟩
    exact congrArg some (congrArg₂ Visit.mk hmode htarget.symm)
  refine Std.ExtTreeMap.ext_getElem? fun offset => Option.ext fun visit => ?_
  exact ⟨hsame hplaces (hflagged offset), hsame hplaces.symm (hflagged offset).symm⟩

/-! ## Recording a visit -/

theorem places_recordVisit (h : state.visited[walk.offset]? = none) :
    (state.recordVisit walk).places.Perm (walk.place :: state.places) := by
  have hnew : walk.place ∉ state.places := by
    intro hmem
    obtain ⟨visit, hvisit, -⟩ := mem_places.mp hmem
    exact Option.some_ne_none visit (hvisit.symm.trans h)
  rw [List.perm_ext_iff_of_nodup (nodup_places _) (List.nodup_cons.mpr ⟨hnew, nodup_places _⟩)]
  intro place
  rw [List.mem_cons, mem_places, mem_places]
  simp only [recordVisit, getElem?_insert_visited]
  by_cases hoffset : walk.offset = place.offset
  · rw [if_pos hoffset, ← hoffset, h]
    rcases place with ⟨offset, mode⟩
    simp_all [Walk.place, eq_comm]
  · rw [if_neg hoffset]
    have hne : place ≠ walk.place := fun heq => hoffset (heq ▸ rfl)
    simp [hne]

theorem flagged_recordVisit (h : state.visited[walk.offset]? = none) :
    (state.recordVisit walk).Flagged offset ↔
      state.Flagged offset ∨ walk.atRoot ∧ walk.offset = offset := by
  simp only [Flagged, recordVisit, getElem?_insert_visited]
  by_cases hoffset : walk.offset = offset
  · subst hoffset
    simp [h]
  · simp [hoffset]

/-! ## Marking a destination -/

theorem places_markTarget (h : state.visited[offset]? = some visit) :
    (state.markTarget offset visit).places.Perm state.places := by
  rw [List.perm_ext_iff_of_nodup (nodup_places _) (nodup_places _)]
  intro place
  rw [mem_places, mem_places]
  simp only [markTarget, getElem?_insert_visited]
  by_cases hoffset : offset = place.offset
  · subst hoffset
    simp [h]
  · simp [hoffset]

theorem flagged_markTarget {other : UInt32} :
    (state.markTarget offset visit).Flagged other ↔ state.Flagged other ∨ offset = other := by
  simp only [Flagged, markTarget, getElem?_insert_visited]
  by_cases hoffset : offset = other
  · simp [hoffset]
  · simp [hoffset]

end Exploration

end FlowDisasm
