import FlowDisasm.Proofs.Exploration.Strides
import Mathlib.Data.Finset.Card
import Mathlib.Order.Interval.Finset.Nat

/-!
# Analyses end

A step that lets a walk go on visits an address of the image for the first time, so walks are bounded by
the addresses that are left. A root is queued only together with such a visit, so every walk uses up
either a root that was pending or a visit. The fuel of an analysis is more than both together and never
runs out.
-/
namespace FlowDisasm.Exploration

def unvisited (state : Exploration) (image : Image) : Finset Nat :=
  Finset.Ico image.base.toNat image.limit \
    (state.places.map fun place => place.offset.toNat).toFinset

/-- The answer to who asked for an analysis. -/
def answer : Option Error → Except Error Unit
  | none => .ok ()
  | some error => .error error

variable {subject : Subject} {state after : Exploration} {walk : Walk} {met trace : List Root}
  {verdict : Verdict} {result : Option Error} {walks : Nat}

theorem card_unvisited_le (state : Exploration) (image : Image) :
    (state.unvisited image).card ≤ image.bytes.size := by
  calc (state.unvisited image).card
    _ ≤ (Finset.Ico image.base.toNat image.limit).card := Finset.card_le_card Finset.sdiff_subset
    _ = image.bytes.size := by rw [Nat.card_Ico, Image.limit]; omega

theorem nodup_addresses (state : Exploration) :
    (state.places.map fun place => place.offset.toNat).Nodup := by
  have h := (nodup_offsets state).map fun first second => UInt32.toNat_inj.mp
  rwa [List.map_map] at h

/-- Every new visit is at an address that was left. -/
theorem Grows.card_unvisited (h : Grows subject state trace after) :
    (after.unvisited subject.image).card + trace.length = (state.unvisited subject.image).card := by
  let address := fun place : Root => place.offset.toNat
  have hperm : (after.places.map address).Perm (trace.map address ++ state.places.map address) := by
    rw [← List.map_append]
    exact h.places.map address
  have hnodup := hperm.nodup_iff.mp (nodup_addresses after)
  have hdisjoint := List.disjoint_of_nodup_append hnodup
  have hafter : after.unvisited subject.image =
      state.unvisited subject.image \ (trace.map address).toFinset := by
    rw [unvisited, unvisited, List.toFinset_eq_of_perm _ _ hperm, List.toFinset_append,
      Finset.union_comm, sdiff_sdiff_left]
    rfl
  have hleft : (trace.map address).toFinset ⊆ state.unvisited subject.image := by
    intro number hnumber
    rw [List.mem_toFinset] at hnumber
    obtain ⟨place, hplace, rfl⟩ := List.mem_map.mp hnumber
    obtain ⟨instruction, hread⟩ := h.readable place hplace
    rw [unvisited, Finset.mem_sdiff, Finset.mem_Ico, List.mem_toFinset]
    exact ⟨Subject.bounds_of_decodeAt hread, fun hold => hdisjoint hnumber hold⟩
  have hcard : (trace.map address).toFinset.card = trace.length := by
    rw [List.toFinset_card_of_nodup (List.Nodup.of_append_left hnodup), List.length_map]
  rw [hafter, ← hcard]
  exact Finset.card_sdiff_add_card_eq_card hleft

theorem Strides.length_pending_le (h : Strides subject state walk met after verdict) :
    after.pending.length ≤ state.pending.length + met.length := by
  cases h with
  | beyond hout => simp
  | known hin hvisit => split <;> simp [markTarget]
  | unreadable hin hnew hread => simp
  | stuck hin hnew hread hcourse => simp [recordVisit]
  | @passed instruction hin hnew hread hcourse =>
    rw [pending_follow, List.length_append]
    cases hbranch : instruction.destination? walk.mode <;>
      simp [Subject.plan, hbranch, recordVisit]

theorem Strides.met_of_going {next : Walk} (h : Strides subject state walk met after (.going next)) :
    met.length = 1 := by
  rw [h.passes_of_going.1, List.length_singleton]

theorem Walked.length_pending_le (h : Walked subject state walk trace after result) :
    after.pending.length ≤ state.pending.length + trace.length := by
  induction h with
  | finished h => exact h.length_pending_le
  | failed h => exact h.length_pending_le
  | going h rest ih =>
    have hstep := h.length_pending_le
    rw [List.length_append]
    omega

/-- Every walk takes a root, and every visit gives back one at most. -/
theorem Drained.length_pending_le (h : Drained subject state walks trace after result) :
    after.pending.length + walks ≤ state.pending.length + trace.length := by
  induction h with
  | idle h => simp
  | @failed _ after _ rest trace _ hroot h =>
    have hwalk : after.pending.length ≤ rest.length + trace.length := h.length_pending_le
    rw [hroot, List.length_cons]
    omega
  | @walked _ after _ _ rest trace _ _ _ hroot h others ih =>
    have hwalk : after.pending.length ≤ rest.length + trace.length := h.length_pending_le
    rw [hroot, List.length_cons, List.length_append]
    omega

theorem Drained.walks_pos (h : Drained subject state walks trace after result)
    (hpending : state.pending ≠ []) : 0 < walks := by
  cases h with
  | idle hidle => exact absurd hidle hpending
  | failed => exact Nat.zero_lt_one
  | walked => exact Nat.succ_pos _

/-! ## Fuel -/

/-- Fuel beyond the addresses that are left is as good as none: the walk comes to its own end. -/
theorem walkOn_walked {fuel : Nat} (hfuel : (state.unvisited subject.image).card < fuel)
    (log : Array Record) (walk : Walk) : ∃ trace, Walked subject state walk trace
      (walkOn subject fuel state log walk).1 (walkOn subject fuel state log walk).2.2 := by
  induction fuel generalizing state walk log with
  | zero => exact absurd hfuel (Nat.not_lt_zero _)
  | succ fuel ih =>
    obtain ⟨met, hstep⟩ := stride_strides state subject walk
    unfold walkOn
    generalize state.stride subject walk = stride at hstep
    obtain ⟨after, verdict, records⟩ := stride
    simp only at hstep ⊢
    cases verdict with
    | finished => exact ⟨met, .finished hstep⟩
    | failed error => exact ⟨met, .failed hstep⟩
    | going next =>
      have hvisit := hstep.grows.card_unvisited
      have hmet := hstep.met_of_going
      have hroom : (after.unvisited subject.image).card < fuel := by omega
      obtain ⟨trace, hrest⟩ := ih hroom (log ++ records.toArray) next
      exact ⟨met ++ trace, .going hstep hrest⟩

theorem drain_drained {fuel : Nat}
    (hfuel : state.pending.length + (state.unvisited subject.image).card < fuel) (log : Array Record)
    (count : Nat) : ∃ walks trace, Drained subject state walks trace
      (drain subject fuel state log count).1 (drain subject fuel state log count).2.2.2 := by
  induction fuel generalizing state log count with
  | zero => exact absurd hfuel (Nat.not_lt_zero _)
  | succ fuel ih =>
    unfold drain
    cases hpending : state.pending with
    | nil => exact ⟨0, [], .idle hpending⟩
    | cons root rest =>
      have hroom : ({ state with pending := rest }.unvisited subject.image).card <
          subject.image.bytes.size + 1 := Nat.lt_succ_of_le (card_unvisited_le _ _)
      obtain ⟨trace, hwalk⟩ := walkOn_walked hroom log root.walk
      simp only [walkFrom]
      generalize hend : walkOn subject (subject.image.bytes.size + 1)
        { state with pending := rest } log ⟨root.offset, root.mode, true⟩ = ended
      rw [Root.walk, hend] at hwalk
      obtain ⟨after, records, result⟩ := ended
      cases result with
      | some error => exact ⟨1, trace, .failed hpending hwalk⟩
      | none =>
        have hvisits : (after.unvisited subject.image).card + trace.length =
            (state.unvisited subject.image).card := hwalk.grows.card_unvisited
        have hqueue : after.pending.length ≤ rest.length + trace.length := hwalk.length_pending_le
        rw [hpending, List.length_cons] at hfuel
        have hleft : after.pending.length + (after.unvisited subject.image).card < fuel := by omega
        obtain ⟨walks, more, hothers⟩ := ih hleft records (count + 1)
        exact ⟨walks + 1, trace ++ more, .walked hpending hwalk hothers⟩

theorem analyze_drained (state : Exploration) (subject : Subject) : ∃ walks trace result,
    Drained subject state walks trace (state.analyze subject).1 result ∧
      (state.analyze subject).2.2 = answer result := by
  have hfuel : state.pending.length + (state.unvisited subject.image).card <
      state.pending.length + subject.image.bytes.size + 1 :=
    Nat.lt_succ_of_le (Nat.add_le_add_left (card_unvisited_le state subject.image) _)
  obtain ⟨walks, trace, h⟩ := drain_drained hfuel #[] 0
  simp only [analyze]
  generalize drain subject (state.pending.length + subject.image.bytes.size + 1) state #[] 0 =
    drained at h ⊢
  obtain ⟨after, log, count, result⟩ := drained
  cases result with
  | none => exact ⟨walks, trace, none, h, rfl⟩
  | some error => exact ⟨walks, trace, some error, h, rfl⟩

/-! ## Repeated analyses -/

theorem analyze_pending_nil (h : state.pending = []) : (state.analyze subject).1.pending = [] := by
  obtain ⟨walks, trace, result, hdrained, -⟩ := analyze_drained state subject
  generalize (state.analyze subject).1 = after at hdrained
  cases hdrained with
  | idle => exact h
  | failed hroot => exact absurd (h.symm.trans hroot) (List.cons_ne_nil _ _).symm
  | walked hroot => exact absurd (h.symm.trans hroot) (List.cons_ne_nil _ _).symm

/-- An analysis with anything to do, failed or not, leaves less to do. -/
theorem analyze_work_lt (subject : Subject) (h : state.pending ≠ []) :
    (state.analyze subject).1.pending.length +
        ((state.analyze subject).1.unvisited subject.image).card <
      state.pending.length + (state.unvisited subject.image).card := by
  obtain ⟨walks, trace, result, hdrained, -⟩ := analyze_drained state subject
  have hvisits := hdrained.grows.card_unvisited
  have hqueue := hdrained.length_pending_le
  have hwalks := hdrained.walks_pos h
  omega

theorem iterate_idle (calls : ℕ) (h : state.pending = []) :
    ((fun later => (later.analyze subject).1)^[calls] state).pending = [] := by
  induction calls generalizing state with
  | zero => exact h
  | succ calls ih =>
    rw [Function.iterate_succ_apply]
    exact ih (analyze_pending_nil h)

theorem iterate_pending_nil (calls : ℕ)
    (h : state.pending.length + (state.unvisited subject.image).card ≤ calls) :
    ((fun later => (later.analyze subject).1)^[calls] state).pending = [] := by
  induction calls generalizing state with
  | zero => exact List.length_eq_zero_iff.mp (by simp only [Function.iterate_zero, id]; omega)
  | succ calls ih =>
    rw [Function.iterate_succ_apply]
    by_cases hpending : state.pending = []
    · exact iterate_idle calls (analyze_pending_nil hpending)
    · have hless := analyze_work_lt subject hpending
      exact ih (by omega)

/-- In any state an analysis is a finite chain of walks, with no more visits than there are addresses
left and no more walks than roots and visits. Who repeats it, whatever fails, has an empty queue after
as many calls as there were roots and addresses left. -/
theorem analyze_ends_within (subject : Subject) (state : Exploration) :
    (∃ walks trace result,
      Drained subject state walks trace (state.analyze subject).1 result ∧
      (state.analyze subject).2.2 = answer result ∧
      (state.analyze subject).1.decoded = state.decoded + trace.length ∧
      trace.length ≤ (state.unvisited subject.image).card ∧
      walks ≤ state.pending.length + trace.length) ∧
    ∀ calls, state.pending.length + (state.unvisited subject.image).card ≤ calls →
      ((fun later => (later.analyze subject).1)^[calls] state).pending = [] := by
  refine ⟨?_, fun calls => iterate_pending_nil calls⟩
  obtain ⟨walks, trace, result, hdrained, hanswer⟩ := analyze_drained state subject
  have hvisits := hdrained.grows.card_unvisited
  have hqueue := hdrained.length_pending_le
  exact ⟨walks, trace, result, hdrained, hanswer, hdrained.grows.decoded, by omega, by omega⟩

end FlowDisasm.Exploration
