import FlowDisasm.Proofs.Exploration.History
import Mathlib.Logic.Relation

/-!
# Where places come from

Whatever is visited, pending or under way can be traced to a root that was added, along visited places
and in the modes in which they were visited. Flags have a reason too: an offset is flagged only if it was
asked for or a visited branch leads to it. No failure of an analysis changes this.
-/
namespace FlowDisasm

def Verdict.walk? : Verdict → Option Walk
  | .going walk => some walk
  | _ => none

namespace Exploration

/-- One step of control flow out of a visited place, in the mode of its visit. -/
def Steps (state : Exploration) (subject : Subject) (place next : Root) : Prop :=
  place ∈ state.places ∧ subject.Leads place next

/-- A place is traced if visited places lead to it from one of the roots added. -/
def Traced (state : Exploration) (subject : Subject) (added : List Root) (place : Root) : Prop :=
  ∃ root ∈ added, Relation.ReflTransGen (state.Steps subject) root place

/-- An offset is sought if it is that of a root added, or the destination of a visited branch. -/
def Sought (state : Exploration) (subject : Subject) (added : List Root) (offset : UInt32) : Prop :=
  (∃ root ∈ added, root.offset = offset) ∨
    ∃ place ∈ state.places, subject.destinationAt? place = some offset

/-- Nothing is visited, queued or flagged without a reason. -/
structure Grounded (subject : Subject) (added : List Root) (state : Exploration)
    (verdict : Verdict) : Prop where
  visited : ∀ place ∈ state.places, state.Traced subject added place
  flagged : ∀ offset, state.Flagged offset → state.Sought subject added offset
  pending : ∀ root ∈ state.pending,
    state.Traced subject added root ∧ state.Sought subject added root.offset
  walking : ∀ walk ∈ verdict.walk?, state.Traced subject added walk.place ∧
    (walk.atRoot → state.Sought subject added walk.offset)

variable {subject : Subject} {added more : List Root} {state after : Exploration} {walk : Walk}
  {met : List Root} {verdict : Verdict} {place next : Root} {offset : UInt32}
  {instruction : X86.Instruction}

theorem Traced.mono (h : state.Traced subject added place) (hplaces : state.places ⊆ after.places)
    (hadded : added ⊆ more) : after.Traced subject more place := by
  obtain ⟨root, hroot, hchain⟩ := h
  exact ⟨root, hadded hroot,
    Relation.ReflTransGen.mono (fun _ _ hstep => ⟨hplaces hstep.1, hstep.2⟩) _ _ hchain⟩

theorem Traced.step (h : state.Traced subject added place) (hplace : place ∈ state.places)
    (hleads : subject.Leads place next) : state.Traced subject added next := by
  obtain ⟨root, hroot, hchain⟩ := h
  exact ⟨root, hroot, hchain.tail ⟨hplace, hleads⟩⟩

theorem Sought.mono (h : state.Sought subject added offset) (hplaces : state.places ⊆ after.places)
    (hadded : added ⊆ more) : after.Sought subject more offset := by
  rcases h with ⟨root, hroot, hoffset⟩ | ⟨place, hplace, htarget⟩
  · exact .inl ⟨root, hadded hroot, hoffset⟩
  · exact .inr ⟨place, hplaces hplace, htarget⟩

/-- A later state is grounded if everything new in it has a reason. -/
theorem Grounded.extend {later : Verdict} (h : Grounded subject added state verdict)
    (hadded : added ⊆ more) (hplaces : state.places ⊆ after.places)
    (hvisited : ∀ place ∈ after.places, place ∈ state.places ∨ after.Traced subject more place)
    (hflagged : ∀ offset, after.Flagged offset →
      state.Flagged offset ∨ after.Sought subject more offset)
    (hpending : ∀ root ∈ after.pending, root ∈ state.pending ∨
      after.Traced subject more root ∧ after.Sought subject more root.offset)
    (hwalking : ∀ walk ∈ later.walk?, after.Traced subject more walk.place ∧
      (walk.atRoot → after.Sought subject more walk.offset)) :
    Grounded subject more after later where
  visited place hplace := (hvisited place hplace).elim
    (fun hold => (h.visited place hold).mono hplaces hadded) id
  flagged offset hoffset := (hflagged offset hoffset).elim
    (fun hold => (h.flagged offset hold).mono hplaces hadded) id
  pending root hroot := (hpending root hroot).elim
    (fun hold => (h.pending root hold).imp (fun htraced => htraced.mono hplaces hadded)
      fun hsought => hsought.mono hplaces hadded) id
  walking := hwalking

theorem mem_recordVisit (hnew : state.visited[walk.offset]? = none) :
    place ∈ (state.recordVisit walk).places ↔ place = walk.place ∨ place ∈ state.places :=
  (places_recordVisit hnew).mem_iff.trans List.mem_cons

/-- A walk's place, once visited, is as grounded as the walk was. -/
theorem Grounded.recordVisit (h : Grounded subject added state (.going walk))
    (hnew : state.visited[walk.offset]? = none) (hverdict : verdict.walk? = none) :
    Grounded subject added (state.recordVisit walk) verdict := by
  have hsub : state.places ⊆ (state.recordVisit walk).places := fun place hplace =>
    (mem_recordVisit hnew).mpr (.inr hplace)
  obtain ⟨htraced, hsought⟩ := h.walking walk rfl
  refine h.extend (List.Subset.refl _) hsub ?_ ?_ (fun root => .inl) (by rw [hverdict]; exact nofun)
  · intro place hplace
    rcases (mem_recordVisit hnew).mp hplace with rfl | hold
    · exact .inr (htraced.mono hsub (List.Subset.refl _))
    · exact .inl hold
  · intro offset hflagged
    rcases (flagged_recordVisit hnew).mp hflagged with hold | ⟨hroot, rfl⟩
    · exact .inl hold
    · exact .inr ((hsought hroot).mono hsub (List.Subset.refl _))

theorem walk?_plan (subject : Subject) (instruction : X86.Instruction) (mode : Mode) :
    (subject.plan instruction mode).verdict.walk? =
      if instruction.operation.flow.goesOn then
        some ⟨(subject.behind instruction mode).offset, (subject.behind instruction mode).mode, false⟩
      else none := by
  unfold Course.verdict Subject.plan
  cases instruction.operation.flow.goesOn <;> rfl

/-- What an instruction leads to is traced through its place. -/
theorem Grounded.follow (h : Grounded subject added state .finished) (hplace : walk.place ∈ state.places)
    (hread : subject.decodeAt walk.place = .ok instruction) :
    Grounded subject added
      (state.follow instruction walk.mode (subject.plan instruction walk.mode))
      (subject.plan instruction walk.mode).verdict := by
  have hsub : state.places ⊆
      (state.follow instruction walk.mode (subject.plan instruction walk.mode)).places := by
    rw [places_follow]
    exact List.Subset.refl _
  have hstep {next : Root} (hnext : subject.Successor instruction walk.mode next) :
      (state.follow instruction walk.mode (subject.plan instruction walk.mode)).Traced subject added
        next :=
    ((h.visited walk.place hplace).step hplace ⟨instruction, hread, hnext⟩).mono hsub
      (List.Subset.refl _)
  refine h.extend (List.Subset.refl _) hsub ?_ (fun offset hflagged => .inl (flagged_follow.mp hflagged))
    ?_ ?_
  · intro place hold
    rw [places_follow] at hold
    exact .inl hold
  · intro root hroot
    rw [pending_follow, List.mem_append] at hroot
    refine hroot.imp_right fun hbranch => ?_
    obtain ⟨target, htarget, rfl⟩ := Option.map_eq_some_iff.mp (Option.mem_toList.mp hbranch)
    have hat : subject.destinationAt? walk.place = some target :=
      (Subject.destinationAt?_of_ok hread).trans htarget
    exact ⟨hstep (.branch htarget), .inr ⟨walk.place, hsub hplace, hat⟩⟩
  · intro next hnext
    rw [walk?_plan] at hnext
    split at hnext
    · rename_i hgoes
      obtain rfl := Option.some.inj hnext
      exact ⟨hstep (.behind hgoes), nofun⟩
    · cases hnext

theorem Grounded.stride (h : Grounded subject added state (.going walk))
    (hstep : Strides subject state walk met after verdict) :
    Grounded subject added after verdict := by
  cases hstep with
  | beyond hout => exact { h with walking := nofun }
  | @known visit hin hvisit =>
    split
    · rename_i hroot
      have hplaces := places_markTarget hvisit
      obtain ⟨-, hsought⟩ := h.walking walk rfl
      refine h.extend (List.Subset.refl _) hplaces.symm.subset
        (fun place hplace => .inl (hplaces.mem_iff.mp hplace)) ?_ (fun root => .inl) nofun
      intro offset hflagged
      rcases flagged_markTarget.mp hflagged with hold | rfl
      · exact .inl hold
      · exact .inr ((hsought hroot).mono hplaces.symm.subset (List.Subset.refl _))
    · exact { h with walking := nofun }
  | unreadable hin hnew hread => exact { h with walking := nofun }
  | stuck hin hnew hread hcourse => exact h.recordVisit hnew rfl
  | passed hin hnew hread hcourse =>
    have hvisited : Grounded subject added (state.recordVisit walk) .finished := h.recordVisit hnew rfl
    exact hvisited.follow ((mem_recordVisit hnew).mpr (.inl rfl)) hread

theorem Grounded.take {root : Root} {rest : List Root} (h : Grounded subject added state .finished)
    (hroot : state.pending = root :: rest) :
    Grounded subject added { state with pending := rest } (.going root.walk) where
  visited := h.visited
  flagged := h.flagged
  pending next hnext := h.pending next (hroot ▸ List.mem_cons_of_mem _ hnext)
  walking walk hwalk := by
    obtain rfl := Option.some.inj hwalk
    obtain ⟨htraced, hsought⟩ := h.pending root (hroot ▸ List.mem_cons_self)
    exact ⟨htraced, fun _ => hsought⟩

/-- Between two analyses no walk is under way. -/
theorem Grounded.rest (h : Grounded subject added state verdict) :
    Grounded subject added state .finished :=
  { h with walking := nofun }

end Exploration

namespace Session

open Exploration

theorem run_grounded (subject : Subject) (history : List Request) :
    Grounded subject (roots history) (run subject history).state .finished := by
  refine run_induction (P := fun history session =>
    Grounded subject (roots history) session.state .finished) ?_ ?_ history
  · exact { visited := nofun, flagged := by simp [Flagged], pending := nofun, walking := nofun }
  · intro history session request h
    rw [roots_concat]
    cases request with
    | root offset mode name =>
      obtain ⟨labels, hroot⟩ := addRoot_eq session.state offset mode name
      simp only [perform, hroot]
      refine h.extend (List.subset_append_left _ _) (List.Subset.refl _) (fun place => .inl)
        (fun offset => .inl) ?_ nofun
      intro root hmem
      refine (List.mem_append.mp hmem).imp_right fun hnew => ?_
      have hadded : root ∈ roots history ++ [⟨offset, mode⟩] := List.mem_append_right _ hnew
      exact ⟨⟨root, hadded, .refl⟩, .inl ⟨root, hadded, rfl⟩⟩
    | label offset name => simpa [Request.root?] using { h with }
    | segment start => simpa [Request.root?] using { h with }
    | analyze =>
      obtain ⟨walks, trace, result, hdrained, -⟩ := perform_analyze subject session
      simpa [Request.root?] using (hdrained.invariant Grounded.stride Grounded.take h).rest

theorem finish_grounded (subject : Subject) (history : List Request) :
    Grounded subject (roots history) (finish subject history).state .finished := by
  have h := run_grounded subject (history ++ [.analyze])
  rwa [roots_analyze] at h

end Session

end FlowDisasm
