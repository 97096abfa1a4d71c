import Ithax.Ecs.Tick
import Mathlib.Data.List.Basic

/-!
# Merges that are refused

`MergeJournals` checks the number of journals, their indexes and the number of their
updates first, but whether an index is missing or an update stale only when it gets
there, with the updates before it already applied. `mergeSteps` is the order in which
it gets there.

## Results

* `mergeSorted_steps`              — the merge is the loop over these steps.
* `mergeJournals_error_iff`        — what a merge throws at, and the world it leaves.
* `refused_merge_unchanged_iff`    — the journals whose refusal changes nothing.
-/

namespace Ithax.Ecs

open Ithax.Lib

-- ---------------------------------------------------------------------------
-- The steps of a merge
-- ---------------------------------------------------------------------------

/-- A journal that is begun, or an update at its place in its journal and in the world. -/
inductive MergeStep where
  | journal (workerIndex journalIndex : Nat)
  | update (entry : TransformUpdate) (updateIndex updateOffset : Nat)
  deriving DecidableEq, Repr

namespace MergeStep

/-- The check of a step, against a world. -/
def fits (w : EcsWorld) : MergeStep → Bool
  | .journal workerIndex journalIndex => workerIndex == journalIndex
  | .update entry updateIndex updateOffset => matchesWorld w entry updateIndex updateOffset

/-- What a step does to the world. -/
def act : MergeStep → EcsWorld → EcsWorld
  | .journal _ _, w => w
  | .update entry _ _, w => w.setTransform entry.entity entry.value

/-- What is thrown when its check fails. -/
def refusal : MergeStep → EcsError
  | .journal _ _ => .ecsError "journal worker indexes are not contiguous"
  | .update _ _ _ => .ecsError "journal update does not match stable world state"

end MergeStep

/-- The steps of one journal's updates. -/
def updateSteps : List TransformUpdate → Nat → Nat → List MergeStep
  | [], _, _ => []
  | update :: updates, updateIndex, updateOffset =>
    .update update updateIndex updateOffset ::
      updateSteps updates (updateIndex + 1) (updateOffset + 1)

/-- The steps of all journals. -/
def mergeSteps : List EcsJournal → Nat → Nat → List MergeStep
  | [], _, _ => []
  | journal :: journals, journalIndex, updateOffset =>
    .journal journal.workerIndex journalIndex ::
      (updateSteps journal.transforms 0 updateOffset ++
        mergeSteps journals (journalIndex + 1) (updateOffset + journal.transforms.length))

/-- The checks look at nothing that an accepted update changes. -/
theorem matchesWorld_setTransform {w : EcsWorld} {update : TransformUpdate} {index offset : Nat}
    (h : matchesWorld w update index offset = true) :
    matchesWorld (w.setTransform update.entity update.value) = matchesWorld w := by
  funext other otherIndex otherOffset
  have hSome : (w.registry.transform update.entity).isSome = true := by
    simp only [matchesWorld, Bool.and_eq_true] at h
    exact h.1.2
  have hOther : ((w.setTransform update.entity update.value).registry.transform
      other.entity).isSome = (w.registry.transform other.entity).isSome := by
    show (Function.update w.registry.transform update.entity (some update.value)
      other.entity).isSome = _
    by_cases hSame : other.entity = update.entity
    · rw [hSame, Function.update_self, hSome]
      rfl
    · rw [Function.update_of_ne hSame]
  unfold matchesWorld
  rw [hOther]
  rfl

/-- A step changes nothing that is checked. -/
theorem fits_act {w : EcsWorld} {step : MergeStep} (h : step.fits w = true) :
    MergeStep.fits (step.act w) = MergeStep.fits w := by
  cases step with
  | journal workerIndex journalIndex => rfl
  | update update index offset =>
    funext other
    cases other with
    | journal workerIndex journalIndex => rfl
    | update other otherIndex otherOffset =>
      show matchesWorld (w.setTransform update.entity update.value) other otherIndex otherOffset = _
      rw [matchesWorld_setTransform h]
      rfl

/-- Nor do many steps. -/
theorem fits_actAll {steps : List MergeStep} : ∀ {w : EcsWorld},
    (∀ step ∈ steps, step.fits w = true) →
    MergeStep.fits (actAll MergeStep.act steps w) = MergeStep.fits w := by
  induction steps with
  | nil =>
    intro w _
    rfl
  | cons step steps ih =>
    intro w hFits
    obtain ⟨hFirst, hRest⟩ := List.forall_mem_cons.mp hFits
    have hAct := fits_act hFirst
    have hLater : ∀ later ∈ steps, later.fits (step.act w) = true := by
      intro later hMem
      rw [hAct]
      exact hRest later hMem
    exact (ih hLater).trans hAct

/-- The merge of the steps, with every check made in the world before the merge. -/
abbrev runSteps (w : EcsWorld) (steps : List MergeStep) : WorldM Unit :=
  guardedRun (MergeStep.fits w) MergeStep.act MergeStep.refusal steps

/-- The inner loop. -/
theorem mergeUpdates_steps (w₀ : EcsWorld) (updates : List TransformUpdate) :
    ∀ (index offset : Nat) (w : EcsWorld), MergeStep.fits w = MergeStep.fits w₀ →
      mergeUpdates updates index offset w =
        (runSteps w₀ (updateSteps updates index offset) >>= fun _ =>
          pure (offset + updates.length)) w := by
  induction updates with
  | nil =>
    intro index offset w _
    rfl
  | cons update updates ih =>
    intro index offset w hSame
    have hFits : (MergeStep.update update index offset).fits w₀ =
        matchesWorld w update index offset := by
      rw [← hSame]
      rfl
    cases hMatches : matchesWorld w update index offset with
    | true =>
      rw [hMatches] at hFits
      have hNext : MergeStep.fits (w.setTransform update.entity update.value) =
          MergeStep.fits w₀ :=
        (@fits_act w (.update update index offset) hMatches).trans hSame
      have hTail := ih (index + 1) (offset + 1) _ hNext
      rw [Nat.add_assoc, Nat.add_comm 1] at hTail
      rw [mergeUpdates_cons w update updates hMatches, List.length_cons, updateSteps]
      simp only [bind, EStateM.bind, runSteps, guardedRun_cons_of_fits _ _ _ hFits] at hTail ⊢
      exact hTail
    | false =>
      rw [hMatches] at hFits
      rw [mergeUpdates, updateSteps]
      simp only [bind, EStateM.bind, get, getThe, MonadStateOf.get, get_apply, hMatches,
        runSteps, guardedRun_cons_of_refused _ _ _ hFits]
      rfl

/-- The outer loop. -/
theorem mergeSorted_steps (w₀ : EcsWorld) (journals : List EcsJournal) :
    ∀ (index offset : Nat) (w : EcsWorld), MergeStep.fits w = MergeStep.fits w₀ →
      mergeSorted journals index offset w = runSteps w₀ (mergeSteps journals index offset) w := by
  induction journals with
  | nil =>
    intro index offset w _
    rfl
  | cons journal journals ih =>
    intro index offset w hSame
    rw [mergeSorted, mergeSteps]
    by_cases hIndex : journal.workerIndex = index
    · have hFits : (MergeStep.journal journal.workerIndex index).fits w₀ = true := by
        simp [MergeStep.fits, hIndex]
      have hUpdates := mergeUpdates_steps w₀ journal.transforms 0 offset w hSame
      rw [if_neg (not_not_intro hIndex), runSteps, guardedRun_cons_of_fits _ _ _ hFits,
        guardedRun_append]
      show (mergeUpdates journal.transforms 0 offset >>= _) w = _
      simp only [bind, EStateM.bind, MergeStep.act, runSteps] at hUpdates ⊢
      rw [hUpdates]
      rcases hRun : guardedRun (MergeStep.fits w₀) MergeStep.act MergeStep.refusal
        (updateSteps journal.transforms 0 offset) w with ⟨done, next⟩ | ⟨e, next⟩
      · obtain ⟨hAll, rfl⟩ := (guardedRun_ok_iff _ _ _).mp hRun
        rw [← hSame] at hAll
        exact ih (index + 1) _ _ ((fits_actAll hAll).trans hSame)
      · rfl
    · have hFits : (MergeStep.journal journal.workerIndex index).fits w₀ = false := by
        simp [MergeStep.fits, hIndex]
      rw [if_pos hIndex, runSteps, guardedRun_cons_of_refused _ _ _ hFits]
      rfl

-- ---------------------------------------------------------------------------
-- What is checked before the first step
-- ---------------------------------------------------------------------------

/-- The number of updates in all journals. -/
def updateCount (journals : List EcsJournal) : Nat :=
  (journals.map fun journal => journal.transforms.length).sum

/-- The journals that `MergeJournals` begins to apply. -/
structure Admitted (caller : ThreadId) (journals : List EcsJournal) (w : EcsWorld) : Prop where
  owner : caller = w.ownerThread
  nonempty : journals ≠ []
  few : journals.length ≤ MAX_WORLD_WORKERS
  indexes : ∀ journal ∈ journals, journal.workerIndex < journals.length
  covers : updateCount journals = w.entityOrder.length

/-- Counting throws for an index or a number out of bounds, and changes nothing. -/
theorem countUpdates_result (w : EcsWorld) (journalCount : Nat) (journals : List EcsJournal) :
    ∀ total : Nat,
      (∃ e, countUpdates journalCount journals total w = .error e w) ∨
      (countUpdates journalCount journals total w = .ok (total + updateCount journals) w ∧
        ∀ journal ∈ journals, journal.workerIndex < journalCount) := by
  induction journals with
  | nil =>
    intro total
    exact Or.inr ⟨rfl, by simp⟩
  | cons journal journals ih =>
    intro total
    rw [countUpdates]
    by_cases hIndex : journalCount ≤ journal.workerIndex
    · rw [if_pos hIndex]
      exact Or.inl ⟨_, rfl⟩
    · rw [if_neg hIndex]
      by_cases hRoom : MAX_JOURNAL_UPDATES - total < journal.transforms.length
      · rw [if_pos hRoom]
        exact Or.inl ⟨_, rfl⟩
      · rw [if_neg hRoom]
        have hTotal : total + updateCount (journal :: journals) =
            total + journal.transforms.length + updateCount journals := by
          simp only [updateCount, List.map_cons, List.sum_cons]
          omega
        rcases ih (total + journal.transforms.length) with hThrows | ⟨hCount, hRest⟩
        · exact Or.inl hThrows
        · refine Or.inr ⟨hTotal ▸ hCount, ?_⟩
          intro other hMem
          rcases List.mem_cons.mp hMem with rfl | hIn
          · omega
          · exact hRest other hIn

section Prechecks

variable {caller : ThreadId} {s : JournalSort} {journals : List EcsJournal} {w : EcsWorld}

/-- Sorting does not change it. -/
theorem updateCount_sort : updateCount (s.sort journals) = updateCount journals :=
  ((s.perm journals).map _).sum_nat

/-- A merge that gets past the first checks. -/
theorem mergeJournals_of_admitted (h : Admitted caller journals w) :
    mergeJournals caller s journals w = runSteps w (mergeSteps (s.sort journals) 0 0) w := by
  have hBounds : ¬(journals = [] ∨ MAX_WORLD_WORKERS < journals.length) := by
    intro hBad
    rcases hBad with hNone | hMany
    · exact h.nonempty hNone
    · exact Nat.not_le.mpr hMany h.few
  have hIndexes : ∀ journal ∈ s.sort journals, journal.workerIndex < journals.length := by
    intro journal hMem
    exact h.indexes journal ((s.perm journals).mem_iff.mp hMem)
  have hCovers : updateCount (s.sort journals) = w.entityOrder.length :=
    updateCount_sort.trans h.covers
  have hFew : 0 + ((s.sort journals).map fun journal => journal.transforms.length).sum ≤
      MAX_JOURNAL_UPDATES := by
    have hBounded := w.bounded
    rw [← hCovers] at hBounded
    rw [Nat.zero_add]
    exact hBounded
  have hCount := countUpdates_eq w hIndexes hFew
  have hTotal : 0 + ((s.sort journals).map fun journal => journal.transforms.length).sum =
      w.entityOrder.length := by
    rw [Nat.zero_add]
    exact hCovers
  rw [hTotal] at hCount
  have hMerge := mergeSorted_steps w (s.sort journals) 0 0 w rfl
  unfold mergeJournals
  simp only [h.owner, hBounds, if_false, bind, EStateM.bind, assertOwner, get, getThe,
    MonadStateOf.get, get_apply, ne_eq, not_true_eq_false, pure, EStateM.pure, hCount]
  exact hMerge

/-- A merge that does not leaves the world as it was. -/
theorem mergeJournals_of_not_admitted (h : ¬Admitted caller journals w) :
    ∃ e, mergeJournals caller s journals w = .error e w := by
  unfold mergeJournals
  by_cases hOwner : caller = w.ownerThread
  swap
  · refine ⟨.ownershipError "ECS access was attempted off the owner thread", ?_⟩
    simp only [bind, EStateM.bind, assertOwner, get, getThe, MonadStateOf.get, get_apply, ne_eq,
      hOwner, not_false_eq_true, if_true]
    rfl
  by_cases hBounds : journals = [] ∨ MAX_WORLD_WORKERS < journals.length
  · refine ⟨.ecsError "journal count is outside its bound", ?_⟩
    simp only [bind, EStateM.bind, assertOwner, get, getThe, MonadStateOf.get, get_apply, ne_eq,
      hOwner, not_true_eq_false, if_false, pure, EStateM.pure, hBounds, if_true]
    rfl
  rcases countUpdates_result w journals.length (s.sort journals) 0 with ⟨e, hThrows⟩ | hCounted
  · refine ⟨e, ?_⟩
    simp only [bind, EStateM.bind, assertOwner, get, getThe, MonadStateOf.get, get_apply, ne_eq,
      hOwner, not_true_eq_false, if_false, pure, EStateM.pure, hBounds, hThrows]
  obtain ⟨hCount, hIndexes⟩ := hCounted
  rw [Nat.zero_add, updateCount_sort] at hCount
  have hOpen : updateCount journals ≠ w.entityOrder.length := by
    intro hCovers
    obtain ⟨hNonempty, hMany⟩ := not_or.mp hBounds
    refine h ⟨hOwner, hNonempty, Nat.not_lt.mp hMany, ?_, hCovers⟩
    intro journal hMem
    exact hIndexes journal ((s.perm journals).mem_iff.mpr hMem)
  refine ⟨.ecsError "journals did not cover the complete world snapshot", ?_⟩
  simp only [bind, EStateM.bind, assertOwner, get, getThe, MonadStateOf.get, get_apply, ne_eq,
    hOwner, not_true_eq_false, if_false, pure, EStateM.pure, hBounds, hCount, hOpen,
    not_false_eq_true, if_true]
  rfl

/-- What a merge throws at, and the world it leaves. -/
theorem mergeJournals_error_iff (h : Admitted caller journals w) {e : EcsError}
    {after : EcsWorld} : mergeJournals caller s journals w = .error e after ↔
      ∃ done step rest, mergeSteps (s.sort journals) 0 0 = done ++ step :: rest ∧
        (∀ other ∈ done, other.fits w = true) ∧ step.fits w = false ∧ e = step.refusal ∧
        after = actAll MergeStep.act done w := by
  rw [mergeJournals_of_admitted h]
  exact guardedRun_error_iff _ _ _

end Prechecks

-- ---------------------------------------------------------------------------
-- The world that a refused merge leaves
-- ---------------------------------------------------------------------------

/-- No two steps update the same entity. -/
def Apart (step later : MergeStep) : Prop :=
  ∀ entry index offset entry' index' offset', step = .update entry index offset →
    later = .update entry' index' offset' → offset < offset'

/-- The place of an update in the world, within its journal. -/
theorem offset_updateSteps {updates : List TransformUpdate} {entry : TransformUpdate}
    {place at_ : Nat} : ∀ {index offset : Nat},
    MergeStep.update entry place at_ ∈ updateSteps updates index offset →
    offset ≤ at_ ∧ at_ < offset + updates.length := by
  induction updates with
  | nil =>
    intro index offset h
    cases h
  | cons update updates ih =>
    intro index offset h
    rw [List.length_cons]
    rcases List.mem_cons.mp h with hSame | hLater
    · cases hSame
      omega
    · have hBounds := ih hLater
      omega

/-- The same, within all journals. -/
theorem offset_mergeSteps {journals : List EcsJournal} {entry : TransformUpdate}
    {place at_ : Nat} : ∀ {index offset : Nat},
    MergeStep.update entry place at_ ∈ mergeSteps journals index offset → offset ≤ at_ := by
  induction journals with
  | nil =>
    intro index offset h
    cases h
  | cons journal journals ih =>
    intro index offset h
    rcases List.mem_cons.mp h with hSame | hLater
    · cases hSame
    · rcases List.mem_append.mp hLater with hHere | hBeyond
      · exact (offset_updateSteps hHere).1
      · exact Nat.le_trans (Nat.le_add_right _ _) (ih hBeyond)

/-- No two updates of a journal have one place. -/
theorem apart_updateSteps (updates : List TransformUpdate) : ∀ index offset : Nat,
    (updateSteps updates index offset).Pairwise Apart := by
  induction updates with
  | nil =>
    intro index offset
    exact List.Pairwise.nil
  | cons update updates ih =>
    intro index offset
    refine List.Pairwise.cons ?_ (ih _ _)
    intro later hLater entry place at_ entry' place' at' hStep hNext
    cases hStep
    rw [hNext] at hLater
    have hBounds := offset_updateSteps hLater
    omega

/-- No two updates have one place. -/
theorem apart_mergeSteps (journals : List EcsJournal) : ∀ index offset : Nat,
    (mergeSteps journals index offset).Pairwise Apart := by
  induction journals with
  | nil =>
    intro index offset
    exact List.Pairwise.nil
  | cons journal journals ih =>
    intro index offset
    refine List.Pairwise.cons ?_ (List.pairwise_append.mpr ⟨apart_updateSteps _ _ _, ih _ _, ?_⟩)
    · intro later _ entry place at_ entry' place' at' hStep
      cases hStep
    · intro step hStep later hLater entry place at_ entry' place' at' hHere hBeyond
      rw [hHere] at hStep
      rw [hBeyond] at hLater
      have hUpper := (offset_updateSteps hStep).2
      have hLower := offset_mergeSteps hLater
      omega

/-- An update that fits is of the entity at its place. -/
theorem entity_of_fits {w : EcsWorld} {entry : TransformUpdate} {index offset : Nat}
    (h : (MergeStep.update entry index offset).fits w = true) :
    w.entityOrder[offset]? = some entry.entity := by
  have hMatches : matchesWorld w entry index offset = true := h
  simp only [matchesWorld, Bool.and_eq_true, beq_iff_eq] at hMatches
  exact hMatches.2

/-- An entity that no step names keeps its transform. -/
theorem transform_actAll_of_unnamed {steps : List MergeStep} {entity : Entity} :
    ∀ {w : EcsWorld},
    (∀ entry index offset, MergeStep.update entry index offset ∈ steps → entry.entity ≠ entity) →
    (actAll MergeStep.act steps w).registry.transform entity = w.registry.transform entity := by
  induction steps with
  | nil =>
    intro w _
    rfl
  | cons step steps ih =>
    intro w hUnnamed
    have hRest := @ih (step.act w) fun entry index offset hMem =>
      hUnnamed entry index offset (List.mem_cons_of_mem _ hMem)
    refine hRest.trans ?_
    cases step with
    | journal workerIndex journalIndex => rfl
    | update entry index offset =>
      have hOther := hUnnamed entry index offset List.mem_cons_self
      exact Function.update_of_ne (Ne.symm hOther) _ _

/-- An entity that a step names has the value of that step in the end. -/
theorem transform_actAll_of_named {w₀ : EcsWorld} {steps : List MergeStep}
    {entry : TransformUpdate} {index offset : Nat} : ∀ {w : EcsWorld},
    (∀ step ∈ steps, step.fits w₀ = true) → steps.Pairwise Apart →
    MergeStep.update entry index offset ∈ steps →
    (actAll MergeStep.act steps w).registry.transform entry.entity = some entry.value := by
  induction steps with
  | nil =>
    intro w _ _ hMem
    cases hMem
  | cons step steps ih =>
    intro w hFits hApart hMem
    obtain ⟨hFirst, hRest⟩ := List.forall_mem_cons.mp hFits
    obtain ⟨hAhead, hLater⟩ := List.pairwise_cons.mp hApart
    rcases List.mem_cons.mp hMem with hSame | hIn
    · subst hSame
      have hKept : ∀ other place at_, MergeStep.update other place at_ ∈ steps →
          other.entity ≠ entry.entity := by
        intro other place at_ hOther hSame
        have hBefore := hAhead _ hOther entry index offset other place at_ rfl rfl
        have hHere := entity_of_fits hFirst
        have hThere := entity_of_fits (hRest _ hOther)
        rw [hSame, ← hHere] at hThere
        have hInside : offset < w₀.entityOrder.length := by
          have hSome := List.getElem?_eq_some_iff.mp hHere
          exact hSome.1
        have hEqual := (List.getElem?_inj hInside w₀.nodup).mp hThere.symm
        omega
      exact (transform_actAll_of_unnamed hKept).trans (Function.update_self _ _ _)
    · exact ih hRest hLater hIn

/-- Steps that write what is there change nothing. -/
theorem actAll_of_same {steps : List MergeStep} {w : EcsWorld}
    (h : ∀ entry index offset, MergeStep.update entry index offset ∈ steps →
      w.registry.transform entry.entity = some entry.value) :
    actAll MergeStep.act steps w = w := by
  induction steps with
  | nil => rfl
  | cons step steps ih =>
    have hStep : step.act w = w := by
      cases step with
      | journal workerIndex journalIndex => rfl
      | update entry index offset =>
        have hHere := h entry index offset List.mem_cons_self
        refine EcsWorld.ext (Registry.ext rfl ?_ rfl) rfl rfl
        exact Function.update_eq_self_iff.mpr hHere.symm
    have hRest := ih fun entry index offset hMem =>
      h entry index offset (List.mem_cons_of_mem _ hMem)
    show actAll MergeStep.act steps (step.act w) = w
    rw [hStep]
    exact hRest

/-- The updates that come before the first step that does not fit write the values that
their entities have. -/
def HarmlessRefusal (w : EcsWorld) (steps : List MergeStep) : Prop :=
  ∀ done step rest, steps = done ++ step :: rest → (∀ other ∈ done, other.fits w = true) →
    step.fits w = false → ∀ entry index offset, MergeStep.update entry index offset ∈ done →
      w.registry.transform entry.entity = some entry.value

/-- A merge that throws leaves every component of every entity alone exactly if it is
refused before its first step, or before its first update of a value. -/
theorem refused_merge_unchanged_iff (caller : ThreadId) (s : JournalSort)
    (journals : List EcsJournal) (w : EcsWorld) :
    (∀ e after, mergeJournals caller s journals w = .error e after →
      ∀ entity, after.registry.transform entity = w.registry.transform entity ∧
        after.registry.velocity entity = w.registry.velocity entity) ↔
    (Admitted caller journals w → HarmlessRefusal w (mergeSteps (s.sort journals) 0 0)) := by
  constructor
  · intro hUnchanged hAdmitted done step rest hSplit hDone hRefused entry index offset hMem
    have hThrows := (mergeJournals_error_iff (s := s) hAdmitted).mpr
      ⟨done, step, rest, hSplit, hDone, hRefused, rfl, rfl⟩
    have hSame := (hUnchanged _ _ hThrows entry.entity).1
    have hApart : done.Pairwise Apart := by
      have hAll := apart_mergeSteps (s.sort journals) 0 0
      rw [hSplit] at hAll
      exact (List.pairwise_append.mp hAll).1
    rw [← hSame]
    exact transform_actAll_of_named hDone hApart hMem
  · intro hHarmless e after hThrows entity
    by_cases hAdmitted : Admitted caller journals w
    · obtain ⟨done, step, rest, hSplit, hDone, hRefused, -, rfl⟩ :=
        (mergeJournals_error_iff hAdmitted).mp hThrows
      rw [actAll_of_same (hHarmless hAdmitted done step rest hSplit hDone hRefused)]
      exact ⟨rfl, rfl⟩
    · obtain ⟨e', hEarly⟩ := mergeJournals_of_not_admitted (s := s) hAdmitted
      rw [hEarly] at hThrows
      cases hThrows
      exact ⟨rfl, rfl⟩

/-- A sort that keeps the order of equal indexes. -/
def stableSort : JournalSort where
  sort journals := journals.mergeSort fun left right => left.workerIndex ≤ right.workerIndex
  perm journals := List.mergeSort_perm journals _
  sorted journals := by
    have hSorted : (journals.mergeSort fun left right =>
        left.workerIndex ≤ right.workerIndex).Pairwise
          fun left right => decide (left.workerIndex ≤ right.workerIndex) = true := by
      refine List.pairwise_mergeSort ?_ ?_ journals
      · intro first second third
        simp only [decide_eq_true_eq]
        exact Nat.le_trans
      · intro first second
        simp only [Bool.or_eq_true, decide_eq_true_eq]
        exact Nat.le_total _ _
    exact hSorted.imp of_decide_eq_true

/-- The world that `CreateEntities(2)` makes. -/
def twoEntities : EcsWorld where
  registry := {
    valid := fun entity => entity < 2
    transform := fun entity => if entity < 2 then some (Int64.ofNat entity.toNat) else none
    velocity := fun entity => if entity < 2 then some 1 else none }
  entityOrder := [0, 1]
  ownerThread := 0
  nodup := by decide
  bounded := by decide
  populated := by
    intro entity hMem
    rcases List.mem_cons.mp hMem with rfl | hLast
    · exact ⟨rfl, rfl, rfl⟩
    · rw [List.mem_singleton.mp hLast]
      exact ⟨rfl, rfl, rfl⟩

/-- One journal that names the first entity twice. -/
def doubledJournal : EcsJournal where
  workerIndex := 0
  transforms := [⟨0, 7, 0⟩, ⟨0, 8, 1⟩]

/-- The second update of the journal is refused after the first has been applied. -/
theorem refused_merge_changes :
    ¬ ∀ (caller : ThreadId) (s : JournalSort) (journals : List EcsJournal) (w : EcsWorld) e after,
      mergeJournals caller s journals w = .error e after →
      ∀ entity, after.registry.transform entity = w.registry.transform entity ∧
        after.registry.velocity entity = w.registry.velocity entity := by
  intro h
  have hSort : stableSort.sort [doubledJournal] = [doubledJournal] := List.mergeSort_singleton _
  have hAdmitted : Admitted 0 [doubledJournal] twoEntities :=
    ⟨rfl, by decide, by decide, by decide, rfl⟩
  have hSteps : mergeSteps (stableSort.sort [doubledJournal]) 0 0 =
      [.journal 0 0, .update ⟨0, 7, 0⟩ 0 0] ++ [.update ⟨0, 8, 1⟩ 1 1] := by
    rw [hSort]
    rfl
  have hThrows := (mergeJournals_error_iff hAdmitted).mpr
    ⟨_, _, _, hSteps, by decide, by decide, rfl, rfl⟩
  have hSame := (h _ _ _ _ _ _ hThrows 0).1
  have hMoved : some (7 : Int64) = some 0 := hSame
  revert hMoved
  decide

end Ithax.Ecs
