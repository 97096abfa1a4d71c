import Ithax.Ecs.World
import Ithax.Lib.Exceptional
import Mathlib.Algebra.Group.Int.Defs
import Mathlib.Algebra.GroupWithZero.Nat

/-!
# A tick of the world

A tick takes a snapshot, lets every worker build a journal of its part of it and
merges the journals, in whatever order they come. `sequentialTick` is what it is
for: every transform moves by its velocity, once, or nothing changes.

## Results

* `flatMap_slices`         — the parts of the workers tile the snapshot.
* `checkedAdd_eq`          — the overflow check does not overflow itself.
* `tick_eq_sequentialTick` — a tick is the sequential tick.
* `runTicks_sequential`    — and so are runs of ticks.
-/

namespace Ithax.Ecs

open Ithax.Lib

/-- The workers of a tick, and the order in which their journals are handed over. -/
structure Tick where
  workers : Nat
  positive : 1 ≤ workers
  bounded : workers ≤ MAX_WORLD_WORKERS
  arrange : List EcsJournal → List EcsJournal
  perm : ∀ journals, (arrange journals).Perm journals

/-- The journals of all workers. -/
def buildJournals (states : WorldSnapshot) (workers : Nat) : Except EcsError (List EcsJournal) :=
  (List.range workers).mapM fun workerIndex => buildTransformJournal states workerIndex workers

/-- One tick on the thread that owns the world. -/
def tick (s : JournalSort) (t : Tick) : WorldM Unit := do
  let owner := (← get).ownerThread
  let states ← snapshot owner
  let journals ← fromExcept id (buildJournals states t.workers)
  mergeJournals owner s (t.arrange journals)

/-- One tick after another, up to the first that throws. -/
def runTicks (s : JournalSort) : List Tick → WorldM Unit
  | [] => return
  | t :: ticks => do
    tick s t
    runTicks s ticks

-- ---------------------------------------------------------------------------
-- The sequential tick
-- ---------------------------------------------------------------------------

/-- The transform after one more step is an `int64_t`. -/
def EntityState.Fits (state : EntityState) : Prop :=
  -2 ^ 63 ≤ state.transform.toInt + state.velocity.toInt ∧
    state.transform.toInt + state.velocity.toInt < 2 ^ 63

instance (state : EntityState) : Decidable state.Fits :=
  inferInstanceAs (Decidable (_ ∧ _))

/-- The transform after one more step. -/
def EntityState.moved (state : EntityState) : Int64 :=
  Int64.ofInt (state.transform.toInt + state.velocity.toInt)

namespace EcsWorld

/-- No entity of the world is about to overflow. -/
def Fits (w : EcsWorld) : Prop := ∀ state ∈ w.states, state.Fits

instance (w : EcsWorld) : Decidable w.Fits := inferInstanceAs (Decidable (∀ state ∈ _, _))

/-- Every entity of the world moved by its velocity. -/
def advanced (w : EcsWorld) : EcsWorld :=
  { w with
    registry := { w.registry with
      transform := fun entity =>
        if entity ∈ w.entityOrder then some (w.stateOf entity).moved
        else w.registry.transform entity }
    populated := by
      intro entity hEntity
      obtain ⟨hValid, -, hVelocity⟩ := w.populated entity hEntity
      refine ⟨hValid, ?_, hVelocity⟩
      simp [hEntity] }

end EcsWorld

/-- What a tick is for: every entity moves once, or the tick throws and nothing has changed. -/
def sequentialTick (w : EcsWorld) : EStateM.Result EcsError EcsWorld Unit :=
  if w.Fits then .ok () w.advanced else .error (.ecsError "component update overflowed") w

/-- One such tick after another, up to the first that throws. -/
def sequentialTicks : Nat → EcsWorld → EStateM.Result EcsError EcsWorld Unit
  | 0, w => .ok () w
  | n + 1, w =>
    match sequentialTick w with
    | .ok _ w => sequentialTicks n w
    | .error e w => .error e w

-- ---------------------------------------------------------------------------
-- Partition
-- ---------------------------------------------------------------------------

/-- A part ends where the next begins. -/
theorem partitionEnd_eq (size index count : Nat) :
    partitionEnd size index count = partitionStart size (index + 1) count := by
  unfold partitionEnd partitionStart
  rw [Nat.succ_mul]
  split <;> omega

/-- The last part ends at the end of the snapshot. -/
theorem partitionStart_count {size count : Nat} (hCount : 0 < count) :
    partitionStart size count count = size := by
  have hRemainder : size % count < count := Nat.mod_lt _ hCount
  unfold partitionStart
  rw [Nat.min_eq_right (Nat.le_of_lt hRemainder)]
  exact Nat.div_add_mod size count

/-- The parts come in their order. -/
theorem partitionStart_le (size index count : Nat) :
    partitionStart size index count ≤ partitionStart size (index + 1) count := by
  rw [← partitionEnd_eq, partitionEnd]
  exact Nat.le_trans (Nat.le_add_right _ _) (Nat.le_add_right _ _)

/-- The part of a snapshot that a worker is given. -/
def slice (states : WorldSnapshot) (workers index : Nat) : WorldSnapshot :=
  (states.drop (partitionStart states.length index workers)).take
    (partitionEnd states.length index workers - partitionStart states.length index workers)

/-- The first `n` parts, put together. -/
theorem flatMap_slices_take (states : WorldSnapshot) (workers : Nat) : ∀ n : Nat,
    (List.range n).flatMap (slice states workers) =
      states.take (partitionStart states.length n workers)
  | 0 => by simp [partitionStart]
  | n + 1 => by
    have hLe := partitionStart_le states.length n workers
    rw [List.range_succ, List.flatMap_append, flatMap_slices_take states workers n,
      List.flatMap_singleton, slice, partitionEnd_eq, ← List.take_add]
    congr 1
    omega

/-- The parts of the workers, put together, are the snapshot. -/
theorem flatMap_slices (states : WorldSnapshot) {workers : Nat} (hWorkers : 0 < workers) :
    (List.range workers).flatMap (slice states workers) = states := by
  rw [flatMap_slices_take, partitionStart_count hWorkers, List.take_length]

-- ---------------------------------------------------------------------------
-- Building journals
-- ---------------------------------------------------------------------------

/-- The differences the check takes stay in range, so it decides what it should. -/
theorem checkedAdd_eq (state : EntityState) : checkedAdd state.transform state.velocity =
    if state.Fits then .ok state.moved
    else .error (.ecsError "component update overflowed") := by
  have hValueLow := Int64.le_toInt state.transform
  have hValueHigh := Int64.toInt_lt state.transform
  have hDeltaLow := Int64.le_toInt state.velocity
  have hDeltaHigh := Int64.toInt_lt state.velocity
  have hHigh : 0 < state.velocity.toInt →
      (Int64.maxValue - state.velocity).toInt = 2 ^ 63 - 1 - state.velocity.toInt := by
    intro hPos
    rw [Int64.toInt_sub, Int64.toInt_maxValue]
    exact Int.bmod_eq_of_le (by omega) (by omega)
  have hLow : state.velocity.toInt < 0 →
      (Int64.minValue - state.velocity).toInt = -2 ^ 63 - state.velocity.toInt := by
    intro hNeg
    rw [Int64.toInt_sub, Int64.toInt_minValue]
    exact Int.bmod_eq_of_le (by omega) (by omega)
  have hOverflow : ((0 < state.velocity ∧ Int64.maxValue - state.velocity < state.transform) ∨
      (state.velocity < 0 ∧ state.transform < Int64.minValue - state.velocity)) ↔
      ¬state.Fits := by
    rw [Int64.lt_iff_toInt_lt, Int64.lt_iff_toInt_lt, Int64.lt_iff_toInt_lt,
      Int64.lt_iff_toInt_lt, Int64.toInt_zero]
    unfold EntityState.Fits
    constructor
    · rintro (⟨hPos, hOver⟩ | ⟨hNeg, hOver⟩)
      · rw [hHigh hPos] at hOver
        omega
      · rw [hLow hNeg] at hOver
        omega
    · intro hOut
      rcases Int.lt_trichotomy state.velocity.toInt 0 with hNeg | hZero | hPos
      · refine Or.inr ⟨hNeg, ?_⟩
        rw [hLow hNeg]
        omega
      · omega
      · refine Or.inl ⟨hPos, ?_⟩
        rw [hHigh hPos]
        omega
  have hMoved : state.transform + state.velocity = state.moved := by
    rw [EntityState.moved, Int64.ofInt_add, Int64.ofInt_toInt, Int64.ofInt_toInt]
  rw [checkedAdd, if_congr hOverflow rfl rfl, hMoved, ite_not]

/-- The move does not wrap. -/
theorem EntityState.toInt_moved {state : EntityState} (h : state.Fits) :
    state.moved.toInt = state.transform.toInt + state.velocity.toInt := by
  obtain ⟨hLow, hHigh⟩ := h
  have hSize : Int64.size = 2 ^ 64 := rfl
  rw [EntityState.moved, Int64.toInt_ofInt, hSize]
  exact Int.bmod_eq_of_le (by omega) (by omega)

/-- The updates of a slice without overflow, numbered from `sequence` on. -/
def updatesFrom : List EntityState → Nat → List TransformUpdate
  | [], _ => []
  | state :: states, sequence =>
    { entity := state.entity, value := state.moved, sequence } :: updatesFrom states (sequence + 1)

/-- An update for each state. -/
theorem length_updatesFrom : ∀ (states : List EntityState) (sequence : Nat),
    (updatesFrom states sequence).length = states.length
  | [], _ => rfl
  | _ :: states, sequence => by
    rw [updatesFrom, List.length_cons, List.length_cons, length_updatesFrom]

/-- The updates of a part in which nothing overflows. -/
theorem buildUpdates_of_fits : ∀ (states : List EntityState) (sequence : Nat),
    (∀ state ∈ states, state.Fits) →
    buildUpdates states sequence = .ok (updatesFrom states sequence)
  | [], _, _ => rfl
  | state :: states, sequence, hFits => by
    obtain ⟨hFirst, hRest⟩ := List.forall_mem_cons.mp hFits
    rw [buildUpdates, checkedAdd_eq, if_pos hFirst, buildUpdates_of_fits states _ hRest]
    rfl

/-- One overflow is enough for the part to throw. -/
theorem buildUpdates_of_not_fits : ∀ (states : List EntityState) (sequence : Nat),
    (∃ state ∈ states, ¬state.Fits) →
    buildUpdates states sequence = .error (.ecsError "component update overflowed")
  | [], _, ⟨_, hMem, _⟩ => absurd hMem List.not_mem_nil
  | state :: states, sequence, ⟨other, hMem, hOver⟩ => by
    rw [buildUpdates, checkedAdd_eq]
    by_cases hFirst : state.Fits
    · have hRest : ∃ state ∈ states, ¬state.Fits := by
        rcases List.mem_cons.mp hMem with rfl | hIn
        · exact absurd hFirst hOver
        · exact ⟨other, hIn, hOver⟩
      rw [if_pos hFirst, buildUpdates_of_not_fits states _ hRest]
      rfl
    · rw [if_neg hFirst]
      rfl

section MapM

variable {ε α β : Type} {f : α → Except ε β}

/-- A map all of whose steps succeed. -/
theorem mapM_of_ok {g : α → β} : ∀ {xs : List α}, (∀ x ∈ xs, f x = .ok (g x)) →
    xs.mapM f = .ok (xs.map g)
  | [], _ => rfl
  | x :: xs, h => by
    obtain ⟨hFirst, hRest⟩ := List.forall_mem_cons.mp h
    rw [List.mapM_cons, hFirst, mapM_of_ok hRest]
    rfl

/-- A map of which a step fails, all failures being the same. -/
theorem mapM_of_error {e : ε} : ∀ {xs : List α}, (∀ x ∈ xs, (∃ b, f x = .ok b) ∨ f x = .error e) →
    (∃ x ∈ xs, f x = .error e) → xs.mapM f = .error e
  | [], _, ⟨_, hMem, _⟩ => absurd hMem List.not_mem_nil
  | x :: xs, h, ⟨y, hMem, hThrows⟩ => by
    obtain ⟨hFirst, hRest⟩ := List.forall_mem_cons.mp h
    rw [List.mapM_cons]
    rcases hFirst with ⟨b, hOk⟩ | hError
    · have hLater : ∃ x ∈ xs, f x = .error e := by
        rcases List.mem_cons.mp hMem with rfl | hIn
        · exact nomatch hOk.symm.trans hThrows
        · exact ⟨y, hIn, hThrows⟩
      rw [hOk, mapM_of_error hRest hLater]
      rfl
    · rw [hError]
      rfl

end MapM

/-- The journal of one worker, when nothing overflows. -/
def journalOf (states : WorldSnapshot) (workers index : Nat) : EcsJournal where
  workerIndex := index
  transforms := updatesFrom (slice states workers index) 0

section Build

variable {states : WorldSnapshot} {t : Tick}

/-- A worker's journal holds the updates of its part. -/
theorem buildTransformJournal_eq {index : Nat} (hIndex : index < t.workers) :
    buildTransformJournal states index t.workers =
      (buildUpdates (slice states t.workers index) 0).map fun transforms =>
        { workerIndex := index, transforms } := by
  have hPositive := t.positive
  have hBounded := t.bounded
  rw [buildTransformJournal, if_neg (by omega)]
  rfl

/-- When nothing overflows every worker has a journal. -/
theorem buildJournals_of_fits (hFits : ∀ state ∈ states, state.Fits) :
    buildJournals states t.workers =
      .ok ((List.range t.workers).map (journalOf states t.workers)) := by
  refine mapM_of_ok fun index hIndex => ?_
  have hSlice : ∀ state ∈ slice states t.workers index, state.Fits := fun state hState =>
    hFits state (List.mem_of_mem_drop (List.mem_of_mem_take hState))
  rw [buildTransformJournal_eq (List.mem_range.mp hIndex), buildUpdates_of_fits _ _ hSlice]
  rfl

/-- The worker that is given an entity out of range throws. -/
theorem exists_throw_of_not_fits (hOver : ¬∀ state ∈ states, state.Fits) :
    ∃ index < t.workers, buildTransformJournal states index t.workers =
      .error (.ecsError "component update overflowed") := by
  push Not at hOver
  obtain ⟨state, hMem, hOut⟩ := hOver
  rw [← flatMap_slices states t.positive] at hMem
  obtain ⟨index, hIndex, hIn⟩ := List.mem_flatMap.mp hMem
  have hLt := List.mem_range.mp hIndex
  refine ⟨index, hLt, ?_⟩
  rw [buildTransformJournal_eq hLt, buildUpdates_of_not_fits _ _ ⟨state, hIn, hOut⟩]
  rfl

/-- When anything overflows the journals are not built. -/
theorem buildJournals_of_not_fits (hOver : ¬∀ state ∈ states, state.Fits) :
    buildJournals states t.workers = .error (.ecsError "component update overflowed") := by
  obtain ⟨index, hIndex, hThrows⟩ := @exists_throw_of_not_fits states t hOver
  refine mapM_of_error (fun other hOther => ?_) ⟨index, List.mem_range.mpr hIndex, hThrows⟩
  have hLt := List.mem_range.mp hOther
  by_cases hFits : ∀ state ∈ slice states t.workers other, state.Fits
  · rw [buildTransformJournal_eq hLt, buildUpdates_of_fits _ _ hFits]
    exact Or.inl ⟨_, rfl⟩
  · push Not at hFits
    rw [buildTransformJournal_eq hLt, buildUpdates_of_not_fits _ _ hFits]
    exact Or.inr rfl

end Build

-- ---------------------------------------------------------------------------
-- Merging them
-- ---------------------------------------------------------------------------

/-- The journals of the workers have only one sorted arrangement. -/
theorem sort_arrange (s : JournalSort) (t : Tick) (states : WorldSnapshot) :
    s.sort (t.arrange ((List.range t.workers).map (journalOf states t.workers))) =
      (List.range t.workers).map (journalOf states t.workers) := by
  have hPerm := (s.perm (t.arrange ((List.range t.workers).map (journalOf states t.workers)))).trans
    (t.perm _)
  have hSorted : ((List.range t.workers).map (journalOf states t.workers)).Pairwise
      fun left right => left.workerIndex ≤ right.workerIndex := by
    rw [List.pairwise_map]
    exact List.pairwise_lt_range.imp Nat.le_of_lt
  refine List.Perm.eq_of_pairwise ?_ (s.sorted _) hSorted hPerm
  intro a b ha hb hab hba
  obtain ⟨i, -, rfl⟩ := List.mem_map.mp (hPerm.mem_iff.mp ha)
  obtain ⟨j, -, rfl⟩ := List.mem_map.mp hb
  have hSame : i = j := Nat.le_antisymm hab hba
  rw [hSame]

/-- The first loop of the merge counts the updates and finds no fault. -/
theorem countUpdates_eq (w : EcsWorld) {journalCount : Nat} : ∀ {journals : List EcsJournal}
    {total : Nat}, (∀ journal ∈ journals, journal.workerIndex < journalCount) →
    total + (journals.map fun journal => journal.transforms.length).sum ≤ MAX_JOURNAL_UPDATES →
    countUpdates journalCount journals total w =
      .ok (total + (journals.map fun journal => journal.transforms.length).sum) w
  | [], total, _, _ => by simp [countUpdates, pure, EStateM.pure]
  | journal :: journals, total, hIndex, hTotal => by
    obtain ⟨hFirst, hRest⟩ := List.forall_mem_cons.mp hIndex
    rw [List.map_cons, List.sum_cons] at hTotal ⊢
    have hRoom : ¬MAX_JOURNAL_UPDATES - total < journal.transforms.length := by omega
    have hTail : total + journal.transforms.length +
        (journals.map fun journal => journal.transforms.length).sum ≤ MAX_JOURNAL_UPDATES := by
      omega
    have ih := countUpdates_eq w hRest hTail
    rw [countUpdates, if_neg (Nat.not_le.mpr hFirst), if_neg hRoom, ← Nat.add_assoc]
    exact ih

/-- The updates of some states, one after the other. -/
def applyStates (w : EcsWorld) (states : List EntityState) : EcsWorld :=
  states.foldl (fun w state => w.setTransform state.entity state.moved) w

/-- The order of the entities stays. -/
theorem entityOrder_applyStates : ∀ (states : List EntityState) (w : EcsWorld),
    (applyStates w states).entityOrder = w.entityOrder
  | [], _ => rfl
  | state :: states, w =>
    entityOrder_applyStates states (w.setTransform state.entity state.moved)

/-- One update that matches its place. -/
theorem mergeUpdates_cons (w : EcsWorld) (update : TransformUpdate) (updates : List TransformUpdate)
    {index offset : Nat} (h : matchesWorld w update index offset = true) :
    mergeUpdates (update :: updates) index offset w =
      mergeUpdates updates (index + 1) (offset + 1) (w.setTransform update.entity update.value) := by
  rw [mergeUpdates]
  simp only [bind, EStateM.bind, get, getThe, MonadStateOf.get, get_apply, h]
  rfl

/-- The updates of a slice are accepted where its entities stand in the world. -/
theorem mergeUpdates_eq : ∀ (states : List EntityState) (w : EcsWorld) (index offset : Nat),
    (states.map EntityState.entity) <+: w.entityOrder.drop offset →
    mergeUpdates (updatesFrom states index) index offset w =
      .ok (offset + states.length) (applyStates w states)
  | [], w, index, offset, _ => rfl
  | state :: states, w, index, offset, ⟨rest, hRest⟩ => by
    have hAt : w.entityOrder[offset]? = some state.entity := by
      rw [← Nat.add_zero offset, ← List.getElem?_drop, ← hRest]
      rfl
    have hPopulated := w.populated _ (List.mem_of_getElem? hAt)
    have hMatches : matchesWorld w { entity := state.entity, value := state.moved, sequence := index }
        index offset = true := by
      simp [matchesWorld, hAt, hPopulated.valid, hPopulated.transform]
    have hTail : (states.map EntityState.entity) <+:
        (w.setTransform state.entity state.moved).entityOrder.drop (offset + 1) := by
      refine ⟨rest, ?_⟩
      show _ = w.entityOrder.drop (offset + 1)
      rw [← List.drop_drop, ← hRest]
      rfl
    have ih := mergeUpdates_eq states (w.setTransform state.entity state.moved) (index + 1)
      (offset + 1) hTail
    rw [updatesFrom, mergeUpdates_cons w _ _ hMatches, ih, List.length_cons]
    show EStateM.Result.ok (offset + 1 + states.length) (applyStates w (state :: states)) = _
    rw [Nat.add_assoc, Nat.add_comm 1]

/-- One journal that matches its place. -/
theorem mergeSorted_cons {w next : EcsWorld} {journal : EcsJournal} {journals : List EcsJournal}
    {index offset nextOffset : Nat} (hIndex : journal.workerIndex = index)
    (hUpdates : mergeUpdates journal.transforms 0 offset w = .ok nextOffset next) :
    mergeSorted (journal :: journals) index offset w =
      mergeSorted journals (index + 1) nextOffset next := by
  rw [mergeSorted, if_neg (not_not_intro hIndex)]
  show (mergeUpdates journal.transforms 0 offset >>= _) w = _
  simp only [bind, EStateM.bind, hUpdates]

/-- The second loop writes the parts of the journals one after the other. By induction on how many
are left. -/
theorem mergeSorted_eq (states : WorldSnapshot) (workers : Nat) : ∀ (n index offset : Nat)
    (w : EcsWorld), (((List.range' index n).flatMap (slice states workers)).map
      EntityState.entity) <+: w.entityOrder.drop offset →
    mergeSorted ((List.range' index n).map (journalOf states workers)) index offset w =
      .ok () (applyStates w ((List.range' index n).flatMap (slice states workers)))
  | 0, _, _, _, _ => rfl
  | n + 1, index, offset, w, hPrefix => by
    rw [List.range'_succ, List.flatMap_cons, List.map_append] at hPrefix
    have hFirst : (slice states workers index).map EntityState.entity <+:
        w.entityOrder.drop offset := (List.prefix_append _ _).trans hPrefix
    have hUpdates := mergeUpdates_eq _ w 0 offset hFirst
    have hRest : ((List.range' (index + 1) n).flatMap (slice states workers)).map
        EntityState.entity <+: (applyStates w (slice states workers index)).entityOrder.drop
          (offset + (slice states workers index).length) := by
      obtain ⟨rest, hSplit⟩ := hPrefix
      refine ⟨rest, ?_⟩
      rw [entityOrder_applyStates, ← List.drop_drop, ← hSplit, List.append_assoc,
        List.drop_left' (List.length_map _)]
    have hIndex : (journalOf states workers index).workerIndex = index := rfl
    rw [List.range'_succ, List.map_cons, mergeSorted_cons hIndex hUpdates,
      mergeSorted_eq states workers n _ _ _ hRest, List.flatMap_cons, applyStates, applyStates,
      applyStates, List.foldl_append]

-- ---------------------------------------------------------------------------
-- The world after the merge
-- ---------------------------------------------------------------------------

/-- An entity that is not among the states keeps its transform. -/
theorem transform_applyStates_of_notMem {entity : Entity} : ∀ (states : List EntityState)
    (w : EcsWorld), entity ∉ states.map EntityState.entity →
    (applyStates w states).registry.transform entity = w.registry.transform entity
  | [], _, _ => rfl
  | state :: states, w, hOut => by
    obtain ⟨hFirst, hRest⟩ := not_or.mp (mt List.mem_cons.mpr hOut)
    have ih := transform_applyStates_of_notMem states (w.setTransform state.entity state.moved) hRest
    exact ih.trans (Function.update_of_ne hFirst _ _)

/-- One that is among them, once, is moved. -/
theorem transform_applyStates_of_mem {state : EntityState} : ∀ (states : List EntityState)
    (w : EcsWorld), (states.map EntityState.entity).Nodup → state ∈ states →
    (applyStates w states).registry.transform state.entity = some state.moved
  | first :: states, w, hNodup, hMem => by
    obtain ⟨hOut, hRest⟩ := List.nodup_cons.mp hNodup
    rcases List.mem_cons.mp hMem with rfl | hIn
    · have hKept := transform_applyStates_of_notMem states
        (w.setTransform state.entity state.moved) hOut
      exact hKept.trans (Function.update_self _ _ _)
    · exact transform_applyStates_of_mem states _ hRest hIn

/-- Updates touch transforms only. -/
theorem applyStates_frame : ∀ (states : List EntityState) (w : EcsWorld),
    (applyStates w states).registry.valid = w.registry.valid ∧
    (applyStates w states).registry.velocity = w.registry.velocity ∧
    (applyStates w states).ownerThread = w.ownerThread
  | [], _ => ⟨rfl, rfl, rfl⟩
  | state :: states, w => applyStates_frame states (w.setTransform state.entity state.moved)

/-- The states of the world are those of its entities, in order. -/
theorem map_entity_states (w : EcsWorld) : w.states.map EntityState.entity = w.entityOrder := by
  rw [EcsWorld.states, List.map_map]
  exact List.map_id' w.entityOrder

/-- Writing all of them advances the world. -/
theorem applyStates_states (w : EcsWorld) : applyStates w w.states = w.advanced := by
  obtain ⟨hValid, hVelocity, hOwner⟩ := applyStates_frame w.states w
  refine EcsWorld.ext (Registry.ext hValid ?_ hVelocity) (entityOrder_applyStates _ _) hOwner
  funext entity
  show _ = if entity ∈ w.entityOrder then some (w.stateOf entity).moved
    else w.registry.transform entity
  by_cases hMem : entity ∈ w.entityOrder
  · rw [if_pos hMem]
    have hNodup : (w.states.map EntityState.entity).Nodup := by
      rw [map_entity_states]
      exact w.nodup
    exact transform_applyStates_of_mem w.states w hNodup (List.mem_map_of_mem hMem)
  · rw [if_neg hMem]
    refine transform_applyStates_of_notMem _ _ ?_
    rw [map_entity_states]
    exact hMem

-- ---------------------------------------------------------------------------
-- Ticks
-- ---------------------------------------------------------------------------

/-- A merge of all journals advances the world, in whatever order they were handed over. -/
theorem mergeJournals_workers (s : JournalSort) (t : Tick) (w : EcsWorld) :
    mergeJournals w.ownerThread s
      (t.arrange ((List.range t.workers).map (journalOf w.states t.workers))) w =
      .ok () w.advanced := by
  set journals := (List.range t.workers).map (journalOf w.states t.workers) with hJournals
  have hLength : (t.arrange journals).length = t.workers := by
    rw [(t.perm journals).length_eq, hJournals, List.length_map, List.length_range]
  have hPositive := t.positive
  have hBounded := t.bounded
  have hSome : ¬(t.arrange journals = [] ∨ MAX_WORLD_WORKERS < (t.arrange journals).length) := by
    rw [← List.length_eq_zero_iff, hLength]
    omega
  have hSum : (journals.map fun journal => journal.transforms.length).sum =
      w.entityOrder.length := by
    have hTiles := congrArg List.length (flatMap_slices w.states t.positive)
    rw [List.length_flatMap, EcsWorld.states, List.length_map] at hTiles
    rw [hJournals, List.map_map, ← hTiles]
    refine congrArg List.sum (List.map_congr_left fun index _ => ?_)
    exact length_updatesFrom _ 0
  have hIndex : ∀ journal ∈ journals, journal.workerIndex < (t.arrange journals).length := by
    intro journal hMem
    obtain ⟨index, hIn, rfl⟩ := List.mem_map.mp hMem
    rw [hLength]
    exact List.mem_range.mp hIn
  have hFew : 0 + (journals.map fun journal => journal.transforms.length).sum ≤
      MAX_JOURNAL_UPDATES := by
    rw [hSum, Nat.zero_add]
    exact w.bounded
  have hCount := countUpdates_eq w hIndex hFew
  rw [Nat.zero_add, hSum] at hCount
  have hPrefix : ((List.range' 0 t.workers).flatMap (slice w.states t.workers)).map
      EntityState.entity <+: w.entityOrder.drop 0 := by
    rw [← List.range_eq_range', flatMap_slices w.states t.positive, map_entity_states]
    exact List.prefix_refl _
  have hMerge := mergeSorted_eq w.states t.workers t.workers 0 0 w hPrefix
  rw [← List.range_eq_range', flatMap_slices w.states t.positive, applyStates_states] at hMerge
  have hSort := sort_arrange s t w.states
  rw [← hJournals] at hSort hMerge
  unfold mergeJournals
  simp only [hSort, hSome, if_false, bind, EStateM.bind, assertOwner, get, getThe, MonadStateOf.get,
    get_apply, ne_eq, not_true_eq_false, pure, EStateM.pure, hCount]
  exact hMerge

/-- Whatever the number of workers and the order of their journals, a tick is the
sequential tick. -/
theorem tick_eq_sequentialTick (s : JournalSort) (t : Tick) (w : EcsWorld) :
    tick s t w = sequentialTick w := by
  have hStates : tick s t w = (fromExcept id (buildJournals w.states t.workers) >>= fun journals =>
      mergeJournals w.ownerThread s (t.arrange journals)) w := by
    simp only [tick, snapshot, assertOwner, bind, EStateM.bind, get, getThe, MonadStateOf.get,
      get_apply, ne_eq, not_true_eq_false, if_false, pure, EStateM.pure]
  rw [hStates, sequentialTick]
  by_cases hFits : w.Fits
  · rw [buildJournals_of_fits hFits, if_pos hFits]
    exact mergeJournals_workers s t w
  · rw [buildJournals_of_not_fits hFits, if_neg hFits]
    rfl

/-- A run of ticks is as many sequential ticks. -/
theorem runTicks_eq (s : JournalSort) : ∀ (ticks : List Tick) (w : EcsWorld),
    runTicks s ticks w = sequentialTicks ticks.length w
  | [], _ => rfl
  | t :: ticks, w => by
    have hStep : runTicks s (t :: ticks) w = (tick s t >>= fun _ => runTicks s ticks) w := rfl
    rw [hStep, List.length_cons, sequentialTicks]
    simp only [bind, EStateM.bind, tick_eq_sequentialTick]
    rcases sequentialTick w with ⟨-, next⟩ | ⟨e, next⟩
    · exact runTicks_eq s ticks next
    · rfl

/-- The state of an entity `n` ticks on. -/
theorem sequentialTicks_ok : ∀ (n : Nat) (w : EcsWorld),
    (∀ k ≤ n, ∀ state ∈ w.states,
      -2 ^ 63 ≤ state.transform.toInt + k * state.velocity.toInt ∧
        state.transform.toInt + k * state.velocity.toInt < 2 ^ 63) →
    ∃ final, sequentialTicks n w = .ok () final ∧ final.entityOrder = w.entityOrder ∧
      ∀ entity ∈ w.entityOrder,
        (final.stateOf entity).transform.toInt =
          (w.stateOf entity).transform.toInt + n * (w.stateOf entity).velocity.toInt ∧
        (final.stateOf entity).velocity = (w.stateOf entity).velocity
  | 0, w, _ => ⟨w, rfl, rfl, fun _ _ => ⟨by simp, rfl⟩⟩
  | n + 1, w, hRange => by
    have hFits : w.Fits := by
      intro state hState
      have hOne := hRange 1 (Nat.le_add_left 1 n) state hState
      rw [Int.natCast_one, Int.one_mul] at hOne
      exact hOne
    have hMoved : ∀ entity ∈ w.entityOrder,
        (w.advanced.stateOf entity).transform.toInt =
          (w.stateOf entity).transform.toInt + (w.stateOf entity).velocity.toInt := by
      intro entity hEntity
      have hTransform : (w.advanced.stateOf entity).transform = (w.stateOf entity).moved := by
        simp [EcsWorld.stateOf, EcsWorld.advanced, hEntity]
      rw [hTransform]
      exact EntityState.toInt_moved (hFits _ (List.mem_map_of_mem hEntity))
    have hVelocity : ∀ entity, (w.advanced.stateOf entity).velocity =
      (w.stateOf entity).velocity := fun _ => rfl
    have hNext : ∀ k ≤ n, ∀ state ∈ w.advanced.states,
        -2 ^ 63 ≤ state.transform.toInt + k * state.velocity.toInt ∧
          state.transform.toInt + k * state.velocity.toInt < 2 ^ 63 := by
      intro k hk state hState
      obtain ⟨entity, hEntity, rfl⟩ := List.mem_map.mp hState
      have hLater := hRange (k + 1) (Nat.succ_le_succ hk) _ (List.mem_map_of_mem hEntity)
      rw [hMoved entity hEntity, hVelocity]
      rw [Int.natCast_succ, Int.add_mul, Int.one_mul] at hLater
      omega
    obtain ⟨final, hRun, hOrder, hStates⟩ := sequentialTicks_ok n w.advanced hNext
    refine ⟨final, ?_, hOrder, fun entity hEntity => ?_⟩
    · rw [sequentialTicks, sequentialTick, if_pos hFits]
      exact hRun
    · obtain ⟨hTransform, hSame⟩ := hStates entity hEntity
      refine ⟨?_, hSame⟩
      rw [hTransform, hMoved entity hEntity, hVelocity, Int.natCast_succ, Int.add_mul, Int.one_mul]
      omega

/-- Runs of ticks with any workers and any order of the journals: the world that the
sequential ticks give, with every transform moved once per tick; and a tick with an
addition out of range throws from a journal and leaves the world alone. -/
theorem runTicks_sequential (s : JournalSort) (ticks : List Tick) (w : EcsWorld) :
    runTicks s ticks w = sequentialTicks ticks.length w ∧
    (∀ (s' : JournalSort) (ticks' : List Tick), ticks'.length = ticks.length →
      (finalState (runTicks s' ticks' w)).stateHash = (finalState (runTicks s ticks w)).stateHash) ∧
    ((∀ k ≤ ticks.length, ∀ state ∈ w.states,
        -2 ^ 63 ≤ state.transform.toInt + k * state.velocity.toInt ∧
          state.transform.toInt + k * state.velocity.toInt < 2 ^ 63) →
      ∃ final, runTicks s ticks w = .ok () final ∧ final.entityOrder = w.entityOrder ∧
        ∀ entity ∈ w.entityOrder,
          (final.stateOf entity).transform.toInt = (w.stateOf entity).transform.toInt +
            ticks.length * (w.stateOf entity).velocity.toInt ∧
          (final.stateOf entity).velocity = (w.stateOf entity).velocity) ∧
    (¬w.Fits → ∀ t : Tick,
      (∃ index < t.workers, buildTransformJournal w.states index t.workers =
        .error (.ecsError "component update overflowed")) ∧
      tick s t w = .error (.ecsError "component update overflowed") w) := by
  refine ⟨runTicks_eq s ticks w, fun s' ticks' hLength => ?_, fun hRange => ?_, fun hOver t => ?_⟩
  · rw [runTicks_eq, runTicks_eq, hLength]
  · rw [runTicks_eq]
    exact sequentialTicks_ok ticks.length w hRange
  · refine ⟨exists_throw_of_not_fits hOver, ?_⟩
    rw [tick_eq_sequentialTick, sequentialTick, if_neg hOver]

end Ithax.Ecs
