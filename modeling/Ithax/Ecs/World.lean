import Mathlib.Data.List.Nodup
import Mathlib.Data.List.Perm.Basic
import Mathlib.Logic.Function.Basic

/-!
# The entity world

`ecs/ecs_world.cpp`: a world of entities with a transform and a velocity, snapshots
of it, the journals that workers build from a snapshot, and their merge.

The registry is a map from live entities to their components. `MergeJournals` is a
program over the world, since a throw in the middle leaves the updates made so far.
-/

namespace Ithax.Ecs

/-- The largest number of entities. -/
def MAX_WORLD_ENTITIES : Nat := 1000000
/-- The largest number of workers. -/
def MAX_WORLD_WORKERS : Nat := 64
/-- The largest number of updates in a merge. -/
def MAX_JOURNAL_UPDATES : Nat := 1000000

/-- The start of the FNV-1a hash. -/
def HASH_OFFSET : UInt64 := 14695981039346656037
/-- Its factor. -/
def HASH_PRIME : UInt64 := 1099511628211

/-- `entt::entity`. -/
abbrev Entity := UInt32

/-- A thread, as `std::thread::id` tells it from others. -/
abbrev ThreadId := Nat

/-- `EcsError`, and the subclass for a call from another thread. -/
inductive EcsError where
  | ecsError (what : String)
  | ownershipError (what : String)
  deriving DecidableEq, Repr

/-- The part of `entt::registry` that the world uses. -/
@[ext]
structure Registry where
  valid : Entity → Bool
  transform : Entity → Option Int64
  velocity : Entity → Option Int64

/-- The components an entity of the world has. -/
structure Registry.Populated (registry : Registry) (entity : Entity) : Prop where
  valid : registry.valid entity = true
  transform : (registry.transform entity).isSome = true
  velocity : (registry.velocity entity).isSome = true

/-- The entities are kept in the order of their creation. -/
@[ext]
structure EcsWorld where
  registry : Registry
  entityOrder : List Entity
  ownerThread : ThreadId
  nodup : entityOrder.Nodup
  bounded : entityOrder.length ≤ MAX_WORLD_ENTITIES
  populated : ∀ entity ∈ entityOrder, registry.Populated entity

/-- An entity in a snapshot. -/
structure EntityState where
  entity : Entity
  transform : Int64
  velocity : Int64
  deriving DecidableEq, Repr

/-- `WorldSnapshot`. -/
abbrev WorldSnapshot := List EntityState

/-- The new transform of an entity, with its number in its journal. -/
structure TransformUpdate where
  entity : Entity
  value : Int64
  sequence : Nat
  deriving DecidableEq, Repr

/-- The updates of one worker. -/
structure EcsJournal where
  workerIndex : Nat
  transforms : List TransformUpdate
  deriving DecidableEq, Repr

-- ---------------------------------------------------------------------------
-- Journals
-- ---------------------------------------------------------------------------

/-- `PartitionStart`: the first parts get one more each of what is left over. -/
def partitionStart (size index count : Nat) : Nat :=
  index * (size / count) + min index (size % count)

/-- `PartitionEnd`. -/
def partitionEnd (size index count : Nat) : Nat :=
  partitionStart size index count + size / count + if index < size % count then 1 else 0

/-- The differences wrap as `int64_t` would, were they ever out of range. -/
def checkedAdd (value delta : Int64) : Except EcsError Int64 :=
  if (0 < delta ∧ Int64.maxValue - delta < value) ∨ (delta < 0 ∧ value < Int64.minValue - delta) then
    .error (.ecsError "component update overflowed")
  else .ok (value + delta)

/-- The updates of a slice, numbered from `sequence` on. -/
def buildUpdates : List EntityState → Nat → Except EcsError (List TransformUpdate)
  | [], _ => .ok []
  | state :: states, sequence => do
    let value ← checkedAdd state.transform state.velocity
    let updates ← buildUpdates states (sequence + 1)
    return { entity := state.entity, value, sequence } :: updates

/-- `BuildTransformJournal`. -/
def buildTransformJournal (snapshot : WorldSnapshot) (workerIndex workerCount : Nat) :
    Except EcsError EcsJournal :=
  if workerCount = 0 ∨ MAX_WORLD_WORKERS < workerCount ∨ workerCount ≤ workerIndex then
    .error (.ecsError "journal worker index is outside its bound")
  else
    let start := partitionStart snapshot.length workerIndex workerCount
    let stop := partitionEnd snapshot.length workerIndex workerCount
    (buildUpdates ((snapshot.drop start).take (stop - start)) 0).map fun transforms =>
      { workerIndex, transforms }

-- ---------------------------------------------------------------------------
-- The world
-- ---------------------------------------------------------------------------

/-- What `std::sort` by the worker index gives: any sorted arrangement. -/
structure JournalSort where
  sort : List EcsJournal → List EcsJournal
  perm : ∀ journals, (sort journals).Perm journals
  sorted : ∀ journals, (sort journals).Pairwise fun left right =>
    left.workerIndex ≤ right.workerIndex

/-- A call on the world that may throw, with the world it leaves. -/
abbrev WorldM := EStateM EcsError EcsWorld

namespace EcsWorld

/-- Overwrites the transform of an entity that has one. -/
def setTransform (w : EcsWorld) (entity : Entity) (value : Int64) : EcsWorld :=
  { w with
    registry := { w.registry with
      transform := Function.update w.registry.transform entity (some value) }
    populated := by
      intro other hOther
      obtain ⟨hValid, hTransform, hVelocity⟩ := w.populated other hOther
      refine ⟨hValid, ?_, hVelocity⟩
      by_cases hSame : other = entity
      · rw [hSame]
        simp
      · show (Function.update w.registry.transform entity (some value) other).isSome = true
        rw [Function.update_of_ne hSame]
        exact hTransform }

/-- An entity with its components. -/
def stateOf (w : EcsWorld) (entity : Entity) : EntityState where
  entity
  transform := (w.registry.transform entity).getD 0
  velocity := (w.registry.velocity entity).getD 0

/-- `Snapshot` and `CopySnapshot` on the owner thread. -/
def states (w : EcsWorld) : WorldSnapshot := w.entityOrder.map w.stateOf

end EcsWorld

/-- `AssertOwner`. -/
def assertOwner (caller : ThreadId) : WorldM Unit := do
  let w ← get
  if caller ≠ w.ownerThread then
    throw (.ownershipError "ECS access was attempted off the owner thread")

/-- `Snapshot`. -/
def snapshot (caller : ThreadId) : WorldM WorldSnapshot := do
  assertOwner caller
  return (← get).states

/-- The checks before the merge: the total number of updates. -/
def countUpdates (journalCount : Nat) : List EcsJournal → Nat → WorldM Nat
  | [], total => return total
  | journal :: journals, total => do
    if journalCount ≤ journal.workerIndex then
      throw (.ecsError "journal worker indexes are not contiguous")
    if MAX_JOURNAL_UPDATES - total < journal.transforms.length then
      throw (.ecsError "journal update count exceeds its bound")
    countUpdates journalCount journals (total + journal.transforms.length)

/-- The update at `updateIndex` of its journal fits the entity at `updateOffset`. -/
def matchesWorld (w : EcsWorld) (update : TransformUpdate) (updateIndex updateOffset : Nat) :
    Bool :=
  update.sequence == updateIndex && w.registry.valid update.entity &&
    (w.registry.transform update.entity).isSome &&
    w.entityOrder[updateOffset]? == some update.entity

/-- The inner loop of the merge: each update has to be the next one of the world. -/
def mergeUpdates : List TransformUpdate → Nat → Nat → WorldM Nat
  | [], _, updateOffset => return updateOffset
  | update :: updates, updateIndex, updateOffset => do
    let w ← get
    if matchesWorld w update updateIndex updateOffset = false then
      throw (.ecsError "journal update does not match stable world state")
    set (w.setTransform update.entity update.value)
    mergeUpdates updates (updateIndex + 1) (updateOffset + 1)

/-- The outer loop: each journal has to be the next one. -/
def mergeSorted : List EcsJournal → Nat → Nat → WorldM Unit
  | [], _, _ => return
  | journal :: journals, journalIndex, updateOffset => do
    if journal.workerIndex ≠ journalIndex then
      throw (.ecsError "journal worker indexes are not contiguous")
    let updateOffset ← mergeUpdates journal.transforms 0 updateOffset
    mergeSorted journals (journalIndex + 1) updateOffset

/-- `MergeJournals`. What was written before a throw stays. -/
def mergeJournals (caller : ThreadId) (s : JournalSort) (journals : List EcsJournal) :
    WorldM Unit := do
  assertOwner caller
  if journals = [] ∨ MAX_WORLD_WORKERS < journals.length then
    throw (.ecsError "journal count is outside its bound")
  let total ← countUpdates journals.length (s.sort journals) 0
  if total ≠ (← get).entityOrder.length then
    throw (.ecsError "journals did not cover the complete world snapshot")
  mergeSorted (s.sort journals) 0 0

/-- One word into the hash. -/
def mixHash (hash value : UInt64) : UInt64 := (hash ^^^ value) * HASH_PRIME

/-- `StateHash`, over the entities in their order. -/
def EcsWorld.stateHash (w : EcsWorld) : UInt64 :=
  w.states.foldl (fun hash state =>
    mixHash (mixHash (mixHash hash state.entity.toUInt64) state.transform.toUInt64)
      state.velocity.toUInt64) HASH_OFFSET

end Ithax.Ecs
