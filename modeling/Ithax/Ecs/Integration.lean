import Ithax.Ecs.Merge
import Ithax.Ecs.Tick
import Ithax.Threading.CoordinationSession

/-!
# The multicore integration

`RunIntegration`: a world that is ticked by changing numbers of workers, and whose hash
after each tick goes through the frame exchange. `CreateEntities` gives entity number `i`
the transform `i` and the velocity one, so that the world is known at every tick.

The supervisor that runs the workers is not modelled here, and neither is their scratch phase.

## Results

* `createEntities_states` — the world that is created.
* `length_tickSchedule`   — the phases make up all the ticks.
* `integration_of_run`    — the consumer reads the hash of the known world for every tick.
-/

namespace Ithax.Ecs

open Ithax.Lib

/-- The velocity that every entity is given. -/
def DEFAULT_VELOCITY : Int64 := 1

-- ---------------------------------------------------------------------------
-- Creation
-- ---------------------------------------------------------------------------

namespace Registry

/-- `create` and the two calls of `emplace`. -/
def emplace (registry : Registry) (entity : Entity) (value : Int64) : Registry where
  valid := Function.update registry.valid entity true
  transform := Function.update registry.transform entity (some value)
  velocity := Function.update registry.velocity entity (some DEFAULT_VELOCITY)

/-- The entities one after the other, the first with this value. -/
def emplaceAll (registry : Registry) : List Entity → Nat → Registry
  | [], _ => registry
  | entity :: entities, value =>
    (registry.emplace entity (Int64.ofNat value)).emplaceAll entities (value + 1)

variable {entity : Entity}

/-- Other entities are left alone. -/
theorem emplaceAll_of_notMem : ∀ (entities : List Entity) (registry : Registry) (value : Nat),
    entity ∉ entities →
    (registry.emplaceAll entities value).valid entity = registry.valid entity ∧
      (registry.emplaceAll entities value).transform entity = registry.transform entity ∧
      (registry.emplaceAll entities value).velocity entity = registry.velocity entity
  | [], _, _, _ => ⟨rfl, rfl, rfl⟩
  | other :: entities, registry, value, hNot => by
    obtain ⟨hOther, hRest⟩ := not_or.mp (mt List.mem_cons.mpr hNot)
    obtain ⟨hValid, hTransform, hVelocity⟩ := emplaceAll_of_notMem entities
      (registry.emplace other (Int64.ofNat value)) (value + 1) hRest
    refine ⟨hValid.trans ?_, hTransform.trans ?_, hVelocity.trans ?_⟩ <;>
      exact Function.update_of_ne hOther _ _

/-- Each entity is given its number and the velocity. -/
theorem emplaceAll_getElem : ∀ (entities : List Entity) (registry : Registry) (value i : Nat),
    entities.Nodup → entities[i]? = some entity →
    (registry.emplaceAll entities value).valid entity = true ∧
      (registry.emplaceAll entities value).transform entity = some (Int64.ofNat (value + i)) ∧
      (registry.emplaceAll entities value).velocity entity = some DEFAULT_VELOCITY
  | [], _, _, _, _, hAt => by cases hAt
  | other :: entities, registry, value, 0, hNodup, hAt => by
    obtain rfl := Option.some.inj hAt
    obtain ⟨hValid, hTransform, hVelocity⟩ := emplaceAll_of_notMem entities
      (registry.emplace other (Int64.ofNat value)) (value + 1) (List.nodup_cons.mp hNodup).1
    refine ⟨hValid.trans ?_, hTransform.trans ?_, hVelocity.trans ?_⟩ <;>
      exact Function.update_self _ _ _
  | other :: entities, registry, value, i + 1, hNodup, hAt => by
    have hRest := emplaceAll_getElem entities (registry.emplace other (Int64.ofNat value))
      (value + 1) i (List.nodup_cons.mp hNodup).2 hAt
    rw [Nat.add_assoc, Nat.add_comm 1 i] at hRest
    exact hRest

end Registry

namespace EcsWorld

/-- The world of the constructor. -/
def empty (ownerThread : ThreadId) : EcsWorld where
  registry := { valid := fun _ => false, transform := fun _ => none, velocity := fun _ => none }
  entityOrder := []
  ownerThread
  nodup := List.nodup_nil
  bounded := Nat.zero_le _
  populated := nofun

/-- What `entt` promises of entities that it creates: they differ, and none is in use. -/
structure Unused (w : EcsWorld) (entities : List Entity) : Prop where
  nodup : entities.Nodup
  fresh : ∀ entity ∈ entities, w.registry.valid entity = false

/-- An entity that exists is not among the new ones. -/
theorem Unused.notMem {w : EcsWorld} {entities : List Entity} (h : w.Unused entities)
    {entity : Entity} (hOld : entity ∈ w.entityOrder) : entity ∉ entities := by
  intro hNew
  cases (w.populated entity hOld).valid.symm.trans (h.fresh entity hNew)

/-- `CreateEntities`, when `create` returns these entities. -/
def createEntities (w : EcsWorld) (caller : ThreadId) (entities : List Entity)
    (hUnused : w.Unused entities) : Except EcsError EcsWorld :=
  if caller ≠ w.ownerThread then
    .error (.ownershipError "ECS access was attempted off the owner thread")
  else if hRoom : MAX_WORLD_ENTITIES - w.entityOrder.length < entities.length then
    .error (.ecsError "entity count exceeds its bound")
  else .ok {
    registry := w.registry.emplaceAll entities w.entityOrder.length
    entityOrder := w.entityOrder ++ entities
    ownerThread := w.ownerThread
    nodup := by
      refine List.nodup_append.mpr ⟨w.nodup, hUnused.nodup, fun old hOld new hNew hSame => ?_⟩
      exact hUnused.notMem hOld (hSame ▸ hNew)
    bounded := by
      have hBounded := w.bounded
      rw [List.length_append]
      omega
    populated := by
      intro entity hMem
      rcases List.mem_append.mp hMem with hOld | hNew
      · obtain ⟨hValid, hTransform, hVelocity⟩ := w.populated entity hOld
        obtain ⟨hSame, hSameTransform, hSameVelocity⟩ := Registry.emplaceAll_of_notMem entities
          w.registry w.entityOrder.length (hUnused.notMem hOld)
        exact ⟨hSame.trans hValid, hSameTransform ▸ hTransform, hSameVelocity ▸ hVelocity⟩
      · obtain ⟨i, hAt⟩ := List.mem_iff_getElem?.mp hNew
        obtain ⟨hValid, hTransform, hVelocity⟩ := Registry.emplaceAll_getElem entities w.registry
          w.entityOrder.length i hUnused.nodup hAt
        exact ⟨hValid, by rw [hTransform]; rfl, by rw [hVelocity]; rfl⟩ }

/-- The entities come after the old ones, each with its number for a transform. -/
theorem createEntities_states {w created : EcsWorld} {caller : ThreadId} {entities : List Entity}
    {hUnused : w.Unused entities} (h : w.createEntities caller entities hUnused = .ok created) :
    created.states = w.states ++ entities.mapIdx fun i entity => {
      entity
      transform := Int64.ofNat (w.entityOrder.length + i)
      velocity := DEFAULT_VELOCITY } := by
  unfold createEntities at h
  split at h
  · cases h
  · split at h
    · cases h
    · obtain rfl := Except.ok.inj h
      unfold states
      rw [List.map_append]
      congr 1
      · refine List.map_congr_left fun entity hOld => ?_
        obtain ⟨-, hTransform, hVelocity⟩ := Registry.emplaceAll_of_notMem entities w.registry
          w.entityOrder.length (hUnused.notMem hOld)
        simp only [stateOf, hTransform, hVelocity]
      · refine List.ext_getElem? fun i => ?_
        rw [List.getElem?_map, List.getElem?_mapIdx]
        cases hAt : entities[i]? with
        | none => rfl
        | some entity =>
          obtain ⟨-, hTransform, hVelocity⟩ := Registry.emplaceAll_getElem entities w.registry
            w.entityOrder.length i hUnused.nodup hAt
          simp only [Option.map_some, stateOf, hTransform, hVelocity, Option.getD_some]

end EcsWorld

-- ---------------------------------------------------------------------------
-- The world at every tick
-- ---------------------------------------------------------------------------

/-- The states of a new world so many ticks on. -/
def marchedStates (entities : List Entity) (ticks : Nat) : WorldSnapshot :=
  entities.mapIdx fun i entity =>
    { entity, transform := Int64.ofNat (i + ticks), velocity := DEFAULT_VELOCITY }

/-- `StateHash` of the world with this snapshot. -/
def hashStates (states : WorldSnapshot) : UInt64 :=
  states.foldl (fun hash state =>
    mixHash (mixHash (mixHash hash state.entity.toUInt64) state.transform.toUInt64)
      state.velocity.toUInt64) HASH_OFFSET

/-- A tick moves every state. -/
theorem states_advanced (w : EcsWorld) :
    w.advanced.states = w.states.map fun state => { state with transform := state.moved } := by
  unfold EcsWorld.states
  rw [List.map_map]
  refine List.map_congr_left fun entity (hEntity : entity ∈ w.entityOrder) => ?_
  simp [EcsWorld.stateOf, EcsWorld.advanced, hEntity]

/-- What entity `i` has after some ticks. -/
theorem getElem?_marchedStates {entities : List Entity} {ticks i : Nat} {state : EntityState}
    (h : (marchedStates entities ticks)[i]? = some state) : i < entities.length ∧
      state.transform = Int64.ofNat (i + ticks) ∧ state.velocity = DEFAULT_VELOCITY := by
  unfold marchedStates at h
  rw [List.getElem?_mapIdx] at h
  obtain ⟨entity, hAt, rfl⟩ := Option.map_eq_some_iff.mp h
  exact ⟨(List.getElem?_eq_some_iff.mp hAt).1, rfl, rfl⟩

/-- No transform leaves its range before `2 ^ 63` ticks. -/
theorem fits_marched {w : EcsWorld} {entities : List Entity} {ticks : Nat}
    (hStates : w.states = marchedStates entities ticks)
    (hRange : entities.length + ticks < 2 ^ 63) : w.Fits := by
  intro state hState
  rw [hStates] at hState
  obtain ⟨i, hAt⟩ := List.mem_iff_getElem?.mp hState
  obtain ⟨hi, hTransform, hVelocity⟩ := getElem?_marchedStates hAt
  have hSum : (Int64.ofNat (i + ticks)).toInt = (i + ticks : Nat) :=
    Int64.toInt_ofNat_of_lt (by omega)
  have hOne : DEFAULT_VELOCITY.toInt = 1 := by decide
  unfold EntityState.Fits
  rw [hTransform, hVelocity, hSum, hOne]
  omega

/-- One tick more. -/
theorem advanced_marched {w : EcsWorld} {entities : List Entity} {ticks : Nat}
    (hStates : w.states = marchedStates entities ticks)
    (hRange : entities.length + ticks < 2 ^ 63) :
    w.advanced.states = marchedStates entities (ticks + 1) := by
  have hFits := fits_marched hStates hRange
  rw [states_advanced, hStates]
  refine List.ext_getElem? fun i => ?_
  rw [List.getElem?_map]
  unfold marchedStates
  rw [List.getElem?_mapIdx, List.getElem?_mapIdx]
  cases hAt : entities[i]? with
  | none => rfl
  | some entity =>
    have hi := (List.getElem?_eq_some_iff.mp hAt).1
    have hSum : (Int64.ofNat (i + ticks)).toInt = (i + ticks : Nat) :=
      Int64.toInt_ofNat_of_lt (by omega)
    have hOne : DEFAULT_VELOCITY.toInt = 1 := by decide
    simp only [Option.map_some, EntityState.moved, hSum, hOne]
    rfl

-- ---------------------------------------------------------------------------
-- Ticks
-- ---------------------------------------------------------------------------

/-- An exception of the world, or of the integration itself. -/
inductive IntegrationError where
  | ecs (error : EcsError)
  | integration (what : String)

/-- A part of the integration, on its world. -/
abbrev IntegrationM := EStateM IntegrationError EcsWorld

/-- A call on the world. -/
def ecs {α : Type} (m : WorldM α) : IntegrationM α := zoom id (fun _ w => w) .ecs m

/-- The loop of `VerifyWorldTick`. -/
def verifyStates (tick : UInt64) : WorldSnapshot → Nat → Except String Unit
  | [], _ => .ok ()
  | state :: states, index =>
    if state.transform ≠ Int64.ofNat index + tick.toInt64 then
      .error "integration world state diverged"
    else if state.velocity ≠ 1 then .error "integration velocity state changed"
    else verifyStates tick states (index + 1)

/-- `VerifyWorldTick`: the number of entities, and each of them. -/
def verifyWorldTick (entityCount : Nat) (states : WorldSnapshot) (tick : UInt64) :
    Except String Unit :=
  if states.length ≠ entityCount then .error "integration world entity count changed"
  else verifyStates tick states 0

/-- `RunTick`: the phases, and then the checks of the world. -/
def runTick (s : JournalSort) (entityCount : Nat) (t : Tick) (tick : UInt64) :
    IntegrationM UInt64 := do
  ecs (Ecs.tick s t)
  let states ← ecs (snapshot (← get).ownerThread)
  fromExcept .integration (verifyWorldTick entityCount states tick)
  return (← get).stateHash

/-- The ticks of the phases, each with the hash that it publishes. -/
def runWorkerPhases (s : JournalSort) (entityCount : Nat) :
    List Tick → UInt64 → IntegrationM (List UInt64)
  | [], _ => return []
  | t :: ticks, tick => do
    let finalHash ← runTick s entityCount t tick
    return finalHash :: (← runWorkerPhases s entityCount ticks (tick + 1))

/-- The first phases take the ticks that are left over. -/
def phaseTicks (tickCount phases phase : Nat) : Nat :=
  tickCount / phases + if phase < tickCount % phases then 1 else 0

/-- The schedule, tick after tick. -/
def tickSchedule (schedule : List Tick) (tickCount : Nat) : List Tick :=
  (schedule.mapIdx fun phase t =>
    List.replicate (phaseTicks tickCount schedule.length phase) t).flatten

/-- The ticks of the phases add up to all of them. -/
theorem sum_phaseTicks (tickCount phases : Nat) : ∀ n : Nat,
    ((List.range n).map (phaseTicks tickCount phases)).sum =
      n * (tickCount / phases) + min n (tickCount % phases)
  | 0 => by simp
  | n + 1 => by
    rw [List.range_succ, List.map_append, List.sum_append, sum_phaseTicks tickCount phases n,
      Nat.succ_mul]
    simp only [List.map_cons, List.map_nil, List.sum_cons, List.sum_nil, phaseTicks]
    split <;> omega

/-- The phases make up all the ticks. -/
theorem length_tickSchedule {schedule : List Tick} (hSome : schedule ≠ []) (tickCount : Nat) :
    (tickSchedule schedule tickCount).length = tickCount := by
  have hPhases : (schedule.mapIdx fun phase t =>
      List.replicate (phaseTicks tickCount schedule.length phase) t).map List.length =
      (List.range schedule.length).map (phaseTicks tickCount schedule.length) := by
    refine List.ext_getElem (by simp) fun i hLeft hRight => ?_
    simp
  have hPositive : 0 < schedule.length := List.length_pos_iff.mpr hSome
  unfold tickSchedule
  rw [List.length_flatten, hPhases, sum_phaseTicks,
    Nat.min_eq_right (Nat.le_of_lt (Nat.mod_lt _ hPositive))]
  exact Nat.div_add_mod tickCount schedule.length

/-- The checks pass on what marches. -/
theorem verifyStates_marched (tick : Nat) : ∀ (entities : List Entity) (index : Nat),
    verifyStates (.ofNat tick) (entities.mapIdx fun i entity => {
      entity, transform := Int64.ofNat (index + i + tick), velocity := DEFAULT_VELOCITY }) index =
        .ok ()
  | [], _ => rfl
  | entity :: entities, index => by
    have hSum : Int64.ofNat (index + 0 + tick) =
        Int64.ofNat index + (UInt64.ofNat tick).toInt64 := by
      rw [Nat.add_zero, Int64.ofNat_add]
      rfl
    rw [List.mapIdx_cons, verifyStates, if_neg (fun hNot => hNot hSum),
      if_neg (fun hNot => hNot rfl)]
    have hRest := verifyStates_marched tick entities (index + 1)
    simp only [Nat.add_assoc, Nat.add_comm 1] at hRest ⊢
    exact hRest

/-- The hashes of a new world after each of its ticks. -/
def marchedHashes (entities : List Entity) (ticks : Nat) : List UInt64 :=
  (List.range ticks).map fun k => hashStates (marchedStates entities (k + 1))

/-- A tick of what marches goes through, and returns the hash of the next states. -/
theorem runTick_marched (s : JournalSort) (t : Tick) {w : EcsWorld} {entities : List Entity}
    {ticks : Nat} (hStates : w.states = marchedStates entities ticks)
    (hRange : entities.length + ticks < 2 ^ 63) :
    runTick s entities.length t (.ofNat (ticks + 1)) w =
      .ok (hashStates (marchedStates entities (ticks + 1))) w.advanced := by
  have hFits := fits_marched hStates hRange
  have hNext := advanced_marched hStates hRange
  have hTick : Ecs.tick s t w = .ok () w.advanced := by
    rw [tick_eq_sequentialTick, sequentialTick, if_pos hFits]
  have hVerify : verifyWorldTick entities.length w.advanced.states (.ofNat (ticks + 1)) =
      .ok () := by
    have hAll := verifyStates_marched (ticks + 1) entities 0
    simp only [Nat.zero_add] at hAll
    unfold verifyWorldTick
    rw [hNext, if_neg (by simp [marchedStates])]
    exact hAll
  have hSnapshot : snapshot w.advanced.ownerThread w.advanced =
      .ok w.advanced.states w.advanced := by
    simp [snapshot, assertOwner, bind, EStateM.bind, get, getThe, MonadStateOf.get, get_apply,
      pure, EStateM.pure]
  simp only [runTick, ecs, zoom, bind, EStateM.bind, id, hTick, get, getThe, MonadStateOf.get,
    get_apply, hSnapshot, fromExcept, hVerify, pure, EStateM.pure]
  rw [show w.advanced.stateHash = hashStates w.advanced.states from rfl, hNext]

/-- However many workers run the ticks, and however their journals come. -/
theorem runWorkerPhases_marched (s : JournalSort) {entities : List Entity} :
    ∀ (schedule : List Tick) (w : EcsWorld) (ticks : Nat), w.states = marchedStates entities ticks →
      entities.length + ticks + schedule.length < 2 ^ 63 →
      ∃ final : EcsWorld,
        runWorkerPhases s entities.length schedule (.ofNat (ticks + 1)) w =
          .ok ((List.range' ticks schedule.length).map fun k =>
            hashStates (marchedStates entities (k + 1))) final ∧
        final.states = marchedStates entities (ticks + schedule.length)
  | [], w, ticks, hStates, _ => ⟨w, rfl, hStates⟩
  | t :: schedule, w, ticks, hStates, hRange => by
    rw [List.length_cons] at hRange
    have hFirst := runTick_marched s t hStates (by omega)
    obtain ⟨final, hRest, hFinal⟩ := runWorkerPhases_marched s schedule w.advanced (ticks + 1)
      (advanced_marched hStates (by omega)) (by omega)
    refine ⟨final, ?_, ?_⟩
    · have hSucc : UInt64.ofNat (ticks + 1 + 1) = UInt64.ofNat (ticks + 1) + 1 :=
        UInt64.ofNat_add _ _
      rw [hSucc] at hRest
      simp only [runWorkerPhases, bind, EStateM.bind, hFirst, hRest, pure, EStateM.pure]
      rfl
    · rw [hFinal, List.length_cons, Nat.add_assoc, Nat.add_comm 1]

-- ---------------------------------------------------------------------------
-- The integration
-- ---------------------------------------------------------------------------

open Threading
open CoordinatedExchange hiding run

/-- A new world is ticked by any number of workers in any number of phases. No check of a tick
fails, and the hashes are those of the known world. When each is published in turn and the
exchange is stopped, unless a wait runs out of time, the consumer has read all of them,
however the three threads took turns. -/
theorem integration_of_run {caller : ThreadId} {entities : List Entity}
    {hUnused : (EcsWorld.empty caller).Unused entities} {created : EcsWorld}
    (hCreated : (EcsWorld.empty caller).createEntities caller entities hUnused = .ok created)
    (s : JournalSort) {schedule : List Tick} (hSchedule : schedule ≠ []) (tickCount : UInt32) :
    ∃ final : EcsWorld,
      runWorkerPhases s entities.length (tickSchedule schedule tickCount.toNat) 1 created =
        .ok (marchedHashes entities tickCount.toNat) final ∧
      final.states = marchedStates entities tickCount.toNat ∧
      ∀ (poolId : Nat) (threads : Role → ThreadId) (events : List Event)
        (exchange : CoordinatedExchange),
        CoordinatedExchange.run 1 tickCount poolId threads events = some exchange →
        .timeOut ∉ events →
        events.filter Event.isCall = sessionCalls 1 (marchedHashes entities tickCount.toNat) →
        exchange.owner = .ready →
        .stopped ∈ exchange.calls ∧ exchange.exchange.reads.map Frame.record =
          sessionRecords 1 (marchedHashes entities tickCount.toNat) := by
  have hStates : created.states = marchedStates entities 0 := by
    rw [EcsWorld.createEntities_states hCreated]
    simp [EcsWorld.states, EcsWorld.empty, marchedStates]
  have hBounded : entities.length ≤ MAX_WORLD_ENTITIES := by
    have hCount := congrArg List.length hStates
    simp only [EcsWorld.states, marchedStates, List.length_map, List.length_mapIdx] at hCount
    exact hCount ▸ created.bounded
  have hTicks := tickCount.toNat_lt
  have hLength := length_tickSchedule hSchedule tickCount.toNat
  obtain ⟨final, hRun, hFinal⟩ := runWorkerPhases_marched s
    (tickSchedule schedule tickCount.toNat) created 0 hStates (by
      rw [hLength]
      unfold MAX_WORLD_ENTITIES at hBounded
      omega)
  rw [hLength, ← List.range_eq_range'] at hRun
  rw [hLength, Nat.zero_add] at hFinal
  refine ⟨final, hRun, hFinal, fun poolId threads events exchange hEvents hTime hCalls hReady => ?_⟩
  have hFrames : (marchedHashes entities tickCount.toNat).length = tickCount.toNat := by
    simp [marchedHashes]
  refine ⟨?_, reads_of_session hEvents hTime hCalls hFrames hReady⟩
  rw [(completed_of_session hEvents hTime hCalls hFrames hReady).2]
  exact List.mem_append_right _ List.mem_cons_self

/-- A phase with one worker. -/
def oneWorker : Tick where
  workers := 1
  positive := by decide
  bounded := by decide
  arrange := id
  perm _ := List.Perm.refl _

/-- A phase with two workers, whose journals come in the other order. -/
def twoWorkers : Tick where
  workers := 2
  positive := by decide
  bounded := by decide
  arrange := List.reverse
  perm := List.reverse_perm

/-- In an empty world nothing exists. -/
theorem unused_empty (caller : ThreadId) {entities : List Entity} (h : entities.Nodup) :
    (EcsWorld.empty caller).Unused entities := ⟨h, fun _ _ => rfl⟩

/-- The hashes of the two ticks are published, and both frames are read. -/
def twoTicks : List Event :=
  passFrame 1 4874404554443847828 ++ passFrame 2 9149634771152388588 ++ stopThreads ++ [.owner]

/-- Two entities, a tick with one worker and a tick with two. -/
theorem integration_of_run_twoTicks : ∃ (created final : EcsWorld) (exchange : CoordinatedExchange),
    (EcsWorld.empty 7).createEntities 7 [5, 9] (unused_empty 7 (by decide)) = .ok created ∧
    runWorkerPhases stableSort 2 [oneWorker, twoWorkers] 1 created =
      .ok [4874404554443847828, 9149634771152388588] final ∧
    CoordinatedExchange.run 1 2 0 (fun role => if role = .producer then 10 else 20) twoTicks =
      some exchange ∧
    exchange.exchange.reads.map Frame.record =
      [.ofWords 1 4874404554443847828, .ofWords 2 9149634771152388588] := by
  obtain ⟨created, hCreated⟩ : ∃ created,
      (EcsWorld.empty 7).createEntities 7 [5, 9] (unused_empty 7 (by decide)) = .ok created :=
    ⟨_, rfl⟩
  obtain ⟨exchange, hRun, hReady⟩ : ∃ exchange,
      CoordinatedExchange.run 1 2 0 (fun role => if role = .producer then 10 else 20) twoTicks =
        some exchange ∧ exchange.owner = .ready := ⟨_, rfl, rfl⟩
  obtain ⟨final, hTicks, -, hReads⟩ :=
    integration_of_run hCreated stableSort (List.cons_ne_nil oneWorker [twoWorkers]) 2
  have hHashes : marchedHashes [5, 9] (2 : UInt32).toNat =
      [4874404554443847828, 9149634771152388588] := by decide
  have hSchedule : tickSchedule [oneWorker, twoWorkers] (2 : UInt32).toNat =
      [oneWorker, twoWorkers] := rfl
  rw [hHashes] at hTicks hReads
  rw [hSchedule] at hTicks
  exact ⟨created, final, exchange, hCreated, hTicks, hRun,
    (hReads 0 _ _ exchange hRun (by decide) (by decide) hReady).2⟩

end Ithax.Ecs
