import Ithax.Lib.Interleaving

/-!
# Frame slots

`threading/frame_slot.cpp`: a pool of payload slots that one producer thread writes
and one consumer thread reads, through leases. Every function of the pool below is
one section under its mutex; a section that has to wait says so, and is entered again
by `acquireWriteLoop` and `acquireReadLoop`.
-/

namespace Ithax.Threading

open Ithax.Lib

/-- The largest number of slots. -/
def MAX_FRAME_SLOT_COUNT : Nat := 64
/-- The largest capacity of a slot. -/
def MAX_FRAME_SLOT_PAYLOAD_BYTES : Nat := 16 * 1024 * 1024
/-- The largest capacity of all slots together. -/
def MAX_FRAME_SLOT_STORAGE_BYTES : Nat := 64 * 1024 * 1024

/-- `std::numeric_limits<std::uint64_t>::max()`. -/
def MAX_GENERATION : Nat := 2 ^ 64 - 1

/-- A thread, as `std::thread::id` tells it from others. -/
abbrev ThreadId := Nat

/-- `FrameSlotToken`. The generation 0 names no slot. -/
structure FrameSlotToken where
  slotId : Nat := 0
  generation : Nat := 0
  poolId : Nat := 0
  deriving DecidableEq, Repr

/-- `FrameSlotState`. -/
inductive FrameSlotState where
  | free | writing | published | reading
  deriving DecidableEq, Repr

/-- The two sides of the pool. -/
inductive Role where
  | producer | consumer
  deriving DecidableEq, Repr

/-- The state of the slot under a write lease, or under a read lease. -/
def Role.holds : Role → FrameSlotState
  | producer => .writing
  | consumer => .reading

/-- `FrameSlotError`, by its subclasses. -/
inductive FrameSlotError where
  | capacity (what : String)
  | generation (what : String)
  | ownership (what : String)
  | state (what : String)
  deriving DecidableEq, Repr

/-- `SlotStorage`. -/
structure SlotStorage where
  state : FrameSlotState := .free
  generation : Nat := 0
  payloadSize : Nat := 0
  wasCancelled : Bool := false
  payload : List UInt8
  deriving DecidableEq, Repr

/-- The slot as `ReleaseRead` and `DiscardPublished` leave it, or `CancelWrite`. -/
def SlotStorage.freed (slot : SlotStorage) (wasCancelled : Bool) : SlotStorage :=
  { slot with payloadSize := 0, wasCancelled, state := .free }

/-- The fields of `FrameWriteLease` and of `FrameReadLease`. -/
structure FrameLease where
  /-- Whether `m_pool` points to the pool. -/
  pool : Bool := false
  token : FrameSlotToken := {}
  active : Bool := false
  deriving DecidableEq, Repr

/-- `FrameSlotPool`, without its mutex and its conditions. -/
structure FrameSlotPool where
  slots : List SlotStorage
  payloadCapacity : Nat
  poolId : Nat
  closed : Bool := false
  producerThread : Option ThreadId := none
  consumerThread : Option ThreadId := none
  activeOperations : Nat := 0
  deriving DecidableEq, Repr

/-- How a section ends. -/
inductive Outcome (α : Type) where
  | returned (value : α)
  | threw (error : FrameSlotError)
  | blocked
  /-- `std::terminate`. -/
  | terminated
  deriving DecidableEq, Repr

namespace FrameSlotPool

/-- The constructor, with the id that `AllocatePoolId` gave. -/
def create (slotCount payloadCapacity poolId : Nat) : Except FrameSlotError FrameSlotPool :=
  if slotCount = 0 ∨ MAX_FRAME_SLOT_COUNT < slotCount ∨ payloadCapacity = 0 ∨
      MAX_FRAME_SLOT_PAYLOAD_BYTES < payloadCapacity then
    .error (.capacity "frame slot dimensions are outside bounds")
  else if MAX_FRAME_SLOT_STORAGE_BYTES / payloadCapacity < slotCount then
    .error (.capacity "frame slot storage exceeds its bound")
  else .ok {
    slots := List.replicate slotCount { payload := List.replicate payloadCapacity 0 }
    payloadCapacity, poolId }

-- ---------------------------------------------------------------------------
-- Threads and tokens
-- ---------------------------------------------------------------------------

/-- `RegisterProducerLocked`: the first thread that writes is the only one. -/
def registerProducer (p : FrameSlotPool) (thread : ThreadId) : Except FrameSlotError FrameSlotPool :=
  match p.producerThread with
  | none => .ok { p with producerThread := some thread }
  | some producer =>
    if producer ≠ thread then .error (.ownership "frame slot pool has multiple producers")
    else .ok p

/-- `RegisterConsumerLocked`, for the thread that reads. -/
def registerConsumer (p : FrameSlotPool) (thread : ThreadId) : Except FrameSlotError FrameSlotPool :=
  match p.consumerThread with
  | none => .ok { p with consumerThread := some thread }
  | some consumer =>
    if consumer ≠ thread then .error (.ownership "frame slot pool has multiple consumers")
    else .ok p

/-- `AssertProducerLocked`. -/
def assertProducer (p : FrameSlotPool) (thread : ThreadId) : Except FrameSlotError Unit :=
  if p.producerThread ≠ some thread then .error (.ownership "frame slot write owner mismatch")
  else .ok ()

/-- `AssertConsumerLocked`. -/
def assertConsumer (p : FrameSlotPool) (thread : ThreadId) : Except FrameSlotError Unit :=
  if p.consumerThread ≠ some thread then .error (.ownership "frame slot read owner mismatch")
  else .ok ()

/-- The assertion for a role. -/
def assertThread (p : FrameSlotPool) (role : Role) (thread : ThreadId) :
    Except FrameSlotError Unit :=
  match role with
  | .producer => p.assertProducer thread
  | .consumer => p.assertConsumer thread

/-- `SlotForTokenLocked`: the token has to be of this pool, and current. -/
def slotForToken (p : FrameSlotPool) (token : FrameSlotToken) : Except FrameSlotError SlotStorage :=
  match p.slots[token.slotId]? with
  | none => .error (.generation "frame slot token is invalid")
  | some slot =>
    if token.poolId ≠ p.poolId ∨ token.generation = 0 then
      .error (.generation "frame slot token is invalid")
    else if slot.generation ≠ token.generation then
      .error (.generation "frame slot token is stale")
    else .ok slot

/-- One slot is written. -/
def setSlot (p : FrameSlotPool) (id : Nat) (slot : SlotStorage) : FrameSlotPool :=
  { p with slots := p.slots.set id slot }

-- ---------------------------------------------------------------------------
-- Acquiring
-- ---------------------------------------------------------------------------

/-- `FindFreeSlotLocked` and the slot it finds; `none` is its `m_slots.size()`. -/
def findFreeSlot (p : FrameSlotPool) : Option (Nat × SlotStorage) := do
  let id ← p.slots.findIdx? fun slot => slot.state = .free
  let slot ← p.slots[id]?
  return (id, slot)

/-- What `TryAcquireWrite` and `AcquireWrite` do with a free slot. -/
def claimSlot (p : FrameSlotPool) (id : Nat) (slot : SlotStorage) :
    Except FrameSlotError (FrameSlotPool × FrameLease) :=
  if slot.generation = MAX_GENERATION then
    .error (.generation "frame slot generation was exhausted")
  else
    let generation := slot.generation + 1
    .ok (p.setSlot id { slot with
        generation, payloadSize := 0, wasCancelled := false, state := .writing },
      { pool := true, token := { slotId := id, generation, poolId := p.poolId }, active := true })

/-- `TryAcquireWrite`. -/
def tryAcquireWrite (p : FrameSlotPool) (thread : ThreadId) :
    FrameSlotPool × Outcome (Option FrameLease) :=
  match p.registerProducer thread with
  | .error e => (p, .threw e)
  | .ok p =>
    if p.closed then (p, .returned none)
    else
      match p.findFreeSlot with
      | none => (p, .returned none)
      | some (id, slot) =>
        match p.claimSlot id slot with
        | .error e => (p, .threw e)
        | .ok (p, lease) => (p, .returned (some lease))

/-- `finish` with `EndOperationLocked`, on the way out of a call. -/
def finish {α : Type} (p : FrameSlotPool) (result : Outcome α) : FrameSlotPool × Outcome α :=
  if p.activeOperations = 0 then (p, .terminated)
  else ({ p with activeOperations := p.activeOperations - 1 }, result)

/-- `AcquireWrite` from its wait on. -/
def acquireWriteLoop (p : FrameSlotPool) : FrameSlotPool × Outcome (Option FrameLease) :=
  if p.closed then p.finish (.returned none)
  else
    match p.findFreeSlot with
    | none => (p, .blocked)
    | some (id, slot) =>
      match p.claimSlot id slot with
      | .error e => p.finish (.threw e)
      | .ok (p, lease) => p.finish (.returned (some lease))

/-- `AcquireWrite`. -/
def acquireWrite (p : FrameSlotPool) (thread : ThreadId) :
    FrameSlotPool × Outcome (Option FrameLease) :=
  let p := { p with activeOperations := p.activeOperations + 1 }
  match p.registerProducer thread with
  | .error e => p.finish (.threw e)
  | .ok p => p.acquireWriteLoop

/-- The loop of `AcquireReadImpl`. -/
def acquireReadLoop (p : FrameSlotPool) (token : FrameSlotToken) (blocking : Bool) :
    FrameSlotPool × Outcome (Option FrameLease) :=
  match p.slotForToken token with
  | .error e => p.finish (.threw e)
  | .ok slot =>
    if slot.state = .published then
      (p.setSlot token.slotId { slot with state := .reading }).finish
        (.returned (some { pool := true, token, active := true }))
    else if slot.state = .writing then
      if p.closed ∨ ¬blocking then p.finish (.returned none) else (p, .blocked)
    else if slot.wasCancelled ∨ p.closed then p.finish (.returned none)
    else p.finish (.threw (.state "frame slot is not published"))

/-- `AcquireReadImpl`. -/
def acquireReadImpl (p : FrameSlotPool) (thread : ThreadId) (token : FrameSlotToken)
    (blocking : Bool) : FrameSlotPool × Outcome (Option FrameLease) :=
  let p := { p with activeOperations := p.activeOperations + 1 }
  match p.slotForToken token with
  | .error e => p.finish (.threw e)
  | .ok _ =>
    match p.registerConsumer thread with
    | .error e => p.finish (.threw e)
    | .ok p => p.acquireReadLoop token blocking

/-- `TryAcquireRead`. -/
def tryAcquireRead (p : FrameSlotPool) (thread : ThreadId) (token : FrameSlotToken) :
    FrameSlotPool × Outcome (Option FrameLease) :=
  p.acquireReadImpl thread token false

/-- `AcquireRead`. -/
def acquireRead (p : FrameSlotPool) (thread : ThreadId) (token : FrameSlotToken) :
    FrameSlotPool × Outcome (Option FrameLease) :=
  p.acquireReadImpl thread token true

-- ---------------------------------------------------------------------------
-- Slots in use
-- ---------------------------------------------------------------------------

/-- `Close`. Leases that are out can still be given back. -/
def close (p : FrameSlotPool) : FrameSlotPool := { p with closed := true }

/-- `DiscardPublished`: a packet that nobody will read gives its slot back. -/
def discardPublished (p : FrameSlotPool) (thread : ThreadId) (token : FrameSlotToken) :
    FrameSlotPool × Outcome Unit :=
  match p.slotForToken token with
  | .error e => (p, .threw e)
  | .ok slot =>
    match p.registerConsumer thread with
    | .error e => (p, .threw e)
    | .ok p =>
      if ¬p.closed ∨ slot.state ≠ .published then
        (p, .threw (.state "published frame slot cannot be discarded"))
      else (p.setSlot token.slotId (slot.freed false), .returned ())

/-- The slot of a token that is in use by the calling thread: what every use of a lease
begins with. -/
def heldSlot (p : FrameSlotPool) (role : Role) (thread : ThreadId) (token : FrameSlotToken)
    (what : String) : Except FrameSlotError SlotStorage := do
  p.assertThread role thread
  let slot ← p.slotForToken token
  if slot.state ≠ role.holds then throw (.state what)
  return slot

/-- `memcpy` of the bytes into a span. -/
def copyBytes (offset : Nat) (bytes payload : List UInt8) : List UInt8 :=
  payload.take offset ++ bytes ++ payload.drop (offset + bytes.length)

/-- `WritePayload` and the write through the span that it returns. -/
def writePayload (p : FrameSlotPool) (thread : ThreadId) (token : FrameSlotToken)
    (write : List UInt8 → List UInt8) : Except FrameSlotError FrameSlotPool := do
  let slot ← p.heldSlot .producer thread token "frame slot is not writable"
  return p.setSlot token.slotId { slot with payload := write slot.payload }

/-- `WritePayloadSize`. -/
def writePayloadSize (p : FrameSlotPool) (thread : ThreadId) (token : FrameSlotToken) :
    Except FrameSlotError Nat := do
  let slot ← p.heldSlot .producer thread token "frame slot is not writable"
  return slot.payloadSize

/-- `SetWritePayloadSize`. -/
def setWritePayloadSize (p : FrameSlotPool) (thread : ThreadId) (token : FrameSlotToken)
    (size : Nat) : Except FrameSlotError FrameSlotPool := do
  let slot ← p.heldSlot .producer thread token "frame slot is not writable"
  if p.payloadCapacity < size then
    throw (.capacity "frame slot payload exceeds its capacity")
  return p.setSlot token.slotId { slot with payloadSize := size }

/-- `PublishWrite`. -/
def publishWrite (p : FrameSlotPool) (thread : ThreadId) (token : FrameSlotToken) :
    Except FrameSlotError FrameSlotPool := do
  let slot ← p.heldSlot .producer thread token "frame slot is not writable"
  if p.closed then throw (.state "closed frame slot cannot be published")
  return p.setSlot token.slotId { slot with state := .published }

/-- `CancelWrite`. -/
def cancelWrite (p : FrameSlotPool) (thread : ThreadId) (token : FrameSlotToken) :
    Except FrameSlotError FrameSlotPool := do
  let slot ← p.heldSlot .producer thread token "frame slot is not cancellable"
  return p.setSlot token.slotId (slot.freed true)

/-- `ReadPayload`: as many bytes as were written. -/
def readPayload (p : FrameSlotPool) (thread : ThreadId) (token : FrameSlotToken) :
    Except FrameSlotError (List UInt8) := do
  let slot ← p.heldSlot .consumer thread token "frame slot is not readable"
  return slot.payload.take slot.payloadSize

/-- `ReadPayloadSize`. -/
def readPayloadSize (p : FrameSlotPool) (thread : ThreadId) (token : FrameSlotToken) :
    Except FrameSlotError Nat := do
  let slot ← p.heldSlot .consumer thread token "frame slot is not readable"
  return slot.payloadSize

/-- `ReleaseRead`. -/
def releaseRead (p : FrameSlotPool) (thread : ThreadId) (token : FrameSlotToken) :
    Except FrameSlotError FrameSlotPool := do
  let slot ← p.heldSlot .consumer thread token "frame slot is not releasable"
  return p.setSlot token.slotId (slot.freed false)

/-- `IsQuiescent`. -/
def isQuiescent (p : FrameSlotPool) : Bool :=
  p.activeOperations = 0 ∧ ∀ slot ∈ p.slots, slot.state = .free

end FrameSlotPool

-- ---------------------------------------------------------------------------
-- Leases
-- ---------------------------------------------------------------------------

namespace FrameLease

/-- The check that every use of a lease makes. -/
def usable (lease : FrameLease) : Bool := lease.active && lease.pool

/-- What a lease is after another was constructed or assigned from it. -/
def movedFrom (lease : FrameLease) : FrameLease := { lease with pool := false, active := false }

/-- A use of a lease that throws when it is not active. -/
def withToken {α : Type} (lease : FrameLease) (what : String)
    (use : FrameSlotToken → Except FrameSlotError α) : Except FrameSlotError α :=
  if lease.usable then use lease.token else .error (.state what)

/-- `Cancel` and `Release`; `none` is `std::terminate`. -/
def giveBack (lease : FrameLease) (p : FrameSlotPool)
    (back : FrameSlotToken → Except FrameSlotError FrameSlotPool) :
    Option (FrameSlotPool × FrameLease) :=
  if lease.usable then
    match back lease.token with
    | .ok p => some (p, { lease with active := false })
    | .error _ => none
  else some (p, lease)

end FrameLease

-- ---------------------------------------------------------------------------
-- The two threads
-- ---------------------------------------------------------------------------

/-- `CancelWrite` and `ReleaseRead`. -/
def FrameSlotPool.back (p : FrameSlotPool) (thread : ThreadId) (role : Role)
    (token : FrameSlotToken) : Except FrameSlotError FrameSlotPool :=
  match role with
  | .producer => p.cancelWrite thread token
  | .consumer => p.releaseRead thread token

/-- A frame as it was when its slot was published. -/
structure PublishedFrame where
  token : FrameSlotToken
  payloadSize : Nat
  payload : List UInt8
  deriving DecidableEq, Repr

/-- What has happened to the tokens of a pool. -/
structure History where
  issued : List FrameSlotToken := []
  published : List PublishedFrame := []
  granted : List FrameSlotToken := []
  discarded : List FrameSlotToken := []
  deriving DecidableEq, Repr

/-- The slot of the token is published as it is in the pool. -/
def History.publish (history : History) (p : FrameSlotPool) (token : FrameSlotToken) : History :=
  let frame := (p.slotForToken token).toOption.map fun slot =>
    { token, payloadSize := slot.payloadSize, payload := slot.payload }
  { history with published := history.published ++ frame.toList }

/-- What a thread can do with its leases. -/
inductive LeaseOp where
  | construct
  | moveConstruct (other : Nat)
  | moveAssign (lease other : Nat)
  /-- `Cancel` or `Release`. -/
  | giveBack (lease : Nat)
  | destroy (lease : Nat)
  deriving DecidableEq, Repr

/-- What the two threads do. -/
inductive Action where
  | tryAcquireWrite
  | acquireWrite
  /-- The producer's wait ends, for whatever reason. -/
  | resumeWrite
  /-- A write of bytes through the span that `Payload` returns. -/
  | write (lease offset : Nat) (bytes : List UInt8)
  | setPayloadSize (lease size : Nat)
  | publish (lease : Nat)
  | tryAcquireRead (token : FrameSlotToken)
  | acquireRead (token : FrameSlotToken)
  | resumeRead
  | discardPublished (token : FrameSlotToken)
  | lease (role : Role) (op : LeaseOp)
  | close
  deriving DecidableEq, Repr

/-- A pool with the leases on it. -/
structure System where
  pool : FrameSlotPool
  threads : Role → ThreadId
  leases : Role → List FrameLease := fun _ => []
  /-- The producer is inside `AcquireWrite`. -/
  writeWaits : Bool := false
  /-- The consumer is inside `AcquireRead` of the token. -/
  readWaits : Option FrameSlotToken := none
  terminated : Bool := false
  history : History := {}

namespace System

/-- The leases of one side are replaced. -/
def setLeases (s : System) (role : Role) (leases : List FrameLease) : System :=
  { s with leases := Function.update s.leases role leases }

/-- The producer's call has come to `outcome`. -/
def acquiredWrite (s : System) : FrameSlotPool × Outcome (Option FrameLease) → System
  | (pool, .returned (some lease)) =>
    { s.setLeases .producer (s.leases .producer ++ [lease]) with
      pool, writeWaits := false
      history := { s.history with issued := s.history.issued ++ [lease.token] } }
  | (pool, .returned none) => { s with pool, writeWaits := false }
  | (pool, .threw _) => { s with pool, writeWaits := false }
  | (pool, .blocked) => { s with pool, writeWaits := true }
  | (pool, .terminated) => { s with pool, terminated := true }

/-- The consumer's call on `token` has come to `outcome`. -/
def acquiredRead (s : System) (token : FrameSlotToken) :
    FrameSlotPool × Outcome (Option FrameLease) → System
  | (pool, .returned (some lease)) =>
    { s.setLeases .consumer (s.leases .consumer ++ [lease]) with
      pool, readWaits := none
      history := { s.history with granted := s.history.granted ++ [token] } }
  | (pool, .returned none) => { s with pool, readWaits := none }
  | (pool, .threw _) => { s with pool, readWaits := none }
  | (pool, .blocked) => { s with pool, readWaits := some token }
  | (pool, .terminated) => { s with pool, terminated := true }

/-- `Cancel` or `Release` of the lease at `i`. -/
def giveBack (s : System) (role : Role) (i : Nat) (lease : FrameLease) : System :=
  match lease.giveBack s.pool (s.pool.back (s.threads role) role) with
  | some (pool, lease) => { s.setLeases role ((s.leases role).set i lease) with pool }
  | none => { s with terminated := true }

/-- A lease is constructed, moved, assigned or destroyed. -/
def leaseStep (s : System) (role : Role) : LeaseOp → Option System
  | .construct => some (s.setLeases role (s.leases role ++ [{}]))
  | .moveConstruct j => do
    let other ← (s.leases role)[j]?
    some (s.setLeases role ((s.leases role).set j other.movedFrom ++ [other]))
  | .moveAssign i j => do
    let lease ← (s.leases role)[i]?
    let other ← (s.leases role)[j]?
    if i = j then some s
    else
      let s := s.giveBack role i lease
      if s.terminated then some s
      else some (s.setLeases role (((s.leases role).set i other).set j other.movedFrom))
  | .giveBack i => do
    let lease ← (s.leases role)[i]?
    some (s.giveBack role i lease)
  | .destroy i => do
    let lease ← (s.leases role)[i]?
    let s := s.giveBack role i lease
    if s.terminated then some s
    else some (s.setLeases role ((s.leases role).eraseIdx i))

/-- The thread is inside a call that waits. -/
def waits (s : System) : Role → Bool
  | .producer => s.writeWaits
  | .consumer => s.readWaits.isSome

/-- A write through a lease; one that throws leaves everything as it is. -/
def useWrite (s : System) (i : Nat) (use : FrameSlotToken → Except FrameSlotError FrameSlotPool) :
    Option System := do
  let lease ← (s.leases .producer)[i]?
  match lease.withToken "write lease is not active" use with
  | .ok pool => some { s with pool }
  | .error _ => some s

/-- `Publish` on the lease at `i`. -/
def publish (s : System) (i : Nat) (lease : FrameLease) : System :=
  match lease.withToken "write lease is not active" (s.pool.publishWrite (s.threads .producer)) with
  | .ok pool =>
    { s.setLeases .producer ((s.leases .producer).set i { lease with active := false }) with
      pool, history := s.history.publish s.pool lease.token }
  | .error _ => s

/-- The consumer discards a packet. -/
def discardPublished (s : System) (token : FrameSlotToken) : System :=
  match s.pool.discardPublished (s.threads .consumer) token with
  | (pool, .returned ()) => { s with
      pool, history := { s.history with discarded := s.history.discarded ++ [token] } }
  | (pool, _) => { s with pool }

/-- One section of one thread; `none` while the thread has to wait. -/
def step (s : System) (a : Action) : Option System :=
  if s.terminated then none
  else
    match a with
    | .tryAcquireWrite =>
      if s.writeWaits then none
      else some (s.acquiredWrite (s.pool.tryAcquireWrite (s.threads .producer)))
    | .acquireWrite =>
      if s.writeWaits then none
      else some (s.acquiredWrite (s.pool.acquireWrite (s.threads .producer)))
    | .resumeWrite =>
      if s.writeWaits then some (s.acquiredWrite s.pool.acquireWriteLoop) else none
    | .write i offset bytes =>
      if s.writeWaits ∨ s.pool.payloadCapacity < offset + bytes.length then none
      else s.useWrite i fun token =>
        s.pool.writePayload (s.threads .producer) token (FrameSlotPool.copyBytes offset bytes)
    | .setPayloadSize i size =>
      if s.writeWaits then none
      else s.useWrite i fun token =>
        s.pool.setWritePayloadSize (s.threads .producer) token size
    | .publish i =>
      if s.writeWaits then none else (s.leases .producer)[i]?.map (s.publish i)
    | .tryAcquireRead token =>
      if s.readWaits.isSome then none
      else some (s.acquiredRead token (s.pool.tryAcquireRead (s.threads .consumer) token))
    | .acquireRead token =>
      if s.readWaits.isSome then none
      else some (s.acquiredRead token (s.pool.acquireRead (s.threads .consumer) token))
    | .resumeRead =>
      s.readWaits.map fun token => s.acquiredRead token (s.pool.acquireReadLoop token true)
    | .discardPublished token =>
      if s.readWaits.isSome then none else some (s.discardPublished token)
    | .lease role op => if s.waits role then none else s.leaseStep role op
    | .close => some { s with pool := s.pool.close }

end System

/-- A run of the two threads on a new pool. -/
def run (slotCount payloadCapacity poolId : Nat) (threads : Role → ThreadId)
    (actions : List Action) : Option System := do
  let pool ← (FrameSlotPool.create slotCount payloadCapacity poolId).toOption
  runEvents System.step { pool, threads } actions

end Ithax.Threading
