import Ithax.Lib.LittleEndian
import Ithax.Threading.ExchangeProgress

/-!
# The coordinated exchange

`FrameExchange` of `stage3_multicore_integration.cpp` as a whole: the two threads, the
thread that owns the exchange and publishes one record after the other, and the
coordination that the three share under its mutex. The owner may give up waiting at any
time, and may stop the exchange or destroy it between two calls.

Each step is one section of one of the three threads.

## Results

* `producerStep_of_step`  — the sections of the producer's thread.
* `consumerStep_of_step`  — the sections of the consumer's thread.
-/

namespace Ithax.Threading

open Ithax.Lib

/-- How many slots the pool has. -/
def FRAME_SLOT_COUNT : Nat := 2
/-- The bytes of a record. -/
def FRAME_PAYLOAD_BYTES : Nat := 16
/-- How many packets the channel holds. -/
def FRAME_CHANNEL_CAPACITY : Nat := 2

/-- A `FrameRecord` and its bytes. -/
def FrameRecord.ofWords (tick worldHash : UInt64) : FrameRecord where
  tick := tick.toNat
  worldHash := worldHash.toNat
  bytes := leBytes 8 tick.toNat ++ leBytes 8 worldHash.toNat

/-- The text of an exception. -/
def FrameSlotError.what : FrameSlotError → String
  | capacity what | generation what | ownership what | state what => what

-- ---------------------------------------------------------------------------
-- What is thrown
-- ---------------------------------------------------------------------------

/-- What the consumer requires of a record that it has read. -/
def recordFault (expectedTick : UInt64) (packet : FramePacket) (payload : List UInt8) :
    Option String :=
  if payload.length ≠ FRAME_PAYLOAD_BYTES then some "frame payload size was incorrect"
  else
    let tick := leNat (payload.take 8)
    let worldHash := leNat (payload.drop 8)
    if tick ≠ expectedTick.toNat then some "frame consumer received an out-of-order tick"
    else if tick ≠ packet.generation then
      some "frame packet generation did not match its payload"
    else if worldHash ≠ packet.worldHash then some "frame packet hash did not match its payload"
    else none

/-- What comes of a call that has to give a lease. -/
def leaseFault (what : String) : Outcome (Option FrameLease) → String
  | .returned none => what
  | .threw e => e.what
  | _ => ""

/-- The text of what a use throws. -/
def useFault {α : Type} : Except FrameSlotError α → String
  | .error e => e.what
  | .ok _ => ""

/-- The text of what a call on the channel throws. -/
def channelFault {α : Type} : ChannelOutcome α → String
  | .threw e => e.what
  | _ => ""

namespace FrameExchange

/-- The exception that the producer's next section throws, if it throws one. -/
def producerFault (x : FrameExchange) : String :=
  let thread := x.threads .producer
  match x.producer with
  | .acquiring _ =>
    leaseFault "frame producer could not acquire a slot" x.slots.acquireWriteLoop.2
  | .writing record lease =>
    useFault (lease.withToken "write lease is not active" fun token =>
      x.slots.writePayload thread token (FrameSlotPool.copyBytes 0 record.bytes))
  | .sizing record lease =>
    useFault (lease.withToken "write lease is not active" fun token =>
      x.slots.setWritePayloadSize thread token record.bytes.length)
  | .sending frame _ => channelFault (x.channel.publish thread frame.packet).2
  | .sent _ lease =>
    useFault (lease.withToken "write lease is not active" (x.slots.publishWrite thread))
  | _ => ""

/-- What the consumer's next section comes to: the checks it makes, and the exception that it
throws, if it throws one. `ended` says whether it has seen all frames. -/
def consumerFault (x : FrameExchange) (expectedTick : UInt64) (ended : Bool) : Bool × String :=
  let thread := x.threads .consumer
  match x.consumer with
  | .idle =>
    match (x.channel.consume thread).2 with
    | .returned none => (ended, "frame consumer did not receive every integration tick")
    | outcome => (true, channelFault outcome)
  | .received packet =>
    match packet.slot with
    | none => (true, "frame packet did not carry a slot token")
    | some token =>
      (true, leaseFault "frame consumer could not acquire a slot"
        (x.slots.acquireRead thread token).2)
  | .waiting _ token =>
    (true, leaseFault "frame consumer could not acquire a slot"
      (x.slots.acquireReadLoop token true).2)
  | .reading packet lease =>
    match lease.withToken "read lease is not active" (x.slots.readPayload thread) with
    | .ok payload =>
      match recordFault expectedTick packet payload with
      | some what => (false, what)
      | none => (true, "")
    | .error e => (false, e.what)
  | _ => (true, "")

end FrameExchange

/-- An exception is on its way to the `catch` block, or there and not recorded. -/
def Producer.raises : Producer → Bool
  | unwinding _ | failing => true
  | _ => false

/-- The consumer is about to throw. -/
def Consumer.raises : Consumer → Bool
  | releasing _ false | failing => true
  | _ => false

/-- The consumer is about to release a frame that has passed its checks, or has not. -/
def Consumer.releases (checks : Bool) : Consumer → Bool
  | releasing _ checked => checked == checks
  | _ => false

/-- The consumer is about to read a frame. -/
def Consumer.reads : Consumer → Bool
  | reading _ _ => true
  | _ => false

-- ---------------------------------------------------------------------------
-- State
-- ---------------------------------------------------------------------------

/-- `FrameCoordination`: what the owner and the threads tell each other. -/
structure FrameCoordination where
  pending : Option FrameRecord := none
  /-- The text of the exception. -/
  error : Option String := none
  inFlight : Bool := false
  stopRequested : Bool := false
  deriving DecidableEq, Repr

/-- What `RequestStop`, `RecordError` and a `Publish` that gives up do to the coordination. -/
def FrameCoordination.halt (c : FrameCoordination) (error : Option String) : FrameCoordination where
  pending := none
  error := c.error <|> error
  inFlight := false
  stopRequested := true

/-- Where the thread stands that owns the exchange. -/
inductive Owner where
  | ready
  /-- Inside the `wait_for` of `Publish`. -/
  | publishing (record : FrameRecord)
  /-- `Publish` has given up, before it closes the channel and before it closes the pool. -/
  | abandoning (record : FrameRecord) (error : String)
  | abandoned (record : FrameRecord) (error : String)
  /-- `RequestStop` for `Stop`, or for `StopNoexcept`, before it closes the channel and before it
  closes the pool. -/
  | stopping (noexcept : Bool)
  | stoppingSlots (noexcept : Bool)
  | joining (noexcept : Bool)
  deriving DecidableEq, Repr

/-- How a call of the owner has ended. -/
inductive CallResult where
  | published (record : FrameRecord)
  | refused (record : FrameRecord) (error : String)
  | stopped
  | failed (error : String)
  deriving DecidableEq, Repr

/-- The exchange with its coordination, and the owner. -/
structure CoordinatedExchange where
  exchange : FrameExchange
  firstTick : UInt64
  expectedFrames : UInt32
  coordination : FrameCoordination := {}
  owner : Owner := .ready
  stopped : Bool := false
  /-- `std::terminate` in `StopNoexcept`. -/
  terminated : Bool := false
  /-- The record that the producer has taken and not asked for a slot yet. -/
  record : Option FrameRecord := none
  /-- What is to be recorded in the `catch` blocks. -/
  producerError : Option String := none
  consumerError : Option String := none
  /-- `expected_tick` of `ConsumeFrames`. -/
  expectedTick : UInt64
  /-- The consumer has released a frame and not told the owner. -/
  acknowledges : Bool := false
  /-- The records that `Publish` has handed over. -/
  accepted : List FrameRecord := []
  /-- The frames that have passed the consumer's checks. -/
  checked : List Frame := []
  calls : List CallResult := []

namespace CoordinatedExchange

-- ---------------------------------------------------------------------------
-- The owner
-- ---------------------------------------------------------------------------

/-- A call of the owner returns. -/
def returned (s : CoordinatedExchange) (result : CallResult) : CoordinatedExchange :=
  { s with owner := .ready, calls := s.calls ++ [result] }

/-- `Publish` up to its wait. -/
def publish (s : CoordinatedExchange) (record : FrameRecord) : CoordinatedExchange :=
  if s.stopped then s.returned (.refused record "frame exchange was already stopped")
  else
    match s.coordination.error with
    | some error => s.returned (.refused record error)
    | none =>
      if s.coordination.pending.isSome ∨ s.coordination.inFlight then
        s.returned (.refused record "frame exchange accepted overlapping frames")
      else { s with
        coordination := { s.coordination with pending := some record, inFlight := true }
        owner := .publishing record
        accepted := s.accepted ++ [record] }

/-- The condition that `Publish` waits for. -/
def completed (s : CoordinatedExchange) : Bool :=
  ¬s.coordination.inFlight ∨ s.coordination.error.isSome

/-- `Publish` after its wait, in time or not. -/
def resume (s : CoordinatedExchange) (record : FrameRecord) : CoordinatedExchange :=
  match s.coordination.error with
  | some error => s.returned (.refused record error)
  | none => s.returned (.published record)

/-- `Publish` gives up waiting. -/
def timeOut (s : CoordinatedExchange) (record : FrameRecord) : CoordinatedExchange :=
  let error := "frame exchange did not complete in time"
  { s with
    coordination := s.coordination.halt (some error)
    owner := .abandoning record (s.coordination.error.getD error) }

/-- `Stop` after the threads were joined. -/
def stopResult (s : CoordinatedExchange) : CallResult :=
  if ¬s.exchange.channel.closed then .failed "frame channel did not close"
  else if s.exchange.channel.buffer.size ≠ 0 then
    .failed "frame channel retained a packet after shutdown"
  else if ¬s.exchange.slots.isQuiescent then .failed "frame slots were not quiescent"
  else
    match s.coordination.error with
    | some error => .failed error
    | none => .stopped

/-- The owner goes on inside a call. -/
def stepOwner (s : CoordinatedExchange) : Option CoordinatedExchange :=
  match s.owner with
  | .ready => none
  | .publishing record => if s.completed then some (s.resume record) else none
  | .abandoning record error => do
    let exchange ← s.exchange.step .closeChannel
    some { s with exchange, owner := .abandoned record error }
  | .abandoned record error => do
    let exchange ← s.exchange.step .closeSlots
    some ({ s with exchange }.returned (.refused record error))
  | .stopping noexcept => do
    let exchange ← s.exchange.step .closeChannel
    some { s with exchange, owner := .stoppingSlots noexcept }
  | .stoppingSlots noexcept => do
    let exchange ← s.exchange.step .closeSlots
    some { s with exchange, owner := .joining noexcept }
  | .joining noexcept =>
    if s.exchange.producer = .stopped ∧ s.exchange.consumer = .stopped then
      if noexcept then some { s with
        owner := .ready, stopped := true, terminated := ¬s.exchange.slots.isQuiescent }
      else some ({ s with stopped := true }.returned s.stopResult)
    else none

-- ---------------------------------------------------------------------------
-- The two threads
-- ---------------------------------------------------------------------------

/-- What is to be recorded after a section: what it has thrown, or what was thrown before. -/
def thrownAfter (before after : Bool) (fault : String) (error : Option String) : Option String :=
  if after && !before then some fault else error

/-- The producer goes on in the exchange. -/
def produceOn (s : CoordinatedExchange) (move : FrameExchange.Move) (fault : String) :
    Option CoordinatedExchange :=
  (s.exchange.step move).map fun exchange => { s with
    exchange
    producerError :=
      thrownAfter s.exchange.producer.raises exchange.producer.raises fault s.producerError }

/-- A section of the producer. -/
def stepProducer (s : CoordinatedExchange) : Option CoordinatedExchange :=
  match s.exchange.producer, s.record, s.coordination.pending, s.producerError with
  | .idle, some record, _, _ =>
    let slots := s.exchange.slots.acquireWrite (s.exchange.threads .producer)
    { s with record := none }.produceOn (.produce record)
      (leaseFault "frame producer could not acquire a slot" slots.2)
  | .idle, none, some record, _ => some { s with
      record := some record, coordination := { s.coordination with pending := none } }
  | .idle, none, none, _ =>
    if s.coordination.stopRequested then s.produceOn .stop "" else none
  | .failing, _, _, some error => some { s with
      coordination := s.coordination.halt (some error), producerError := none }
  | _, _, _, _ => s.produceOn .producer s.exchange.producerFault

/-- Whether the consumer expects no frame any more. -/
def ended (s : CoordinatedExchange) : Bool :=
  s.expectedTick = s.firstTick + s.expectedFrames.toUInt64

/-- The consumer goes on in the exchange. -/
def consumeOn (s : CoordinatedExchange) : Option CoordinatedExchange :=
  let (checks, fault) := s.exchange.consumerFault s.expectedTick s.ended
  (s.exchange.step (.consumer checks)).map fun exchange => { s with
    exchange
    consumerError :=
      thrownAfter s.exchange.consumer.raises exchange.consumer.raises fault s.consumerError
    acknowledges := s.exchange.consumer.releases true
    checked := if s.exchange.consumer.reads && checks then exchange.reads else s.checked }

/-- A section of the consumer. -/
def stepConsumer (s : CoordinatedExchange) : Option CoordinatedExchange :=
  if s.acknowledges then some { s with
    coordination := { s.coordination with inFlight := false }
    acknowledges := false
    expectedTick := s.expectedTick + 1 }
  else
    match s.exchange.consumer, s.consumerError with
    | .failing, some error => some { s with
        coordination := s.coordination.halt (some error), consumerError := none }
    | _, _ => s.consumeOn

-- ---------------------------------------------------------------------------
-- Runs
-- ---------------------------------------------------------------------------

/-- A call of the owner, or the turn of a thread. -/
inductive Event where
  /-- The owner calls `Publish`. -/
  | publish (tick worldHash : UInt64)
  /-- The owner calls `Stop`, or `StopNoexcept`. -/
  | stop (noexcept : Bool)
  /-- The `wait_for` of `Publish` runs out of time. -/
  | timeOut
  | owner
  | producer
  | consumer
  deriving DecidableEq, Repr

/-- One event. -/
def step (s : CoordinatedExchange) (event : Event) : Option CoordinatedExchange :=
  if s.terminated then none
  else
    match event with
    | .publish tick worldHash =>
      if s.owner = .ready then some (s.publish (.ofWords tick worldHash)) else none
    | .stop noexcept =>
      if s.owner ≠ .ready then none
      else if noexcept ∧ s.stopped then some s
      else some { s with coordination := s.coordination.halt none, owner := .stopping noexcept }
    | .timeOut =>
      match s.owner with
      | .publishing record => if s.completed then none else some (s.timeOut record)
      | _ => none
    | .owner => s.stepOwner
    | .producer => s.stepProducer
    | .consumer => s.stepConsumer

/-- A run of a new exchange that expects so many frames from the first tick on. -/
def run (firstTick : UInt64) (expectedFrames : UInt32) (poolId : Nat) (threads : Role → ThreadId)
    (events : List Event) : Option CoordinatedExchange := do
  let slots ← (FrameSlotPool.create FRAME_SLOT_COUNT FRAME_PAYLOAD_BYTES poolId).toOption
  let channel ← (FramePacketChannel.create FRAME_CHANNEL_CAPACITY).toOption
  runEvents step
    { exchange := { slots, channel, threads }
      firstTick, expectedFrames, expectedTick := firstTick } events

-- ---------------------------------------------------------------------------
-- Steps
-- ---------------------------------------------------------------------------

/-- One section of the producer's thread. -/
inductive ProducerStep (s : CoordinatedExchange) : CoordinatedExchange → Prop where
  | took {record : FrameRecord} (hIdle : s.exchange.producer = .idle) (hNone : s.record = none)
      (hPending : s.coordination.pending = some record) :
      ProducerStep s { s with
        record := some record, coordination := { s.coordination with pending := none } }
  | gave {record : FrameRecord} {exchange : FrameExchange} (fault : String)
      (hRecord : s.record = some record)
      (hStep : s.exchange.step (.produce record) = some exchange) :
      ProducerStep s { s with
        exchange, record := none
        producerError :=
          thrownAfter s.exchange.producer.raises exchange.producer.raises fault s.producerError }
  | left (hIdle : s.exchange.producer = .idle) (hNone : s.record = none)
      (hPending : s.coordination.pending = none) (hStop : s.coordination.stopRequested = true) :
      ProducerStep s { s with exchange := { s.exchange with producer := .closing } }
  | recorded {error : String} (hFailing : s.exchange.producer = .failing)
      (hError : s.producerError = some error) : ProducerStep s { s with
        coordination := s.coordination.halt (some error), producerError := none }
  | turned {exchange : FrameExchange} (fault : String)
      (hRecorded : s.exchange.producer = .failing → s.producerError = none)
      (hStep : s.exchange.stepProducer = some exchange) :
      ProducerStep s { s with
        exchange
        producerError :=
          thrownAfter s.exchange.producer.raises exchange.producer.raises fault s.producerError }

/-- One section of the consumer's thread. -/
inductive ConsumerStep (s : CoordinatedExchange) : CoordinatedExchange → Prop where
  | acknowledged (hReleased : s.acknowledges = true) : ConsumerStep s { s with
      coordination := { s.coordination with inFlight := false }
      acknowledges := false
      expectedTick := s.expectedTick + 1 }
  | recorded {error : String} (hFailing : s.exchange.consumer = .failing)
      (hError : s.consumerError = some error) : ConsumerStep s { s with
        coordination := s.coordination.halt (some error), consumerError := none }
  | turned {exchange : FrameExchange} {checks : Bool} {fault : String}
      (hNone : s.acknowledges = false)
      (hRecorded : s.exchange.consumer = .failing → s.consumerError = none)
      (hFault : s.exchange.consumerFault s.expectedTick s.ended = (checks, fault))
      (hStep : s.exchange.stepConsumer checks = some exchange) :
      ConsumerStep s { s with
        exchange
        consumerError :=
          thrownAfter s.exchange.consumer.raises exchange.consumer.raises fault s.consumerError
        acknowledges := s.exchange.consumer.releases true
        checked := if s.exchange.consumer.reads && checks then exchange.reads else s.checked }

variable {s s' : CoordinatedExchange}

/-- What a section of the producer may do. -/
theorem producerStep_of_step (h : s.exchange.Regular) (hStep : s.stepProducer = some s') :
    ProducerStep s s' := by
  have hRunning : s.exchange.terminated = false := h.sound.running
  unfold stepProducer at hStep
  split at hStep
  · rename_i record hIdle hRecord
    obtain ⟨exchange, hNext, rfl⟩ := Option.map_eq_some_iff.mp hStep
    exact .gave _ hRecord hNext
  · rename_i record hIdle hNone hPending
    obtain rfl := Option.some.inj hStep
    exact .took hIdle hNone hPending
  · rename_i hIdle hNone hPending
    split at hStep
    · rename_i hStop
      obtain ⟨exchange, hNext, rfl⟩ := Option.map_eq_some_iff.mp hStep
      unfold FrameExchange.step at hNext
      rw [if_neg (by rw [hRunning]; decide)] at hNext
      simp only [hIdle, if_true] at hNext
      obtain rfl := Option.some.inj hNext
      rw [hIdle]
      exact .left hIdle hNone hPending hStop
    · cases hStep
  · rename_i error hFailing hError
    obtain rfl := Option.some.inj hStep
    exact .recorded hFailing hError
  · rename_i hNotGiven hNotTaken hNotLeft hNotRecorded
    obtain ⟨exchange, hNext, rfl⟩ := Option.map_eq_some_iff.mp hStep
    rw [FrameExchange.step_producer h] at hNext
    refine .turned _ (fun hFailing => ?_) hNext
    cases hError : s.producerError with
    | none => rfl
    | some error => exact absurd hError (hNotRecorded error hFailing)

/-- What a section of the consumer may do. -/
theorem consumerStep_of_step (h : s.exchange.Regular) (hStep : s.stepConsumer = some s') :
    ConsumerStep s s' := by
  unfold stepConsumer at hStep
  split at hStep
  · rename_i hReleased
    obtain rfl := Option.some.inj hStep
    exact .acknowledged hReleased
  · rename_i hNone
    split at hStep
    · rename_i error hFailing hError
      obtain rfl := Option.some.inj hStep
      exact .recorded hFailing hError
    · rename_i hNotRecorded
      unfold consumeOn at hStep
      obtain ⟨exchange, hNext, rfl⟩ := Option.map_eq_some_iff.mp hStep
      rw [FrameExchange.step_consumer h] at hNext
      refine .turned (Bool.eq_false_of_not_eq_true hNone) (fun hFailing => ?_) rfl hNext
      cases hError : s.consumerError with
      | none => rfl
      | some error => exact absurd hError (hNotRecorded error hFailing)

end CoordinatedExchange

end Ithax.Threading
