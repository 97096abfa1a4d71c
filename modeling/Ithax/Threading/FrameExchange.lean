import Ithax.Threading.PacketChannel

/-!
# The frame exchange

`ProduceFrames` and `ConsumeFrames` of `stage3_multicore_integration.cpp`: the producer
writes a frame into a slot, sends a packet with its token through the channel and then
publishes the slot; the consumer takes a packet and reads the slot of its token. The
packet is visible before the slot is published.

Each step is one section of one thread, under the mutex of the pool or of the channel,
or somebody else closing one of the two. Where the records come from, and what the
consumer checks in them, is left to the step.
-/

namespace Ithax.Threading

open Ithax.Lib

/-- What the producer has to say of a frame: the header of the packet, and its bytes. -/
structure FrameRecord where
  tick : Nat
  worldHash : Nat
  /-- The record as `memcpy` copies it. -/
  bytes : List UInt8
  deriving DecidableEq, Repr

/-- A packet with the payload that was written, or read, for it. -/
structure Frame where
  packet : FramePacket
  payload : List UInt8
  deriving DecidableEq, Repr

/-- Where `ProduceFrames` stands. -/
inductive Producer where
  | idle
  /-- Inside `AcquireWrite`. -/
  | acquiring (record : FrameRecord)
  | writing (record : FrameRecord) (lease : FrameLease)
  | sizing (record : FrameRecord) (lease : FrameLease)
  | sending (frame : Frame) (lease : FrameLease)
  /-- The packet is in the channel, the slot is not published yet. -/
  | sent (frame : Frame) (lease : FrameLease)
  /-- An exception is on its way out of the block that holds the lease. -/
  | unwinding (lease : FrameLease)
  /-- The `catch` block, before and after `m_channel.Close()`. -/
  | failing
  | failed
  | closing
  | stopped
  deriving DecidableEq, Repr

/-- Where `ConsumeFrames` stands. -/
inductive Consumer where
  | idle
  | received (packet : FramePacket)
  /-- Inside `AcquireRead`. -/
  | waiting (packet : FramePacket) (token : FrameSlotToken)
  | reading (packet : FramePacket) (lease : FrameLease)
  /-- The record was read; whether all checks passed. -/
  | releasing (lease : FrameLease) (checks : Bool)
  | failing
  | failed
  | stopped
  deriving DecidableEq, Repr

/-- The channel, the slots, and what the two threads are doing. -/
structure FrameExchange where
  slots : FrameSlotPool
  channel : FramePacketChannel
  threads : Role → ThreadId
  producer : Producer := .idle
  consumer : Consumer := .idle
  terminated : Bool := false
  history : History := {}
  produced : List Frame := []
  /-- The frames whose packet is in the channel. -/
  queued : List Frame := []
  /-- The frame whose packet the consumer has in hand. -/
  taken : Option Frame := none
  /-- The frames whose packet the consumer is done with. -/
  consumed : List Frame := []
  reads : List Frame := []
  /-- What `AcquireRead` threw at the consumer. -/
  readErrors : List FrameSlotError := []

namespace FrameExchange

-- ---------------------------------------------------------------------------
-- The producer
-- ---------------------------------------------------------------------------

/-- After `TryAcquireWrite`. -/
def acquiredWrite (x : FrameExchange) (record : FrameRecord) :
    FrameSlotPool × Outcome (Option FrameLease) → FrameExchange
  | (slots, .returned (some lease)) => { x with
      slots, producer := .writing record lease
      history := { x.history with issued := x.history.issued ++ [lease.token] } }
  | (slots, .returned none) => { x with slots, producer := .failing }
  | (slots, .threw _) => { x with slots, producer := .failing }
  | (slots, .blocked) => { x with slots, producer := .acquiring record }
  | (slots, .terminated) => { x with slots, terminated := true }

/-- A use of the write lease that goes on, or throws. -/
def useWrite (x : FrameExchange) (lease : FrameLease)
    (use : FrameSlotToken → Except FrameSlotError FrameSlotPool)
    (next : FrameSlotPool → FrameExchange) : FrameExchange :=
  match lease.withToken "write lease is not active" use with
  | .ok slots => next slots
  | .error _ => { x with producer := .unwinding lease }

/-- The next section of the producer. -/
def stepProducer (x : FrameExchange) : Option FrameExchange :=
  match x.producer with
  | .idle => none
  | .acquiring record => some (x.acquiredWrite record x.slots.acquireWriteLoop)
  | .writing record lease =>
    -- the record has to fit the span
    if x.slots.payloadCapacity < record.bytes.length then none
    else some (x.useWrite lease
      (fun token => x.slots.writePayload (x.threads .producer) token
        (FrameSlotPool.copyBytes 0 record.bytes))
      fun slots => { x with slots, producer := .sizing record lease })
  | .sizing record lease =>
    let frame : Frame := {
      packet := { generation := record.tick, worldHash := record.worldHash, slot := some lease.token }
      payload := record.bytes }
    some (x.useWrite lease
      (fun token => x.slots.setWritePayloadSize (x.threads .producer) token record.bytes.length)
      fun slots => { x with
        slots, producer := .sending frame lease, produced := x.produced ++ [frame] })
  | .sending frame lease =>
    match x.channel.publish (x.threads .producer) frame.packet with
    | (channel, .returned ()) =>
      some { x with channel, producer := .sent frame lease, queued := x.queued ++ [frame] }
    | (channel, .threw _) => some { x with channel, producer := .unwinding lease }
    | (channel, .blocked) => some { x with channel }
  | .sent _ lease =>
    some (x.useWrite lease (x.slots.publishWrite (x.threads .producer)) fun slots => { x with
      slots, producer := .idle, history := x.history.publish x.slots lease.token })
  | .unwinding lease =>
    match lease.giveBack x.slots (x.slots.back (x.threads .producer) .producer) with
    | some (slots, _) => some { x with slots, producer := .failing }
    | none => some { x with terminated := true }
  | .failing => some { x with channel := x.channel.close, producer := .failed }
  | .failed => some { x with slots := x.slots.close, producer := .stopped }
  | .closing => some { x with channel := x.channel.close, producer := .stopped }
  | .stopped => none

-- ---------------------------------------------------------------------------
-- The consumer
-- ---------------------------------------------------------------------------

/-- The consumer is done with the packet in hand. -/
def done (x : FrameExchange) : FrameExchange :=
  { x with taken := none, consumed := x.consumed ++ x.taken.toList }

/-- After `AcquireRead`. -/
def acquiredRead (x : FrameExchange) (packet : FramePacket) (token : FrameSlotToken) :
    FrameSlotPool × Outcome (Option FrameLease) → FrameExchange
  | (slots, .returned (some lease)) => { x with
      slots, consumer := .reading packet lease
      history := { x.history with granted := x.history.granted ++ [token] } }
  | (slots, .returned none) => { x.done with slots, consumer := .failing }
  | (slots, .threw e) => { x.done with
      slots, consumer := .failing, readErrors := x.readErrors ++ [e] }
  | (slots, .blocked) => { x with slots, consumer := .waiting packet token }
  | (slots, .terminated) => { x with slots, terminated := true }

/-- One section of the consumer; `checks` says whether what it requires next holds. -/
def stepConsumer (x : FrameExchange) (checks : Bool) : Option FrameExchange :=
  match x.consumer with
  | .idle =>
    match x.channel.consume (x.threads .consumer) with
    | (channel, .returned (some packet)) => some { x with
        channel, consumer := .received packet
        queued := x.queued.tail, taken := x.queued.head? }
    | (channel, .returned none) =>
      some { x with channel, consumer := if checks then .stopped else .failing }
    | (channel, .threw _) => some { x with channel, consumer := .failing }
    | (channel, .blocked) => some { x with channel }
  | .received packet =>
    match packet.slot with
    | none => some { x.done with consumer := .failing }
    | some token =>
      some (x.acquiredRead packet token (x.slots.acquireRead (x.threads .consumer) token))
  | .waiting packet token =>
    some (x.acquiredRead packet token (x.slots.acquireReadLoop token true))
  | .reading packet lease =>
    match lease.withToken "read lease is not active"
        (x.slots.readPayload (x.threads .consumer)) with
    | .ok payload => some { x.done with
        consumer := .releasing lease checks, reads := x.reads ++ [{ packet, payload }] }
    | .error _ => some { x.done with consumer := .releasing lease false }
  | .releasing lease checked =>
    match lease.giveBack x.slots (x.slots.back (x.threads .consumer) .consumer) with
    | some (slots, _) => some { x with slots, consumer := if checked then .idle else .failing }
    | none => some { x with terminated := true }
  | .failing => some { x with channel := x.channel.close, consumer := .failed }
  | .failed => some { x with slots := x.slots.close, consumer := .stopped }
  | .stopped => none

-- ---------------------------------------------------------------------------
-- Runs
-- ---------------------------------------------------------------------------

/-- Whose turn it is, or a close. -/
inductive Move where
  /-- The producer is given a record and calls `AcquireWrite`. -/
  | produce (record : FrameRecord)
  /-- The producer is told to stop. -/
  | stop
  | producer
  | consumer (checks : Bool)
  | closeChannel
  | closeSlots
  deriving DecidableEq, Repr

/-- One turn. -/
def step (x : FrameExchange) (move : Move) : Option FrameExchange :=
  if x.terminated then none
  else
    match move with
    | .produce record =>
      if x.producer = .idle then
        some (x.acquiredWrite record (x.slots.acquireWrite (x.threads .producer)))
      else none
    | .stop => if x.producer = .idle then some { x with producer := .closing } else none
    | .producer => x.stepProducer
    | .consumer checks => x.stepConsumer checks
    | .closeChannel => some { x with channel := x.channel.close }
    | .closeSlots => some { x with slots := x.slots.close }

/-- A run of the two threads over a new pool and a new channel. -/
def run (slotCount payloadCapacity poolId capacity : Nat) (threads : Role → ThreadId)
    (moves : List Move) : Option FrameExchange := do
  let slots ← (FrameSlotPool.create slotCount payloadCapacity poolId).toOption
  let channel ← (FramePacketChannel.create capacity).toOption
  runEvents step { slots, channel, threads } moves

end FrameExchange

end Ithax.Threading
