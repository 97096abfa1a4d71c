import Ithax.Lib.BoundedFifo
import Ithax.Lib.Interleaving
import Ithax.Threading.PacketChannel

/-!
# The packet channel as a queue

The four operations of the channel are the two of a bounded queue: `Publish` and
`TryPublish` offer a packet and differ in what a full or closed queue does to the
caller, `Consume` and `TryConsume` take the first and differ when there is none. A
caller that waits is in the channel until it is woken and finds that it can go on.

## Results

* `Represents.publish`, `Represents.tryPublish`, `Represents.consume`,
  `Represents.tryConsume`  — one operation.
* `fifo_of_run`            — any interleaving of a producer, a consumer and `Close`.
-/

namespace Ithax.Threading

open Ithax.Lib

/-- The channel is the queue `q`. -/
structure Represents (c : FramePacketChannel) (threads : Role → ThreadId)
    (q : BoundedFifo FramePacket) : Prop where
  carries : Carries c threads q.items
  capacity : c.buffer.cells.length = q.capacity
  closed : c.closed = q.closed

namespace FramePacketChannel

/-- What `Publish` does to its caller. -/
def publishOutcome : PutResult → ChannelOutcome Unit
  | .accepted => .returned ()
  | .full => .blocked
  | .closed => .threw { what := "publish rejected after channel close" }

/-- What `TryPublish` returns. -/
def tryPublishOutcome : PutResult → ChannelOutcome Bool
  | .accepted => .returned true
  | .full | .closed => .returned false

/-- What `Consume` does to its caller. -/
def consumeOutcome : TakeResult FramePacket → ChannelOutcome (Option FramePacket)
  | .item packet => .returned (some packet)
  | .empty => .blocked
  | .ended => .returned none

/-- What `TryConsume` returns. -/
def tryConsumeOutcome : TakeResult FramePacket → ChannelOutcome (Option FramePacket)
  | .item packet => .returned (some packet)
  | .empty | .ended => .returned none

end FramePacketChannel

open FramePacketChannel

namespace Represents

variable {c : FramePacketChannel} {threads : Role → ThreadId} {q : BoundedFifo FramePacket}
  {packet : FramePacket}

/-- A new channel is empty. -/
theorem create {capacity : Nat} (h : FramePacketChannel.create capacity = .ok c) :
    Represents c threads (BoundedFifo.new capacity) := by
  refine ⟨Carries.create h, ?_, ?_⟩
  · unfold FramePacketChannel.create at h
    split at h
    · exact nomatch h
    · obtain rfl := Except.ok.inj h
      exact List.length_replicate
  · unfold FramePacketChannel.create at h
    split at h
    · exact nomatch h
    · obtain rfl := Except.ok.inj h
      rfl

/-- `Close`. -/
theorem close (h : Represents c threads q) : Represents c.close threads q.close :=
  ⟨h.carries.close, h.capacity, rfl⟩

/-- The registration of the producer changes no item. -/
theorem registerProducer (h : Represents c threads q) :
    ∃ c', c.registerProducer (threads .producer) = .ok c' ∧ Represents c' threads q := by
  obtain ⟨c', hRegister, hCarries, hClosed⟩ := h.carries.registerProducer
  refine ⟨c', hRegister, hCarries, ?_, hClosed.trans h.closed⟩
  unfold FramePacketChannel.registerProducer at hRegister
  split at hRegister
  · obtain rfl := Except.ok.inj hRegister
    exact h.capacity
  · split at hRegister
    · exact nomatch hRegister
    · obtain rfl := Except.ok.inj hRegister
      exact h.capacity

/-- Nor does that of the consumer. -/
theorem registerConsumer (h : Represents c threads q) :
    ∃ c', c.registerConsumer (threads .consumer) = .ok c' ∧ Represents c' threads q := by
  obtain ⟨c', hRegister, hCarries, hClosed⟩ := h.carries.registerConsumer
  refine ⟨c', hRegister, hCarries, ?_, hClosed.trans h.closed⟩
  unfold FramePacketChannel.registerConsumer at hRegister
  split at hRegister
  · obtain rfl := Except.ok.inj hRegister
    exact h.capacity
  · split at hRegister
    · exact nomatch hRegister
    · obtain rfl := Except.ok.inj hRegister
      exact h.capacity

/-- The ring is full when the queue is. -/
theorem full_iff (h : Represents c threads q) :
    c.buffer.size = c.buffer.cells.length ↔ ¬q.items.length < q.capacity := by
  have hSize := h.carries.holds.size
  have hRoom := h.carries.holds.room
  rw [h.capacity] at hRoom ⊢
  omega

/-- A packet that finds room in the open channel. -/
theorem push (h : Represents c threads q) (hOpen : q.closed = false)
    (hRoom : q.items.length < q.capacity) :
    Represents { c with buffer := c.buffer.push packet } threads (q.put packet) := by
  have hItems := BoundedFifo.items_put (x := packet) hOpen hRoom
  have hSize : c.buffer.size < c.buffer.cells.length := by
    rw [h.carries.holds.size, h.capacity]
    exact hRoom
  refine ⟨⟨?_, fun role => ?_⟩, ?_, ?_⟩
  · rw [hItems]
    exact h.carries.holds.push hSize packet
  · cases role
    · exact h.carries.admits .producer
    · exact h.carries.admits .consumer
  · rw [BoundedFifo.capacity_put, ← h.capacity]
    exact List.length_set
  · rw [BoundedFifo.closed_put]
    exact h.closed

/-- The first packet leaves the channel. -/
theorem pop (h : Represents c threads q) {rest : List FramePacket}
    (hItems : q.items = packet :: rest) :
    c.buffer.front = some packet ∧
      Represents { c with buffer := c.buffer.pop } threads q.take := by
  have hHolds := h.carries.holds
  rw [hItems] at hHolds
  obtain ⟨hFront, hRest⟩ := hHolds.pop
  refine ⟨hFront, ⟨?_, fun role => ?_⟩, h.capacity, h.closed⟩
  · show c.buffer.pop.Holds (q.items.drop 1)
    rw [hItems]
    exact hRest
  · cases role
    · exact h.carries.admits .producer
    · exact h.carries.admits .consumer

/-- `Publish` is a put. -/
theorem publish (h : Represents c threads q) (packet : FramePacket) :
    (c.publish (threads .producer) packet).2 = publishOutcome q.putResult ∧
      Represents (c.publish (threads .producer) packet).1 threads (q.put packet) := by
  obtain ⟨c', hRegister, h'⟩ := h.registerProducer
  have hFull := h'.full_iff
  have hRoom := h'.carries.holds.room
  have hShut := h'.closed
  cases hClosed : q.closed with
  | true =>
    have hRun : c.publish (threads .producer) packet =
        (c', .threw { what := "publish rejected after channel close" }) := by
      simp [FramePacketChannel.publish, hRegister, hShut, hClosed]
    rw [hRun, BoundedFifo.putResult_eq_closed hClosed, BoundedFifo.put_refused (by simp [hClosed])]
    exact ⟨rfl, h'⟩
  | false =>
    by_cases hLess : q.items.length < q.capacity
    · have hSize : ¬c'.buffer.cells.length ≤ c'.buffer.size := by omega
      have hRun : c.publish (threads .producer) packet =
          ({ c' with buffer := c'.buffer.push packet }, .returned ()) := by
        simp [FramePacketChannel.publish, hRegister, hShut, hClosed, hSize]
      rw [hRun, BoundedFifo.putResult_eq_accepted hClosed hLess]
      exact ⟨rfl, h'.push hClosed hLess⟩
    · have hSize : c'.buffer.cells.length ≤ c'.buffer.size := by omega
      have hRun : c.publish (threads .producer) packet = (c', .blocked) := by
        simp [FramePacketChannel.publish, hRegister, hShut, hClosed, hSize]
      rw [hRun, BoundedFifo.putResult_eq_full hClosed hLess, BoundedFifo.put_refused (by simp [hLess])]
      exact ⟨rfl, h'⟩

/-- `TryPublish` is a put that does not wait. -/
theorem tryPublish (h : Represents c threads q) (packet : FramePacket) :
    (c.tryPublish (threads .producer) packet).2 = tryPublishOutcome q.putResult ∧
      Represents (c.tryPublish (threads .producer) packet).1 threads (q.put packet) := by
  obtain ⟨c', hRegister, h'⟩ := h.registerProducer
  have hFull := h'.full_iff
  have hShut := h'.closed
  cases hClosed : q.closed with
  | true =>
    have hRun : c.tryPublish (threads .producer) packet = (c', .returned false) := by
      simp [FramePacketChannel.tryPublish, hRegister, hShut, hClosed]
    rw [hRun, BoundedFifo.putResult_eq_closed hClosed, BoundedFifo.put_refused (by simp [hClosed])]
    exact ⟨rfl, h'⟩
  | false =>
    by_cases hLess : q.items.length < q.capacity
    · have hRun : c.tryPublish (threads .producer) packet =
          ({ c' with buffer := c'.buffer.push packet }, .returned true) := by
        simp [FramePacketChannel.tryPublish, hRegister, hShut, hClosed, hFull, hLess]
      rw [hRun, BoundedFifo.putResult_eq_accepted hClosed hLess]
      exact ⟨rfl, h'.push hClosed hLess⟩
    · have hRun : c.tryPublish (threads .producer) packet = (c', .returned false) := by
        simp [FramePacketChannel.tryPublish, hRegister, hFull, hLess]
      rw [hRun, BoundedFifo.putResult_eq_full hClosed hLess, BoundedFifo.put_refused (by simp [hLess])]
      exact ⟨rfl, h'⟩

/-- An empty queue is left as it is. -/
theorem take_eq (h : Represents c threads q) (hItems : q.items = []) :
    Represents c threads q.take := by
  refine ⟨?_, h.capacity, h.closed⟩
  have hCarries := h.carries
  show Carries c threads (q.items.drop 1)
  rw [hItems] at hCarries ⊢
  exact hCarries

/-- `Consume` is a take. -/
theorem consume (h : Represents c threads q) :
    (c.consume (threads .consumer)).2 = consumeOutcome q.takeResult ∧
      Represents (c.consume (threads .consumer)).1 threads q.take := by
  obtain ⟨c', hRegister, h'⟩ := h.registerConsumer
  have hShut := h'.closed
  have hEmpty := h'.carries.holds.size_eq_zero_iff
  cases hItems : q.items with
  | cons packet rest =>
    obtain ⟨hFront, hPop⟩ := h'.pop hItems
    have hSome : ¬c'.buffer.size = 0 := by
      rw [hEmpty, hItems]
      exact List.cons_ne_nil _ _
    have hRun : c.consume (threads .consumer) =
        ({ c' with buffer := c'.buffer.pop }, .returned (some packet)) := by
      simp [FramePacketChannel.consume, hRegister, hSome, hFront]
    have hTake : q.takeResult = .item packet := by rw [BoundedFifo.takeResult, hItems]
    rw [hRun, hTake]
    exact ⟨rfl, hPop⟩
  | nil =>
    have hNone := hEmpty.mpr hItems
    cases hClosed : q.closed with
    | true =>
      have hRun : c.consume (threads .consumer) = (c', .returned none) := by
        simp [FramePacketChannel.consume, hRegister, hShut, hClosed, hNone]
      have hTake : q.takeResult = .ended := by simp [BoundedFifo.takeResult, hItems, hClosed]
      rw [hRun, hTake]
      exact ⟨rfl, h'.take_eq hItems⟩
    | false =>
      have hRun : c.consume (threads .consumer) = (c', .blocked) := by
        simp [FramePacketChannel.consume, hRegister, hShut, hClosed, hNone]
      have hTake : q.takeResult = .empty := by simp [BoundedFifo.takeResult, hItems, hClosed]
      rw [hRun, hTake]
      exact ⟨rfl, h'.take_eq hItems⟩

/-- `TryConsume` is a take that does not wait. -/
theorem tryConsume (h : Represents c threads q) :
    (c.tryConsume (threads .consumer)).2 = tryConsumeOutcome q.takeResult ∧
      Represents (c.tryConsume (threads .consumer)).1 threads q.take := by
  obtain ⟨c', hRegister, h'⟩ := h.registerConsumer
  have hEmpty := h'.carries.holds.size_eq_zero_iff
  cases hItems : q.items with
  | cons packet rest =>
    obtain ⟨hFront, hPop⟩ := h'.pop hItems
    have hSome : ¬c'.buffer.size = 0 := by
      rw [hEmpty, hItems]
      exact List.cons_ne_nil _ _
    have hRun : c.tryConsume (threads .consumer) =
        ({ c' with buffer := c'.buffer.pop }, .returned (some packet)) := by
      simp [FramePacketChannel.tryConsume, hRegister, hSome, hFront]
    have hTake : q.takeResult = .item packet := by rw [BoundedFifo.takeResult, hItems]
    rw [hRun, hTake]
    exact ⟨rfl, hPop⟩
  | nil =>
    have hNone := hEmpty.mpr hItems
    have hRun : c.tryConsume (threads .consumer) = (c', .returned none) := by
      simp [FramePacketChannel.tryConsume, hRegister, hNone]
    refine ⟨?_, ?_⟩
    · rw [hRun]
      unfold BoundedFifo.takeResult
      rw [hItems]
      cases q.closed <;> rfl
    · rw [hRun]
      exact h'.take_eq hItems

end Represents

-- ---------------------------------------------------------------------------
-- Runs
-- ---------------------------------------------------------------------------

/-- A channel with its producer and its consumer, and the packets that went in and came
out. -/
structure ChannelUse where
  channel : FramePacketChannel
  threads : Role → ThreadId
  /-- The packet with which the producer waits in `Publish`. -/
  publishing : Option FramePacket := none
  /-- The consumer waits in `Consume`. -/
  consuming : Bool := false
  accepted : List FramePacket := []
  consumed : List FramePacket := []

/-- A call, the next look of a call that waits, or `Close` by anybody. -/
inductive ChannelAction where
  | publish (packet : FramePacket)
  | tryPublish (packet : FramePacket)
  | resumePublish
  | consume
  | tryConsume
  | resumeConsume
  | close
  deriving DecidableEq, Repr

namespace ChannelUse

/-- After `Publish`: the packet was accepted, it throws, or the caller waits. -/
def afterPublish (x : ChannelUse) (packet : FramePacket) :
    FramePacketChannel × ChannelOutcome Unit → ChannelUse
  | (channel, .returned _) =>
    { x with channel, publishing := none, accepted := x.accepted ++ [packet] }
  | (channel, .threw _) => { x with channel, publishing := none }
  | (channel, .blocked) => { x with channel, publishing := some packet }

/-- After `TryPublish`: the packet was accepted or not. -/
def afterTryPublish (x : ChannelUse) (packet : FramePacket) :
    FramePacketChannel × ChannelOutcome Bool → ChannelUse
  | (channel, .returned true) => { x with channel, accepted := x.accepted ++ [packet] }
  | (channel, _) => { x with channel }

/-- After `Consume` or `TryConsume`; only the first waits. -/
def afterConsume (x : ChannelUse) :
    FramePacketChannel × ChannelOutcome (Option FramePacket) → ChannelUse
  | (channel, .returned (some packet)) =>
    { x with channel, consuming := false, consumed := x.consumed ++ [packet] }
  | (channel, .returned none) => { x with channel, consuming := false }
  | (channel, .threw _) => { x with channel, consuming := false }
  | (channel, .blocked) => { x with channel, consuming := true }

/-- A caller that waits makes no other call. -/
def step (x : ChannelUse) : ChannelAction → Option ChannelUse
  | .publish packet =>
    if x.publishing.isSome then none
    else some (x.afterPublish packet (x.channel.publish (x.threads .producer) packet))
  | .tryPublish packet =>
    if x.publishing.isSome then none
    else some (x.afterTryPublish packet (x.channel.tryPublish (x.threads .producer) packet))
  | .resumePublish =>
    x.publishing.map fun packet =>
      x.afterPublish packet (x.channel.publish (x.threads .producer) packet)
  | .consume =>
    if x.consuming then none
    else some (x.afterConsume (x.channel.consume (x.threads .consumer)))
  | .tryConsume =>
    if x.consuming then none
    else some (x.afterConsume (x.channel.tryConsume (x.threads .consumer)))
  | .resumeConsume =>
    if x.consuming then some (x.afterConsume (x.channel.consume (x.threads .consumer)))
    else none
  | .close => some { x with channel := x.channel.close }

/-- The channel is the queue, and what went in and came out are the queue's. -/
structure Refines (x : ChannelUse) (q : BoundedFifo FramePacket) : Prop where
  represents : Represents x.channel x.threads q
  accepted : x.accepted = q.accepted
  consumed : x.consumed = q.taken

namespace Refines

variable {x next : ChannelUse} {q : BoundedFifo FramePacket}

/-- Offering a packet, with either call: what is recorded is what the queue accepts. -/
theorem put (h : Refines x q) {packet : FramePacket} {channel : FramePacketChannel}
    (hChannel : Represents channel x.threads (q.put packet))
    (hNextChannel : next.channel = channel) (hThreads : next.threads = x.threads)
    (hConsumed : next.consumed = x.consumed)
    (hAccepted : next.accepted =
      if q.putResult = .accepted then x.accepted ++ [packet] else x.accepted) :
    Refines next (q.put packet) := by
  refine ⟨by rw [hNextChannel, hThreads]; exact hChannel, ?_, ?_⟩
  · rw [hAccepted, h.accepted]
    by_cases hPut : q.putResult = .accepted
    · obtain ⟨hOpen, hRoom⟩ := BoundedFifo.putResult_eq_accepted_iff.mp hPut
      rw [if_pos hPut, BoundedFifo.accepted_put hOpen hRoom]
    · rw [if_neg hPut, BoundedFifo.put_refused fun hBoth =>
        hPut (BoundedFifo.putResult_eq_accepted_iff.mpr hBoth)]
  · rw [hConsumed, h.consumed, BoundedFifo.taken_put]

/-- A put with its outcome. -/
theorem afterPublish (h : Refines x q) (packet : FramePacket) :
    Refines (x.afterPublish packet (x.channel.publish (x.threads .producer) packet))
      (q.put packet) := by
  obtain ⟨hOutcome, hChannel⟩ := h.represents.publish packet
  rcases hRun : x.channel.publish (x.threads .producer) packet with ⟨channel, outcome⟩
  rw [hRun] at hOutcome hChannel
  obtain rfl : outcome = publishOutcome q.putResult := hOutcome
  cases hPut : q.putResult <;>
    exact h.put hChannel rfl rfl rfl (by rw [hPut]; rfl)

/-- A put that does not wait, with its outcome. -/
theorem afterTryPublish (h : Refines x q) (packet : FramePacket) :
    Refines (x.afterTryPublish packet (x.channel.tryPublish (x.threads .producer) packet))
      (q.put packet) := by
  obtain ⟨hOutcome, hChannel⟩ := h.represents.tryPublish packet
  rcases hRun : x.channel.tryPublish (x.threads .producer) packet with ⟨channel, outcome⟩
  rw [hRun] at hOutcome hChannel
  obtain rfl : outcome = tryPublishOutcome q.putResult := hOutcome
  cases hPut : q.putResult <;>
    exact h.put hChannel rfl rfl rfl (by rw [hPut]; rfl)

/-- Taking the first packet, with either call. -/
theorem take (h : Refines x q) {channel : FramePacketChannel}
    (hChannel : Represents channel x.threads q.take)
    (hNextChannel : next.channel = channel) (hThreads : next.threads = x.threads)
    (hAccepted : next.accepted = x.accepted)
    (hConsumed : next.consumed = x.consumed ++ q.items.take 1) :
    Refines next q.take := by
  refine ⟨by rw [hNextChannel, hThreads]; exact hChannel, ?_, ?_⟩
  · rw [hAccepted, h.accepted, BoundedFifo.accepted_take]
  · rw [hConsumed, h.consumed]
    rfl

/-- `afterConsume` records what the queue's front is. -/
theorem afterConsume (h : Refines x q) {channel : FramePacketChannel}
    {outcome : ChannelOutcome (Option FramePacket)}
    (hChannel : Represents channel x.threads q.take)
    (hOutcome : outcome = consumeOutcome q.takeResult ∨
      outcome = tryConsumeOutcome q.takeResult) :
    Refines (x.afterConsume (channel, outcome)) q.take := by
  unfold BoundedFifo.takeResult at hOutcome
  cases hItems : q.items with
  | cons packet rest =>
    rw [hItems] at hOutcome
    obtain rfl : outcome = .returned (some packet) := hOutcome.elim id id
    exact h.take hChannel rfl rfl rfl (by rw [hItems]; rfl)
  | nil =>
    rw [hItems] at hOutcome
    have hNothing : outcome = .returned none ∨ outcome = .blocked := by
      cases hClosed : q.closed with
      | true =>
        rw [hClosed] at hOutcome
        exact Or.inl (hOutcome.elim id id)
      | false =>
        rw [hClosed] at hOutcome
        exact hOutcome.symm
    have hSame : x.consumed = x.consumed ++ q.items.take 1 := by
      rw [hItems, List.take_nil, List.append_nil]
    rcases hNothing with rfl | rfl
    · exact h.take hChannel rfl rfl rfl hSame
    · exact h.take hChannel rfl rfl rfl hSame

/-- A take with its outcome. -/
theorem consume (h : Refines x q) :
    Refines (x.afterConsume (x.channel.consume (x.threads .consumer))) q.take := by
  obtain ⟨hOutcome, hChannel⟩ := h.represents.consume
  exact h.afterConsume hChannel (Or.inl hOutcome)

/-- A take that does not wait, with its outcome. -/
theorem tryConsume (h : Refines x q) :
    Refines (x.afterConsume (x.channel.tryConsume (x.threads .consumer))) q.take := by
  obtain ⟨hOutcome, hChannel⟩ := h.represents.tryConsume
  exact h.afterConsume hChannel (Or.inr hOutcome)

/-- Every step is one operation on the queue. -/
theorem step (h : Refines x q) {action : ChannelAction} (hStep : x.step action = some next) :
    ∃ q', FifoStep q q' ∧ Refines next q' := by
  cases action with
  | publish packet =>
    obtain ⟨-, hNext⟩ := Option.ite_none_left_eq_some.mp hStep
    exact ⟨_, .put packet, Option.some.inj hNext ▸ h.afterPublish packet⟩
  | tryPublish packet =>
    obtain ⟨-, hNext⟩ := Option.ite_none_left_eq_some.mp hStep
    exact ⟨_, .put packet, Option.some.inj hNext ▸ h.afterTryPublish packet⟩
  | resumePublish =>
    obtain ⟨packet, -, rfl⟩ := Option.map_eq_some_iff.mp hStep
    exact ⟨_, .put packet, h.afterPublish packet⟩
  | consume =>
    obtain ⟨-, hNext⟩ := Option.ite_none_left_eq_some.mp hStep
    exact ⟨_, .take, Option.some.inj hNext ▸ h.consume⟩
  | tryConsume =>
    obtain ⟨-, hNext⟩ := Option.ite_none_left_eq_some.mp hStep
    exact ⟨_, .take, Option.some.inj hNext ▸ h.tryConsume⟩
  | resumeConsume =>
    obtain ⟨-, hNext⟩ := Option.ite_none_right_eq_some.mp hStep
    exact ⟨_, .take, Option.some.inj hNext ▸ h.consume⟩
  | close =>
    obtain rfl := Option.some.inj hStep
    exact ⟨_, .close, h.represents.close, h.accepted, h.consumed⟩

/-- A run is operations on the queue one after the other. -/
theorem run (h : Refines x q) {actions : List ChannelAction}
    (hRun : runEvents ChannelUse.step x actions = some next) :
    ∃ q', q'.capacity = q.capacity ∧ Refines next q' := by
  refine runEvents_invariant (I := fun x => ∃ q' : BoundedFifo FramePacket,
    q'.capacity = q.capacity ∧ Refines x q') ?_ ⟨q, rfl, h⟩ hRun
  rintro x action next ⟨q', hCapacity, h'⟩ hStep
  obtain ⟨q'', hFifo, hNext⟩ := h'.step hStep
  exact ⟨q'', hFifo.capacity.trans hCapacity, hNext⟩

/-- Once the queue is closed nothing more is accepted. -/
theorem run_of_closed (h : Refines x q) (hClosed : q.closed = true)
    {actions : List ChannelAction} (hRun : runEvents ChannelUse.step x actions = some next) :
    next.accepted = x.accepted := by
  have hKept : ∃ q' : BoundedFifo FramePacket,
      q'.closed = true ∧ q'.accepted = q.accepted ∧ Refines next q' := by
    refine runEvents_invariant (I := fun x => ∃ q' : BoundedFifo FramePacket,
      q'.closed = true ∧ q'.accepted = q.accepted ∧ Refines x q') ?_ ⟨q, hClosed, rfl, h⟩ hRun
    rintro x action next ⟨q', hShut, hSame, h'⟩ hStep
    obtain ⟨q'', hFifo, hNext⟩ := h'.step hStep
    obtain ⟨hShut', hSame'⟩ := hFifo.of_closed hShut
    exact ⟨q'', hShut', hSame'.trans hSame, hNext⟩
  obtain ⟨q', -, hSame, hNext⟩ := hKept
  rw [hNext.accepted, hSame, h.accepted]

end Refines

end ChannelUse

open ChannelUse in
/-- The channel under any interleaving of its two threads and `Close`: what comes out is
a prefix of what went in and the rest stands in the ring, nothing goes in after `Close`,
and `Consume` reports the end only when everything has come out. -/
theorem fifo_of_run {capacity : Nat} {channel : FramePacketChannel} {threads : Role → ThreadId}
    {actions : List ChannelAction} {x : ChannelUse}
    (hCreate : FramePacketChannel.create capacity = .ok channel)
    (hRun : runEvents ChannelUse.step { channel, threads } actions = some x) :
    x.consumed <+: x.accepted ∧
      (∃ queued, x.accepted = x.consumed ++ queued ∧
        queued.length = x.channel.buffer.size ∧
        ∀ i < x.channel.buffer.size,
          x.channel.buffer.cells[(x.channel.buffer.head + i) % capacity]? = queued[i]?) ∧
      x.channel.buffer.cells.length = capacity ∧ x.channel.buffer.head < capacity ∧
      x.channel.buffer.tail = (x.channel.buffer.head + x.channel.buffer.size) % capacity ∧
      x.channel.buffer.size ≤ capacity ∧
      (∀ later final, runEvents ChannelUse.step x (.close :: later) = some final →
        final.accepted = x.accepted) ∧
      ((x.channel.consume (x.threads .consumer)).2 = .returned none →
        x.channel.closed = true ∧ x.consumed = x.accepted) := by
  have hStart : Refines { channel, threads } (BoundedFifo.new capacity) :=
    ⟨Represents.create hCreate, rfl, rfl⟩
  obtain ⟨q, hCapacity, h⟩ := hStart.run hRun
  have hHolds := h.represents.carries.holds
  have hCells : x.channel.buffer.cells.length = capacity :=
    h.represents.capacity.trans hCapacity
  have hAccepted : x.accepted = x.consumed ++ q.items := by
    rw [h.accepted, h.consumed]
    rfl
  have hPrefix : x.consumed <+: x.accepted := by
    rw [h.consumed, h.accepted]
    exact q.taken_prefix
  refine ⟨hPrefix, ⟨q.items, hAccepted, hHolds.size.symm, ?_⟩, hCells,
    hCells ▸ hHolds.head, hCells ▸ hHolds.tail, hCells ▸ hHolds.room, ?_, ?_⟩
  · rw [← hCells]
    exact hHolds.stored
  · intro later final hLater
    obtain ⟨mid, hClose, hRest⟩ := runEvents_cons_eq_some.mp hLater
    obtain rfl := Option.some.inj hClose
    have hShut : Refines { x with channel := x.channel.close } q.close :=
      ⟨h.represents.close, h.accepted, h.consumed⟩
    exact hShut.run_of_closed rfl hRest
  · intro hEnd
    have hOutcome := h.represents.consume.1
    rw [hEnd] at hOutcome
    have hEnded : q.takeResult = .ended := by
      cases hTake : q.takeResult with
      | ended => rfl
      | _ => rw [hTake] at hOutcome; cases hOutcome
    obtain ⟨hClosed, hTaken⟩ := BoundedFifo.taken_of_ended hEnded
    exact ⟨h.represents.closed.trans hClosed, by rw [h.consumed, h.accepted, hTaken]⟩

/-- A channel of one cell: the producer waits for the consumer, and is still waiting with
its third packet when the channel is closed. -/
def closedActions : List ChannelAction :=
  [.consume, .publish ⟨1, 11, none⟩, .resumeConsume, .publish ⟨2, 12, none⟩,
    .publish ⟨3, 13, none⟩, .tryConsume, .resumePublish, .publish ⟨4, 14, none⟩, .close,
    .resumePublish, .tryPublish ⟨5, 15, none⟩, .consume]

/-- Packets on both sides of a `Close`. -/
theorem fifo_of_run_closedActions : ∃ channel x,
    FramePacketChannel.create 1 = .ok channel ∧
    runEvents ChannelUse.step
      { channel, threads := fun role => if role = .producer then 10 else 20 } closedActions =
        some x ∧
    x.accepted = [⟨1, 11, none⟩, ⟨2, 12, none⟩, ⟨3, 13, none⟩] ∧
    x.consumed <+: x.accepted ∧ x.consumed = x.accepted := by
  obtain ⟨channel, x, hCreate, hRun, hAccepted, hEnd⟩ : ∃ channel x,
      FramePacketChannel.create 1 = .ok channel ∧
      runEvents ChannelUse.step
        { channel, threads := fun role => if role = .producer then 10 else 20 } closedActions =
          some x ∧
      x.accepted = [⟨1, 11, none⟩, ⟨2, 12, none⟩, ⟨3, 13, none⟩] ∧
      (x.channel.consume (x.threads .consumer)).2 = .returned none :=
    ⟨_, _, rfl, rfl, rfl, rfl⟩
  obtain ⟨hPrefix, -, -, -, -, -, -, hEnded⟩ := fifo_of_run hCreate hRun
  exact ⟨channel, x, hCreate, hRun, hAccepted, hPrefix, (hEnded hEnd).2⟩

end Ithax.Threading
