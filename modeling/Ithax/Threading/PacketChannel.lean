import Ithax.Lib.RingBuffer
import Ithax.Threading.FrameSlot

/-!
# The packet channel

`threading/frame_packet_channel.cpp`: a bounded queue of packets between one producer
and one consumer. Every function is one section under the channel's mutex; a call that
has to wait says so and is entered again.

## Results

* `Carries.publish`, `Carries.consume`  — the channel is a bounded queue.
-/

namespace Ithax.Threading

open Ithax.Lib

/-- The largest capacity of a channel. -/
def MAX_FRAME_PACKET_CAPACITY : Nat := 1024

/-- A frame on its way to the consumer; a frame without a slot carries no batch. -/
structure FramePacket where
  generation : Nat := 0
  worldHash : Nat := 0
  slot : Option FrameSlotToken := none
  deriving DecidableEq, Repr

/-- The one exception class of the channel. -/
structure FramePacketChannelError where
  what : String
  deriving DecidableEq, Repr

/-- The queue of `FramePacketChannel`, with the threads of its first calls on either side. -/
structure FramePacketChannel where
  /-- `m_buffer` with `m_head`, `m_tail` and `m_size`. -/
  buffer : RingBuffer FramePacket
  closed : Bool := false
  producerThread : Option ThreadId := none
  consumerThread : Option ThreadId := none
  deriving DecidableEq, Repr

/-- How a section of the channel ends. -/
inductive ChannelOutcome (α : Type) where
  | returned (value : α)
  | threw (error : FramePacketChannelError)
  | blocked
  deriving DecidableEq, Repr

namespace FramePacketChannel

/-- The constructor with `ValidateCapacity`. -/
def create (capacity : Nat) : Except FramePacketChannelError FramePacketChannel :=
  if capacity = 0 ∨ MAX_FRAME_PACKET_CAPACITY < capacity then
    .error { what := "frame channel capacity is outside its bound" }
  else .ok { buffer := { cells := List.replicate capacity {} } }

/-- `RegisterProducer`: the first thread that publishes is the only one. -/
def registerProducer (c : FramePacketChannel) (thread : ThreadId) :
    Except FramePacketChannelError FramePacketChannel :=
  match c.producerThread with
  | none => .ok { c with producerThread := some thread }
  | some producer =>
    if producer ≠ thread then .error { what := "frame channel has multiple producers" } else .ok c

/-- `RegisterConsumer`, for the thread that consumes. -/
def registerConsumer (c : FramePacketChannel) (thread : ThreadId) :
    Except FramePacketChannelError FramePacketChannel :=
  match c.consumerThread with
  | none => .ok { c with consumerThread := some thread }
  | some consumer =>
    if consumer ≠ thread then .error { what := "frame channel has multiple consumers" } else .ok c

/-- `TryPublish`: a full or closed channel refuses. -/
def tryPublish (c : FramePacketChannel) (thread : ThreadId) (packet : FramePacket) :
    FramePacketChannel × ChannelOutcome Bool :=
  match c.registerProducer thread with
  | .error e => (c, .threw e)
  | .ok c =>
    if c.closed ∨ c.buffer.size = c.buffer.cells.length then (c, .returned false)
    else ({ c with buffer := c.buffer.push packet }, .returned true)

/-- `Publish`: it waits for room, and throws when the channel is closed by then. -/
def publish (c : FramePacketChannel) (thread : ThreadId) (packet : FramePacket) :
    FramePacketChannel × ChannelOutcome Unit :=
  match c.registerProducer thread with
  | .error e => (c, .threw e)
  | .ok c =>
    if ¬c.closed ∧ c.buffer.cells.length ≤ c.buffer.size then (c, .blocked)
    else if c.closed then (c, .threw { what := "publish rejected after channel close" })
    else ({ c with buffer := c.buffer.push packet }, .returned ())

/-- `TryConsume`: an empty channel gives nothing. -/
def tryConsume (c : FramePacketChannel) (thread : ThreadId) :
    FramePacketChannel × ChannelOutcome (Option FramePacket) :=
  match c.registerConsumer thread with
  | .error e => (c, .threw e)
  | .ok c =>
    if c.buffer.size = 0 then (c, .returned none)
    else ({ c with buffer := c.buffer.pop }, .returned c.buffer.front)

/-- `Consume`: it waits for a packet, and gives nothing only after the close. -/
def consume (c : FramePacketChannel) (thread : ThreadId) :
    FramePacketChannel × ChannelOutcome (Option FramePacket) :=
  match c.registerConsumer thread with
  | .error e => (c, .threw e)
  | .ok c =>
    if ¬c.closed ∧ c.buffer.size = 0 then (c, .blocked)
    else if c.buffer.size = 0 then (c, .returned none)
    else ({ c with buffer := c.buffer.pop }, .returned c.buffer.front)

/-- `Close`. What is queued stays there. -/
def close (c : FramePacketChannel) : FramePacketChannel := { c with closed := true }

/-- The thread registered for a role. -/
def threadOf (c : FramePacketChannel) : Role → Option ThreadId
  | .producer => c.producerThread
  | .consumer => c.consumerThread

end FramePacketChannel

-- ---------------------------------------------------------------------------
-- The queue
-- ---------------------------------------------------------------------------

/-- The channel holds `packets`, and no thread but the two has used it. -/
structure Carries (c : FramePacketChannel) (threads : Role → ThreadId)
    (packets : List FramePacket) : Prop where
  holds : c.buffer.Holds packets
  admits : ∀ role, c.threadOf role = none ∨ c.threadOf role = some (threads role)

namespace Carries

variable {c : FramePacketChannel} {threads : Role → ThreadId} {packets : List FramePacket}

/-- A new channel is empty and knows no thread. -/
theorem create {capacity : Nat} (h : FramePacketChannel.create capacity = .ok c) :
    Carries c threads [] := by
  unfold FramePacketChannel.create at h
  split at h
  · exact nomatch h
  · rename_i hBounds
    obtain rfl := Except.ok.inj h
    refine ⟨RingBuffer.holds_nil ?_, fun role => ?_⟩
    · intro hNil
      rw [List.replicate_eq_nil_iff] at hNil
      exact hBounds (Or.inl hNil)
    · cases role <;> exact Or.inl rfl

/-- A close leaves the queue. -/
theorem close (h : Carries c threads packets) : Carries c.close threads packets := by
  refine ⟨h.holds, fun role => ?_⟩
  cases role
  · exact h.admits .producer
  · exact h.admits .consumer

/-- The producer's own thread is let in. -/
theorem registerProducer (h : Carries c threads packets) :
    ∃ c', c.registerProducer (threads .producer) = .ok c' ∧ Carries c' threads packets ∧
      c'.closed = c.closed := by
  unfold FramePacketChannel.registerProducer
  rcases h.admits .producer with hNone | hSame
  · rw [show c.producerThread = none from hNone]
    refine ⟨_, rfl, ⟨h.holds, fun role => ?_⟩, rfl⟩
    cases role
    · exact Or.inr rfl
    · exact h.admits .consumer
  · rw [show c.producerThread = some (threads .producer) from hSame]
    exact ⟨c, by simp, h, rfl⟩

/-- So is the consumer's. -/
theorem registerConsumer (h : Carries c threads packets) :
    ∃ c', c.registerConsumer (threads .consumer) = .ok c' ∧ Carries c' threads packets ∧
      c'.closed = c.closed := by
  unfold FramePacketChannel.registerConsumer
  rcases h.admits .consumer with hNone | hSame
  · rw [show c.consumerThread = none from hNone]
    refine ⟨_, rfl, ⟨h.holds, fun role => ?_⟩, rfl⟩
    cases role
    · exact h.admits .producer
    · exact Or.inr rfl
  · rw [show c.consumerThread = some (threads .consumer) from hSame]
    exact ⟨c, by simp, h, rfl⟩

/-- `Publish` waits while the queue is full, throws once the channel is closed, and
otherwise puts the packet at the end of the queue. -/
theorem publish (h : Carries c threads packets) (packet : FramePacket) :
    ∃ c', c'.closed = c.closed ∧
      ((c.publish (threads .producer) packet = (c', .blocked) ∧ Carries c' threads packets) ∨
      (∃ e, c.publish (threads .producer) packet = (c', .threw e) ∧ c.closed = true ∧
        Carries c' threads packets) ∨
      (c.publish (threads .producer) packet = (c', .returned ()) ∧ c.closed = false ∧
        Carries c' threads (packets ++ [packet]))) := by
  obtain ⟨q, hRegister, hCarries, hClosed⟩ := h.registerProducer
  unfold FramePacketChannel.publish
  rw [hRegister]
  simp only
  split
  · exact ⟨q, hClosed, Or.inl ⟨rfl, hCarries⟩⟩
  · rename_i hGo
    split
    · rename_i hShut
      exact ⟨q, hClosed, Or.inr (Or.inl ⟨_, rfl, hClosed ▸ hShut, hCarries⟩)⟩
    · rename_i hOpen
      have hOpen := Bool.eq_false_of_not_eq_true hOpen
      have hRoom : q.buffer.size < q.buffer.cells.length := by
        rw [hOpen] at hGo
        simpa using hGo
      refine ⟨{ q with buffer := q.buffer.push packet }, hClosed, Or.inr (Or.inr ⟨rfl,
        hClosed ▸ hOpen, hCarries.holds.push hRoom packet,
        fun role => ?_⟩)⟩
      cases role
      · exact hCarries.admits .producer
      · exact hCarries.admits .consumer

/-- `Consume` waits for a packet, takes the first of the queue, and says so when the
channel is closed and the queue empty. -/
theorem consume (h : Carries c threads packets) :
    ∃ c', c'.closed = c.closed ∧
      ((c.consume (threads .consumer) = (c', .blocked) ∧ Carries c' threads packets) ∨
      (c.consume (threads .consumer) = (c', .returned none) ∧ c.closed = true ∧ packets = [] ∧
        Carries c' threads packets) ∨
      ∃ packet rest, packets = packet :: rest ∧
        c.consume (threads .consumer) = (c', .returned (some packet)) ∧ Carries c' threads rest) := by
  obtain ⟨q, hRegister, hCarries, hClosed⟩ := h.registerConsumer
  unfold FramePacketChannel.consume
  rw [hRegister]
  simp only
  split
  · exact ⟨q, hClosed, Or.inl ⟨rfl, hCarries⟩⟩
  · rename_i hGo
    split
    · rename_i hEmpty
      have hShut : q.closed = true := by
        by_contra hOpen
        exact hGo ⟨hOpen, hEmpty⟩
      exact ⟨q, hClosed, Or.inr (Or.inl ⟨rfl, hClosed ▸ hShut,
        hCarries.holds.size_eq_zero_iff.mp hEmpty, hCarries⟩)⟩
    · rename_i hSome
      rcases packets with - | ⟨packet, rest⟩
      · exact absurd (hCarries.holds.size_eq_zero_iff.mpr rfl) hSome
      · obtain ⟨hFront, hRest⟩ := hCarries.holds.pop
        refine ⟨{ q with buffer := q.buffer.pop }, hClosed,
          Or.inr (Or.inr ⟨packet, rest, rfl, by rw [hFront], hRest, fun role => ?_⟩)⟩
        cases role
        · exact hCarries.admits .producer
        · exact hCarries.admits .consumer

end Carries

end Ithax.Threading
