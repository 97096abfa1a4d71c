import Ithax.Threading.FrameOrder

/-!
# The turns of the exchange

What one section of the producer and one section of the consumer can do, as seen from
outside the pool and the channel: where the two threads stand, which frames are on their
way, and whether the channel and the pool are closed. A section that waits leaves all of
that and the slots as they are.

## Results

* `Regular.produceTurn`   — what the first section of `AcquireWrite` does.
* `Regular.producerTurn`  — what a section of the producer does.
* `Regular.consumerTurn`  — what a section of the consumer does.
-/

namespace Ithax.Threading

open Ithax.Lib

/-- What can be seen of an exchange. -/
@[ext]
structure Outline where
  producer : Producer
  consumer : Consumer
  produced : List Frame
  queued : List Frame
  taken : Option Frame
  reads : List Frame
  channelClosed : Bool
  slotsClosed : Bool
  payloadCapacity : Nat
  /-- How many slots the producer has claimed. -/
  issued : Nat

def FrameExchange.outline (x : FrameExchange) : Outline where
  producer := x.producer
  consumer := x.consumer
  produced := x.produced
  queued := x.queued
  taken := x.taken
  reads := x.reads
  channelClosed := x.channel.closed
  slotsClosed := x.slots.closed
  payloadCapacity := x.slots.payloadCapacity
  issued := x.history.issued.length

/-- The frame that the producer makes of a record. -/
def FrameRecord.frame (record : FrameRecord) (lease : FrameLease) : Frame where
  packet := { generation := record.tick, worldHash := record.worldHash, slot := some lease.token }
  payload := record.bytes

/-- How a call of `AcquireWrite` for a record comes back. -/
inductive AcquireTurn (record : FrameRecord) (o : Outline) : Outline → Prop where
  | refused (hClosed : o.slotsClosed = true) : AcquireTurn record o { o with producer := .failing }
  /-- The generations of a slot are used up. -/
  | threw (hExhausted : MAX_GENERATION ≤ o.issued) :
      AcquireTurn record o { o with producer := .failing }
  | claimed (lease : FrameLease) (hOpen : o.slotsClosed = false) :
      AcquireTurn record o { o with producer := .writing record lease, issued := o.issued + 1 }

/-- One section of the producer. -/
inductive ProducerTurn (o : Outline) : Outline → Prop where
  | acquired {record : FrameRecord} {o' : Outline} (hProducer : o.producer = .acquiring record)
      (hTurn : AcquireTurn record o o') : ProducerTurn o o'
  | wrote {record : FrameRecord} {lease : FrameLease}
      (hProducer : o.producer = .writing record lease) :
      ProducerTurn o { o with producer := .sizing record lease }
  | sized {record : FrameRecord} {lease : FrameLease}
      (hProducer : o.producer = .sizing record lease)
      (hFits : record.bytes.length ≤ o.payloadCapacity) :
      ProducerTurn o { o with
        producer := .sending (record.frame lease) lease
        produced := o.produced ++ [record.frame lease] }
  | oversized {record : FrameRecord} {lease : FrameLease}
      (hProducer : o.producer = .sizing record lease)
      (hExceeds : o.payloadCapacity < record.bytes.length) :
      ProducerTurn o { o with producer := .unwinding lease }
  | rejected {frame : Frame} {lease : FrameLease} (hProducer : o.producer = .sending frame lease)
      (hClosed : o.channelClosed = true) :
      ProducerTurn o { o with producer := .unwinding lease }
  | sent {frame : Frame} {lease : FrameLease} (hProducer : o.producer = .sending frame lease)
      (hOpen : o.channelClosed = false) :
      ProducerTurn o { o with
        producer := .sent frame lease, queued := o.queued ++ [frame] }
  | published {frame : Frame} {lease : FrameLease} (hProducer : o.producer = .sent frame lease)
      (hOpen : o.slotsClosed = false) :
      ProducerTurn o { o with producer := .idle }
  | late {frame : Frame} {lease : FrameLease} (hProducer : o.producer = .sent frame lease)
      (hClosed : o.slotsClosed = true) :
      ProducerTurn o { o with producer := .unwinding lease }
  | unwound {lease : FrameLease} (hProducer : o.producer = .unwinding lease) :
      ProducerTurn o { o with producer := .failing }
  | failed (hProducer : o.producer = .failing) :
      ProducerTurn o { o with producer := .failed, channelClosed := true }
  | ended (hProducer : o.producer = .failed) :
      ProducerTurn o { o with producer := .stopped, slotsClosed := true }
  | closed (hProducer : o.producer = .closing) :
      ProducerTurn o { o with producer := .stopped, channelClosed := true }

/-- One section of the consumer. -/
inductive ConsumerTurn (checks : Bool) (o : Outline) : Outline → Prop where
  | drained (hConsumer : o.consumer = .idle) (hClosed : o.channelClosed = true)
      (hEmpty : o.queued = []) :
      ConsumerTurn checks o { o with consumer := if checks then .stopped else .failing }
  | received {frame : Frame} {rest : List Frame} (hConsumer : o.consumer = .idle)
      (hQueued : o.queued = frame :: rest) :
      ConsumerTurn checks o { o with
        consumer := .received frame.packet, queued := rest, taken := some frame }
  | asked {frame : Frame} (token : FrameSlotToken) (hTaken : o.taken = some frame)
      (hConsumer : o.consumer = .received frame.packet) :
      ConsumerTurn checks o { o with consumer := .waiting frame.packet token }
  /-- The producer has published the frame. -/
  | granted {frame : Frame} (lease : FrameLease) (hTaken : o.taken = some frame)
      (hSeeks : o.consumer.seeks = true) (hPast : ∀ lease, o.producer ≠ .sent frame lease) :
      ConsumerTurn checks o { o with consumer := .reading frame.packet lease }
  | refused {frame : Frame} (hTaken : o.taken = some frame) (hSeeks : o.consumer.seeks = true)
      (hClosed : o.slotsClosed = true) :
      ConsumerTurn checks o { o with consumer := .failing, taken := none }
  | read {frame : Frame} {lease : FrameLease} (hTaken : o.taken = some frame)
      (hConsumer : o.consumer = .reading frame.packet lease) :
      ConsumerTurn checks o { o with
        consumer := .releasing lease checks, taken := none, reads := o.reads ++ [frame] }
  | released {lease : FrameLease} {checked : Bool}
      (hConsumer : o.consumer = .releasing lease checked) :
      ConsumerTurn checks o { o with consumer := if checked then .idle else .failing }
  | failed (hConsumer : o.consumer = .failing) :
      ConsumerTurn checks o { o with consumer := .failed, channelClosed := true }
  | ended (hConsumer : o.consumer = .failed) :
      ConsumerTurn checks o { o with consumer := .stopped, slotsClosed := true }

-- ---------------------------------------------------------------------------
-- Sections that wait
-- ---------------------------------------------------------------------------

namespace FrameExchange

variable {x x' : FrameExchange}

/-- The thread's next section waits, or the thread is not inside one. -/
def Waits (x : FrameExchange) : Role → Prop
  | .producer =>
    match x.producer with
    | .idle | .stopped => True
    | .acquiring _ => x.slots.closed = false ∧ x.slots.findFreeSlot = none
    | .sending _ _ => x.channel.closed = false ∧ x.queued ≠ []
    | _ => False
  | .consumer =>
    match x.consumer with
    | .idle => x.channel.closed = false ∧ x.queued = []
    | .waiting _ token => x.slots.closed = false ∧
        ∃ slot, x.slots.slotForToken token = .ok slot ∧ slot.state = .writing
    | .stopped => True
    | _ => False

/-- Nothing that can be seen and no slot is different. -/
structure Same (x x' : FrameExchange) : Prop where
  outline : x'.outline = x.outline
  slots : x'.slots = x.slots

theorem Same.producer (h : Same x x') : x'.producer = x.producer :=
  congrArg Outline.producer h.outline

theorem Same.consumer (h : Same x x') : x'.consumer = x.consumer :=
  congrArg Outline.consumer h.outline

theorem Same.queued (h : Same x x') : x'.queued = x.queued := congrArg Outline.queued h.outline

theorem Same.closed (h : Same x x') : x'.channel.closed = x.channel.closed :=
  congrArg Outline.channelClosed h.outline

/-- A thread that waits goes on waiting while nothing changes. -/
theorem Same.waits (h : Same x x') (role : Role) : x'.Waits role ↔ x.Waits role := by
  cases role with
  | producer => simp only [Waits, h.producer, h.queued, h.closed, h.slots]
  | consumer => simp only [Waits, h.consumer, h.queued, h.closed, h.slots]

end FrameExchange

-- ---------------------------------------------------------------------------
-- Generations
-- ---------------------------------------------------------------------------

/-- The pool has slots, and each was claimed at most as often as the producer has claimed one. -/
structure Stocked (slots : List SlotStorage) (history : History) : Prop where
  nonempty : slots ≠ []
  generations : ∀ slot ∈ slots, slot.generation ≤ history.issued.length

namespace Stocked

variable {poolId id : Nat} {slots slots' : List SlotStorage} {slot next : SlotStorage}
  {history history' : History}

theorem set (h : Stocked slots history) (hSlot : slots[id]? = some slot)
    (hNext : next.generation ≤ slot.generation + (history'.issued.length - history.issued.length))
    (hMore : history.issued.length ≤ history'.issued.length) :
    Stocked (slots.set id next) history' := by
  have hOld := h.generations slot (List.mem_of_getElem? hSlot)
  refine ⟨fun hNil => h.nonempty (by simpa using hNil), ?_⟩
  refine forall_mem_set ?_ fun other hOther => (h.generations other hOther).trans hMore
  omega

/-- Every turn of the pool keeps it so. -/
theorem turn (h : Stocked slots history) (hTurn : Turn poolId slots history slots' history') :
    Stocked slots' history' := by
  cases hTurn with
  | idle => exact h
  | claim hSlot hFree =>
    refine h.set hSlot ?_ ?_ <;> simp [SlotStorage.claimed]
  | store hSlot hWriting hState hGeneration =>
    exact h.set hSlot (by omega) (Nat.le_refl _)
  | publish hSlot | cancel hSlot | grant hSlot | release hSlot | discard hSlot =>
    exact h.set hSlot (Nat.le_add_right _ _) (Nat.le_refl _)

end Stocked

namespace FrameExchange

variable {x x' : FrameExchange}

/-- What holds of an exchange in every state of every run. -/
structure Regular (x : FrameExchange) : Prop where
  sound : x.view.Sound
  traced : x.view.Traced
  delivers : Delivers x
  stocked : Stocked x.slots.slots x.history

theorem Regular.step (h : Regular x) {move : Move} (hStep : x.step move = some x') :
    Regular x' := by
  obtain ⟨actions, hView⟩ := step_view h.sound hStep
  obtain ⟨hSound, hTraced⟩ := h.sound.traced_runEvents h.traced hView
  have hStocked : x'.view.Sound ∧ Stocked x'.view.pool.slots x'.view.history := by
    refine runEvents_invariant (I := fun s => s.Sound ∧ Stocked s.pool.slots s.history)
      (fun {s _ next} hBoth hOne => ?_) ⟨h.sound, h.stocked⟩ hView
    exact ⟨hBoth.1.step hOne, hBoth.2.turn (hBoth.1.turn hOne).2⟩
  exact ⟨hSound, hTraced, h.delivers.step h.sound h.traced hStep, hStocked.2⟩

section Start

variable {slotCount payloadCapacity poolId capacity : Nat} {threads : Role → ThreadId}
  {slots : FrameSlotPool} {channel : FramePacketChannel}

theorem regular_start (hSlots : FrameSlotPool.create slotCount payloadCapacity poolId = .ok slots)
    (hChannel : FramePacketChannel.create capacity = .ok channel) :
    Regular { slots, channel, threads } := by
  refine ⟨?_, ?_, delivers_start hChannel, ?_⟩
  · rw [view_start]
    exact sound_start hSlots
  · rw [view_start]
    exact traced_start hSlots
  · have hCount : slotCount ≠ 0 := by
      rintro rfl
      unfold FrameSlotPool.create at hSlots
      simp at hSlots
    obtain rfl := FrameSlotPool.create_eq_ok hSlots
    refine ⟨fun hNil => hCount (by simpa using hNil), fun slot hSlot => ?_⟩
    rw [List.eq_of_mem_replicate hSlot]
    exact Nat.zero_le _

end Start

end FrameExchange

-- ---------------------------------------------------------------------------
-- Calls on the pool
-- ---------------------------------------------------------------------------

namespace FrameSlotPool

variable {p : FrameSlotPool} {thread : ThreadId} {token : FrameSlotToken} {slot : SlotStorage}

/-- How the producer's call goes on. -/
inductive Acquires (p : FrameSlotPool) : FrameSlotPool × Outcome (Option FrameLease) → Prop where
  | blocked (hOpen : p.closed = false) (hNone : p.findFreeSlot = none) : Acquires p (p, .blocked)
  | refused (hClosed : p.closed = true) (n : Nat) :
      Acquires p (p.withOperations n, .returned none)
  | threw {slot : SlotStorage} (hSlot : slot ∈ p.slots) (hLast : slot.generation = MAX_GENERATION)
      (n : Nat) (e : FrameSlotError) : Acquires p (p.withOperations n, .threw e)
  | claimed (hOpen : p.closed = false) (n id : Nat) (slot : SlotStorage) (lease : FrameLease) :
      Acquires p ((p.setSlot id slot).withOperations n, .returned (some lease))

theorem acquireWriteLoop_acquires (h : p.activeOperations ≠ 0) : Acquires p p.acquireWriteLoop := by
  unfold acquireWriteLoop
  split
  · rename_i hClosed
    rw [finish_eq h]
    exact .refused hClosed _
  · rename_i hOpen
    have hOpen := Bool.eq_false_of_not_eq_true hOpen
    split
    · rename_i hNone
      exact .blocked hOpen hNone
    · rename_i id slot hFind
      unfold claimSlot
      by_cases hLast : slot.generation = MAX_GENERATION
      · rw [if_pos hLast]
        simp only
        rw [finish_eq h]
        exact .threw (List.mem_of_getElem? (findFreeSlot_eq_some hFind).1) hLast _ _
      · rw [if_neg hLast]
        simp only
        rw [finish_eq (p := p.setSlot id _) h]
        exact .claimed hOpen _ _ _ _

/-- A call that waits has found its slot being written in an open pool. -/
theorem acquireReadLoop_blocked {p' : FrameSlotPool} (h : p.activeOperations ≠ 0)
    (hSlot : p.slotForToken token = .ok slot)
    (hBlocked : p.acquireReadLoop token true = (p', .blocked)) :
    p.closed = false ∧ slot.state = .writing := by
  have hFinish : ∀ {q : FrameSlotPool} {result : Outcome (Option FrameLease)},
      q.activeOperations ≠ 0 → result ≠ .blocked → q.finish result ≠ (p', .blocked) := by
    intro q result hBusy hResult hEq
    rw [finish_eq hBusy] at hEq
    exact hResult (congrArg Prod.snd hEq)
  unfold acquireReadLoop at hBlocked
  rw [hSlot] at hBlocked
  simp only at hBlocked
  split at hBlocked
  · exact absurd hBlocked (hFinish (q := p.setSlot token.slotId _) h (by simp))
  · split at hBlocked
    · rename_i hWriting
      split at hBlocked
      · exact absurd hBlocked (hFinish h (by simp))
      · rename_i hOpen
        rw [not_or] at hOpen
        exact ⟨Bool.eq_false_of_not_eq_true hOpen.1, hWriting⟩
    · split at hBlocked <;> exact absurd hBlocked (hFinish h (by simp))

theorem writePayload_of_inUse (h : p.InUse .producer thread token slot)
    (write : List UInt8 → List UInt8) : p.writePayload thread token write =
      .ok (p.setSlot token.slotId { slot with payload := write slot.payload }) := by
  unfold writePayload
  rw [heldSlot_eq_ok_iff.mpr h]
  rfl

theorem setWritePayloadSize_of_inUse (h : p.InUse .producer thread token slot) (size : Nat) :
    (size ≤ p.payloadCapacity ∧ p.setWritePayloadSize thread token size =
      .ok (p.setSlot token.slotId { slot with payloadSize := size })) ∨
    (p.payloadCapacity < size ∧ p.setWritePayloadSize thread token size =
      .error (.capacity "frame slot payload exceeds its capacity")) := by
  unfold setWritePayloadSize
  rw [heldSlot_eq_ok_iff.mpr h]
  by_cases hSize : p.payloadCapacity < size
  · refine Or.inr ⟨hSize, ?_⟩
    simp only [bind, Except.bind, hSize, if_true, throw, throwThe, MonadExceptOf.throw]
  · refine Or.inl ⟨Nat.not_lt.mp hSize, ?_⟩
    simp only [bind, Except.bind, hSize, if_false, pure, Except.pure]

theorem publishWrite_of_inUse (h : p.InUse .producer thread token slot) :
    (p.closed = false ∧ p.publishWrite thread token =
      .ok (p.setSlot token.slotId { slot with state := .published })) ∨
    (p.closed = true ∧ p.publishWrite thread token =
      .error (.state "closed frame slot cannot be published")) := by
  unfold publishWrite
  rw [heldSlot_eq_ok_iff.mpr h]
  by_cases hClosed : p.closed = true
  · refine Or.inr ⟨hClosed, ?_⟩
    simp only [bind, Except.bind, hClosed, if_true, throw, throwThe, MonadExceptOf.throw]
  · refine Or.inl ⟨Bool.eq_false_of_not_eq_true hClosed, ?_⟩
    simp only [bind, Except.bind, hClosed, Bool.false_eq_true, if_false, pure, Except.pure]

end FrameSlotPool

namespace Carries

variable {c c' : FramePacketChannel} {threads : Role → ThreadId} {packets : List FramePacket}

/-- `Publish` waits for room in a channel that is open. -/
theorem publish_blocked (h : Carries c threads packets) {packet : FramePacket}
    (hBlocked : c.publish (threads .producer) packet = (c', .blocked)) :
    c.closed = false ∧ packets ≠ [] := by
  obtain ⟨q, hRegister, hCarries, hClosed⟩ := h.registerProducer
  unfold FramePacketChannel.publish at hBlocked
  rw [hRegister] at hBlocked
  simp only at hBlocked
  split at hBlocked
  · rename_i hFull
    refine ⟨hClosed ▸ Bool.eq_false_of_not_eq_true hFull.1, ?_⟩
    rintro rfl
    have hCells := hCarries.holds.head
    have hSize := hCarries.holds.size
    have hFull := hFull.2
    rw [hSize, List.length_nil] at hFull
    omega
  · split at hBlocked <;> cases hBlocked

/-- `Consume` waits for a packet in a channel that is open. -/
theorem consume_blocked (h : Carries c threads packets)
    (hBlocked : c.consume (threads .consumer) = (c', .blocked)) :
    c.closed = false ∧ packets = [] := by
  obtain ⟨q, hRegister, hCarries, hClosed⟩ := h.registerConsumer
  unfold FramePacketChannel.consume at hBlocked
  rw [hRegister] at hBlocked
  simp only at hBlocked
  split at hBlocked
  · rename_i hEmpty
    exact ⟨hClosed ▸ Bool.eq_false_of_not_eq_true hEmpty.1,
      hCarries.holds.size_eq_zero_iff.mp hEmpty.2⟩
  · split at hBlocked <;> cases hBlocked

end Carries

-- ---------------------------------------------------------------------------
-- Turns
-- ---------------------------------------------------------------------------

namespace FrameExchange

variable {x x' : FrameExchange} {q : FrameSlotPool} {record : FrameRecord}

/-- The producer's call, on the pool as it finds it. -/
theorem acquiredWrite_turn (record : FrameRecord) (hStocked : Stocked x.slots.slots x.history)
    (hSlots : q.slots = x.slots.slots) (hClosed : q.closed = x.slots.closed)
    (hCapacity : q.payloadCapacity = x.slots.payloadCapacity) (hBusy : q.activeOperations ≠ 0) :
    (x.acquiredWrite record q.acquireWriteLoop =
        { x with slots := q, producer := .acquiring record } ∧
      q.closed = false ∧ q.findFreeSlot = none) ∨
    AcquireTurn record x.outline
      (x.acquiredWrite record q.acquireWriteLoop).outline := by
  have hAcquires := FrameSlotPool.acquireWriteLoop_acquires hBusy
  have hSeen : ∀ {p : FrameSlotPool} {producer : Producer} {history : History},
      p.closed = q.closed → p.payloadCapacity = q.payloadCapacity →
      ({ x with slots := p, producer, history } : FrameExchange).outline =
        { x.outline with producer, issued := history.issued.length } := by
    intro p producer history hShut hRoom
    unfold outline
    rw [hShut, hRoom, hClosed, hCapacity]
  generalize q.acquireWriteLoop = result at hAcquires ⊢
  cases hAcquires with
  | blocked hOpen hNone => exact Or.inl ⟨rfl, hOpen, hNone⟩
  | refused hShut n =>
    rw [show (x.acquiredWrite record (q.withOperations n, .returned none)).outline =
      { x.outline with producer := .failing } from hSeen rfl rfl]
    exact Or.inr (.refused (hClosed.symm.trans hShut))
  | threw hSlot hLast n e =>
    have hIssued := hStocked.generations _ (hSlots ▸ hSlot)
    rw [show (x.acquiredWrite record (q.withOperations n, .threw e)).outline =
      { x.outline with producer := .failing } from hSeen rfl rfl]
    exact Or.inr (.threw (hLast ▸ hIssued))
  | claimed hOpen n id slot lease =>
    have hNext : (x.acquiredWrite record ((q.setSlot id slot).withOperations n,
        .returned (some lease))).outline =
        { x.outline with producer := .writing record lease, issued := x.outline.issued + 1 } := by
      refine (hSeen (by rfl) (by rfl)).trans ?_
      rw [List.length_append]
      rfl
    rw [hNext]
    exact Or.inr (.claimed lease (hClosed.symm.trans hOpen))

namespace Delivers

/-- What the consumer is about to read is the frame in its hand. -/
theorem reading_frame (h : Delivers x) (hTraced : x.view.Traced) {packet : FramePacket}
    {lease : FrameLease} (hConsumer : x.consumer = .reading packet lease) {slot : SlotStorage}
    (hUse : x.slots.InUse .consumer (x.threads .consumer) lease.token slot) :
    x.taken = some { packet, payload := slot.payload.take slot.payloadSize } := by
  have hPacket : x.consumer.packet = some packet := by
    rw [hConsumer]
    rfl
  obtain ⟨frame, hTaken, hFrame⟩ := h.taken_of_packet hPacket
  have hRead := (h.readsFrame hTraced hConsumer hUse true).readInOrder.subset
    (List.mem_append_right _ List.mem_cons_self)
  have hEq := h.eq_of_slot (h.sent_sublist.subset (List.mem_append_left _ hRead))
    (h.sent_sublist.subset (mem_sent_of_taken hTaken))
    (congrArg FramePacket.slot hFrame.symm)
  rw [hTaken, hEq]

/-- The slot of a frame that is not published yet. -/
theorem not_published_of_sent (h : Delivers x) {frame : Frame} {lease : FrameLease}
    (hProducer : x.producer = .sent frame lease) {token : FrameSlotToken}
    (hToken : frame.packet.slot = some token) {slot : SlotStorage}
    (hSlot : x.slots.slotForToken token = .ok slot) : slot.state ≠ .published := by
  have hHolds := h.producer
  unfold ProducerHolds at hHolds
  rw [hProducer] at hHolds
  obtain ⟨hNamed, -, found, hFound, -, hWriting, -⟩ := hHolds
  obtain rfl := Option.some.inj (hToken.symm.trans hNamed)
  have hAt := (FrameSlotPool.slotForToken_eq_ok_iff.mp hSlot).1
  obtain rfl := Option.some.inj (hFound.symm.trans hAt)
  rw [hWriting]
  decide

/-- The consumer's call on the token of its packet. -/
theorem acquiredRead_turn (h : Delivers x) {packet : FramePacket} {token : FrameSlotToken}
    (checks : Bool) (hPacket : x.consumer.packet = some packet) (hSeeks : x.consumer.seeks = true)
    (hToken : packet.slot = some token) (hSlots : q.slots = x.slots.slots)
    (hPool : q.poolId = x.slots.poolId) (hClosed : q.closed = x.slots.closed)
    (hCapacity : q.payloadCapacity = x.slots.payloadCapacity) (hBusy : q.activeOperations ≠ 0) :
    (x.acquiredRead packet token (q.acquireReadLoop token true) =
        { x with slots := q, consumer := .waiting packet token } ∧
      q.closed = false ∧ ∃ slot, q.slotForToken token = .ok slot ∧ slot.state = .writing) ∨
    ConsumerTurn checks x.outline
      (x.acquiredRead packet token (q.acquireReadLoop token true)).outline := by
  have hFound : q.slotForToken token = x.slots.slotForToken token := by
    unfold FrameSlotPool.slotForToken
    rw [hSlots, hPool]
  obtain ⟨frame, hTaken, rfl⟩ := h.taken_of_packet hPacket
  obtain ⟨slot, hSlot, hAwaited⟩ := h.slotForToken_of_seeks hPacket hSeeks hToken
  rw [← hFound] at hSlot
  rw [← hClosed] at hAwaited
  rcases FrameSlotPool.acquireReadLoop_awaited hBusy hSlot hAwaited with
    hBlocked | ⟨hPublished, hGranted⟩ | ⟨-, hShut, hNothing⟩
  · obtain ⟨hOpen, hWriting⟩ := FrameSlotPool.acquireReadLoop_blocked hBusy hSlot hBlocked
    rw [hBlocked]
    exact Or.inl ⟨rfl, hOpen, slot, hSlot, hWriting⟩
  · have hPast : ∀ lease, x.producer ≠ .sent frame lease := fun lease hSent =>
      h.not_published_of_sent hSent hToken (hFound ▸ hSlot) hPublished
    have hTurn : ConsumerTurn checks x.outline _ :=
      .granted { pool := true, token, active := true } hTaken hSeeks hPast
    rw [hGranted]
    refine Or.inr ?_
    simp only [outline, ← hClosed, ← hCapacity] at hTurn ⊢
    exact hTurn
  · have hTurn : ConsumerTurn checks x.outline _ :=
      .refused hTaken hSeeks (hClosed.symm.trans hShut)
    rw [hNothing]
    refine Or.inr ?_
    simp only [outline, ← hClosed, ← hCapacity] at hTurn ⊢
    exact hTurn

end Delivers

namespace Regular

/-- The producer is given a record. -/
theorem produceTurn (h : Regular x) (hStep : x.step (.produce record) = some x') :
    x.producer = .idle ∧ (x'.outline = { x.outline with producer := .acquiring record } ∨
      AcquireTurn record x.outline x'.outline) := by
  have hRunning : x.terminated = false := h.sound.running
  unfold FrameExchange.step at hStep
  rw [if_neg (by rw [hRunning]; decide)] at hStep
  simp only at hStep
  split at hStep
  · rename_i hIdle
    obtain rfl := Option.some.inj hStep
    have hAdmits : x.slots.Admits .producer (x.threads .producer) := h.sound.leased.admits .producer
    rw [FrameSlotPool.acquireWrite_eq hAdmits]
    refine ⟨hIdle, ?_⟩
    refine (acquiredWrite_turn record h.stocked (by rfl) (by rfl) (by rfl)
      (Nat.succ_ne_zero _)).imp_left ?_
    rintro ⟨hBlocked, -, -⟩
    rw [hBlocked]
    rfl
  · cases hStep

/-- A section of the producer waits, or does one of its turns. -/
theorem producerTurn (h : Regular x) (hStep : x.stepProducer = some x') :
    (x.Waits .producer ∧ Same x x') ∨ ProducerTurn x.outline x'.outline := by
  have hUse : ∀ {lease}, x.producer.lease = some lease → lease.usable = true ∧
      ∃ slot, x.slots.InUse .producer (x.threads .producer) lease.token slot :=
    fun hLease => h.delivers.usable_producer h.sound hLease
  unfold FrameExchange.stepProducer at hStep
  cases hProducer : x.producer with
  | idle => rw [hProducer] at hStep; cases hStep
  | acquiring record =>
    rw [hProducer] at hStep
    obtain rfl := Option.some.inj hStep
    have hBusy : x.slots.activeOperations ≠ 0 := by
      rw [show x.slots.activeOperations = _ from h.sound.operations,
        show x.view.writeWaits = x.producer.waits from rfl, hProducer, Nat.add_comm]
      exact Nat.succ_ne_zero _
    rcases acquiredWrite_turn record h.stocked rfl rfl rfl hBusy with
      ⟨hBlocked, hOpen, hNone⟩ | hTurn
    · rw [hBlocked]
      refine Or.inl ⟨?_, ?_, rfl⟩
      · simp only [Waits, hProducer]
        exact ⟨hOpen, hNone⟩
      · rw [← hProducer]
    · exact Or.inr (.acquired hProducer hTurn)
  | writing record lease =>
    rw [hProducer] at hUse hStep
    obtain ⟨hUsable, slot, hSlot⟩ := hUse rfl
    simp only at hStep
    split at hStep
    · cases hStep
    · obtain rfl := Option.some.inj hStep
      simp only [FrameExchange.useWrite, FrameLease.withToken, hUsable, if_true,
        FrameSlotPool.writePayload_of_inUse hSlot]
      exact Or.inr (.wrote hProducer)
  | sizing record lease =>
    rw [hProducer] at hUse hStep
    obtain ⟨hUsable, slot, hSlot⟩ := hUse rfl
    obtain rfl := Option.some.inj hStep
    rcases FrameSlotPool.setWritePayloadSize_of_inUse hSlot record.bytes.length with
      ⟨hFits, hOk⟩ | ⟨hExceeds, hError⟩
    · simp only [FrameExchange.useWrite, FrameLease.withToken, hUsable, if_true, hOk]
      exact Or.inr (.sized hProducer hFits)
    · simp only [FrameExchange.useWrite, FrameLease.withToken, hUsable, if_true, hError]
      exact Or.inr (.oversized hProducer hExceeds)
  | sending frame lease =>
    rw [hProducer] at hStep
    simp only at hStep
    obtain ⟨channel, hSame, ⟨hResult, -⟩ | ⟨e, hResult, hClosed, -⟩ | ⟨hResult, hOpen, -⟩⟩ :=
      h.delivers.carries.publish frame.packet <;> rw [hResult] at hStep <;>
      obtain rfl := Option.some.inj hStep
    · obtain ⟨hOpen, hFull⟩ := h.delivers.carries.publish_blocked hResult
      refine Or.inl ⟨?_, ?_, rfl⟩
      · simp only [Waits, hProducer]
        exact ⟨hOpen, fun hNil => hFull (congrArg (List.map Frame.packet) hNil)⟩
      · simp only [outline, hSame, hProducer]
    · have hTurn : ProducerTurn x.outline _ := .rejected hProducer hClosed
      refine Or.inr ?_
      simp only [outline, hSame] at hTurn ⊢
      exact hTurn
    · have hTurn : ProducerTurn x.outline _ := .sent hProducer hOpen
      refine Or.inr ?_
      simp only [outline, hSame] at hTurn ⊢
      exact hTurn
  | sent frame lease =>
    rw [hProducer] at hUse hStep
    obtain ⟨hUsable, slot, hSlot⟩ := hUse rfl
    obtain rfl := Option.some.inj hStep
    rcases FrameSlotPool.publishWrite_of_inUse hSlot with ⟨hOpen, hOk⟩ | ⟨hClosed, hError⟩
    · simp only [FrameExchange.useWrite, FrameLease.withToken, hUsable, if_true, hOk]
      exact Or.inr (.published hProducer hOpen)
    · simp only [FrameExchange.useWrite, FrameLease.withToken, hUsable, if_true, hError]
      exact Or.inr (.late hProducer hClosed)
  | unwinding lease =>
    rw [hProducer] at hUse hStep
    obtain ⟨hUsable, slot, hSlot⟩ := hUse rfl
    simp only [FrameLease.giveBack, hUsable, if_true,
      FrameSlotPool.back_eq_ok_iff.mpr ⟨slot, hSlot, rfl⟩] at hStep
    obtain rfl := Option.some.inj hStep
    exact Or.inr (.unwound hProducer)
  | failing =>
    rw [hProducer] at hStep
    obtain rfl := Option.some.inj hStep
    exact Or.inr (.failed hProducer)
  | failed =>
    rw [hProducer] at hStep
    obtain rfl := Option.some.inj hStep
    exact Or.inr (.ended hProducer)
  | closing =>
    rw [hProducer] at hStep
    obtain rfl := Option.some.inj hStep
    exact Or.inr (.closed hProducer)
  | stopped => rw [hProducer] at hStep; cases hStep

/-- A section of the consumer waits, or does one of its turns. -/
theorem consumerTurn (h : Regular x) {checks : Bool} (hStep : x.stepConsumer checks = some x') :
    (x.Waits .consumer ∧ Same x x') ∨ ConsumerTurn checks x.outline x'.outline := by
  have hUse : ∀ {lease}, x.consumer.lease = some lease → lease.usable = true ∧
      ∃ slot, x.slots.InUse .consumer (x.threads .consumer) lease.token slot :=
    fun hLease => h.delivers.usable_consumer h.sound hLease
  unfold FrameExchange.stepConsumer at hStep
  cases hConsumer : x.consumer with
  | idle =>
    rw [hConsumer] at hStep
    simp only at hStep
    obtain ⟨channel, hSame, ⟨hResult, -⟩ | ⟨hResult, hClosed, hEmpty, -⟩ |
        ⟨packet, rest, hPackets, hResult, -⟩⟩ := h.delivers.carries.consume <;>
      rw [hResult] at hStep <;> obtain rfl := Option.some.inj hStep
    · obtain ⟨hOpen, hEmpty⟩ := h.delivers.carries.consume_blocked hResult
      refine Or.inl ⟨?_, ?_, rfl⟩
      · simp only [Waits, hConsumer]
        exact ⟨hOpen, List.map_eq_nil_iff.mp hEmpty⟩
      · simp only [outline, hSame, hConsumer]
    · have hTurn : ConsumerTurn checks x.outline _ :=
        .drained hConsumer hClosed (List.map_eq_nil_iff.mp hEmpty)
      refine Or.inr ?_
      simp only [outline, hSame] at hTurn ⊢
      exact hTurn
    · obtain ⟨frame, frames, hQueued, rfl, rfl⟩ := List.map_eq_cons_iff.mp hPackets
      have hTurn : ConsumerTurn checks x.outline _ := .received hConsumer hQueued
      refine Or.inr ?_
      simp only [outline, hSame, hQueued, List.tail_cons, List.head?_cons] at hTurn ⊢
      exact hTurn
  | received packet =>
    have hPacket : x.consumer.packet = some packet := by
      rw [hConsumer]
      rfl
    have hSeeks : x.consumer.seeks = true := by
      rw [hConsumer]
      rfl
    obtain ⟨frame, hTaken, rfl⟩ := h.delivers.taken_of_packet hPacket
    have hSent := h.delivers.sent_sublist.subset (Delivers.mem_sent_of_taken hTaken)
    obtain ⟨token, hToken, -, -⟩ := h.delivers.named frame hSent
    obtain ⟨slot, hSlot, -⟩ := h.delivers.slotForToken_of_seeks hPacket hSeeks hToken
    rw [hConsumer] at hStep
    simp only [hToken] at hStep
    obtain rfl := Option.some.inj hStep
    have hAdmits : x.slots.Admits .consumer (x.threads .consumer) := h.sound.leased.admits .consumer
    rcases FrameSlotPool.acquireReadImpl_eq hAdmits token true with ⟨e, hError, -⟩ | ⟨-, hLoop⟩
    · cases hError.symm.trans hSlot
    · rw [show x.slots.acquireRead (x.threads .consumer) token = _ from hLoop]
      refine Or.inr ?_
      rcases h.delivers.acquiredRead_turn
        (q := (x.slots.withOperations (x.slots.activeOperations + 1)).withThread
          (x.threads .consumer) .consumer)
        checks hPacket hSeeks hToken rfl rfl rfl rfl (Nat.succ_ne_zero _) with
        ⟨hBlocked, -, -⟩ | hTurn
      · rw [hBlocked]
        exact .asked token hTaken hConsumer
      · exact hTurn
  | waiting packet token =>
    have hPacket : x.consumer.packet = some packet := by
      rw [hConsumer]
      rfl
    have hSeeks : x.consumer.seeks = true := by
      rw [hConsumer]
      rfl
    have hToken : packet.slot = some token := by
      have hHolds := h.delivers.consumer
      unfold ConsumerHolds at hHolds
      rw [hConsumer] at hHolds
      exact hHolds
    have hBusy : x.slots.activeOperations ≠ 0 := by
      rw [show x.slots.activeOperations = _ from h.sound.operations,
        show x.view.readWaits = x.consumer.waitsFor from rfl, hConsumer]
      exact Nat.succ_ne_zero _
    rw [hConsumer] at hStep
    obtain rfl := Option.some.inj hStep
    rcases h.delivers.acquiredRead_turn checks hPacket hSeeks hToken rfl rfl rfl rfl hBusy with
      ⟨hBlocked, hOpen, hWriting⟩ | hTurn
    · rw [hBlocked]
      refine Or.inl ⟨?_, ?_, rfl⟩
      · simp only [Waits, hConsumer]
        exact ⟨hOpen, hWriting⟩
      · rw [← hConsumer]
    · exact Or.inr hTurn
  | reading packet lease =>
    rw [hConsumer] at hUse hStep
    obtain ⟨hUsable, slot, hSlot⟩ := hUse rfl
    have hRead : lease.withToken "read lease is not active"
        (x.slots.readPayload (x.threads .consumer)) = .ok (slot.payload.take slot.payloadSize) := by
      unfold FrameLease.withToken FrameSlotPool.readPayload
      rw [if_pos hUsable, FrameSlotPool.heldSlot_eq_ok_iff.mpr hSlot]
      rfl
    simp only [hRead] at hStep
    obtain rfl := Option.some.inj hStep
    exact Or.inr (.read (h.delivers.reading_frame h.traced hConsumer hSlot) hConsumer)
  | releasing lease checked =>
    rw [hConsumer] at hUse hStep
    obtain ⟨hUsable, slot, hSlot⟩ := hUse rfl
    simp only [FrameLease.giveBack, hUsable, if_true,
      FrameSlotPool.back_eq_ok_iff.mpr ⟨slot, hSlot, rfl⟩] at hStep
    obtain rfl := Option.some.inj hStep
    exact Or.inr (.released hConsumer)
  | failing =>
    rw [hConsumer] at hStep
    obtain rfl := Option.some.inj hStep
    exact Or.inr (.failed hConsumer)
  | failed =>
    rw [hConsumer] at hStep
    obtain rfl := Option.some.inj hStep
    exact Or.inr (.ended hConsumer)
  | stopped => rw [hConsumer] at hStep; cases hStep

end Regular

end FrameExchange

end Ithax.Threading
