import Ithax.Lib.FairTurns
import Ithax.Lib.RunHistory
import Ithax.Threading.ExchangeTurns

/-!
# The exchange comes to rest

The producer and the consumer wait for each other: for a free slot, for room in the
channel, for a packet and for the slot of a packet. Never do both wait with anything left
to do, and every section that does not wait brings its thread closer to its end.

## Results

* `Regular.atRest`  — both threads wait only when nothing is on its way.
* `rest_of_run`     — under a fair scheduler the exchange comes to rest.
-/

namespace Ithax.Threading

open Ithax.Lib

-- ---------------------------------------------------------------------------
-- The work that is left
-- ---------------------------------------------------------------------------

/-- How many sections the producer has before it, with five for the packet it sends. -/
def Producer.work : Producer → Nat
  | acquiring _ => 15
  | writing _ _ => 14
  | sizing _ _ => 13
  | sending _ _ => 12
  | sent _ _ => 6
  | unwinding _ => 4
  | failing => 3
  | idle | failed => 2
  | closing => 1
  | stopped => 0

/-- How many sections the consumer has before it with the packet it holds. -/
def Consumer.work : Consumer → Nat
  | received _ => 7
  | waiting _ _ => 6
  | reading _ _ => 5
  | releasing _ _ => 4
  | idle => 3
  | failing => 2
  | failed => 1
  | stopped => 0

/-- The work of both threads, and five sections of the consumer for each packet in the channel. -/
def Outline.work (o : Outline) : Nat :=
  o.producer.work + o.consumer.work + 5 * o.queued.length

/-- A record that is taken up is worked off step by step. -/
theorem AcquireTurn.work_lt {record : FrameRecord} {o o' : Outline} (h : AcquireTurn record o o') :
    o'.work < o.consumer.work + 5 * o.queued.length + 15 := by
  cases h <;> simp only [Outline.work, Producer.work] <;> omega

/-- Every section of the producer works something off. -/
theorem ProducerTurn.work_lt {o o' : Outline} (h : ProducerTurn o o') : o'.work < o.work := by
  cases h with
  | acquired hProducer hTurn =>
    have hLess := hTurn.work_lt
    simp only [Outline.work, hProducer, Producer.work] at hLess ⊢
    omega
  | sent hProducer =>
    simp only [Outline.work, hProducer, Producer.work, List.length_append, List.length_singleton]
    omega
  | wrote hProducer | sized hProducer | oversized hProducer | rejected hProducer
  | published hProducer | late hProducer | unwound hProducer | failed hProducer | ended hProducer
  | closed hProducer =>
    simp only [Outline.work, hProducer, Producer.work]
    omega

/-- A consumer that looks for its slot has at least the grant before it. -/
theorem Consumer.work_of_seeks {consumer : Consumer} (h : consumer.seeks = true) :
    6 ≤ consumer.work := by
  cases consumer with
  | received packet | waiting packet token => simp [work]
  | idle | reading packet lease | releasing lease checks | failing | failed | stopped => cases h

/-- So does every section of the consumer. -/
theorem ConsumerTurn.work_lt {checks : Bool} {o o' : Outline} (h : ConsumerTurn checks o o') :
    o'.work < o.work := by
  cases h with
  | drained hConsumer =>
    cases checks <;> simp [Outline.work, hConsumer, Consumer.work]
  | received hConsumer hQueued =>
    simp only [Outline.work, hConsumer, hQueued, Consumer.work, List.length_cons]
    omega
  | granted lease hTaken hSeeks hPast =>
    have hWork := Consumer.work_of_seeks hSeeks
    show o.producer.work + 5 + 5 * o.queued.length < _
    unfold Outline.work
    omega
  | refused hTaken hSeeks =>
    have hWork := Consumer.work_of_seeks hSeeks
    show o.producer.work + 2 + 5 * o.queued.length < _
    unfold Outline.work
    omega
  | @released lease checked hConsumer =>
    cases checked <;> simp [Outline.work, hConsumer, Consumer.work]
  | asked token hTaken hConsumer | read hTaken hConsumer | failed hConsumer | ended hConsumer =>
    simp only [Outline.work, hConsumer, Consumer.work]
    omega

-- ---------------------------------------------------------------------------
-- Who waits for whom
-- ---------------------------------------------------------------------------

/-- The record in the producer's hand. -/
def Producer.record : Producer → Option FrameRecord
  | acquiring record | writing record _ | sizing record _ => some record
  | _ => none

/-- The record in the producer's hand fits a slot, and a consumer that has stopped has left
a closed channel behind, and a closed pool unless the channel was empty. -/
structure Outline.Settled (o : Outline) : Prop where
  fits : ∀ record, o.producer.record = some record → record.bytes.length ≤ o.payloadCapacity
  failed : o.consumer = .failed → o.channelClosed = true
  stopped : o.consumer = .stopped → o.channelClosed = true ∧ (o.slotsClosed = true ∨ o.queued = [])

namespace Outline.Settled

variable {o o' : Outline}

/-- The producer goes on, with the record it has in hand or without one. -/
theorem withProducer (h : o.Settled) {producer : Producer} {produced : List Frame} {issued : Nat}
    (hRecord : producer.record = none ∨ producer.record = o.producer.record) :
    ({ o with producer, produced, issued } : Outline).Settled := by
  refine ⟨fun record hHand => ?_, h.failed, h.stopped⟩
  rcases hRecord with hNone | hSame
  · cases hNone.symm.trans hHand
  · exact h.fits record (hSame.symm.trans hHand)

/-- The producer tries to get a slot for a record that fits. -/
theorem acquire (h : o.Settled) {record : FrameRecord}
    (hFits : record.bytes.length ≤ o.payloadCapacity) (hTurn : AcquireTurn record o o') :
    o'.Settled := by
  cases hTurn with
  | refused hClosed | threw hExhausted => exact h.withProducer (Or.inl rfl)
  | claimed lease hOpen =>
    refine ⟨fun other hHand => ?_, h.failed, h.stopped⟩
    rw [← Option.some.inj hHand]
    exact hFits

/-- A section of the producer. -/
theorem producerTurn (h : o.Settled) (hTurn : ProducerTurn o o') : o'.Settled := by
  cases hTurn with
  | acquired hProducer hTurn => exact h.acquire (h.fits _ (by rw [hProducer]; rfl)) hTurn
  | wrote hProducer =>
    refine h.withProducer (Or.inr ?_)
    rw [hProducer]
    rfl
  | sized | oversized | rejected | published | late | unwound => exact h.withProducer (Or.inl rfl)
  | sent hProducer hOpen =>
    refine ⟨nofun, h.failed, fun hStopped => ?_⟩
    exact absurd (h.stopped hStopped).1 (by rw [hOpen]; decide)
  | failed | closed => exact ⟨nofun, fun _ => rfl, fun hStopped => ⟨rfl, (h.stopped hStopped).2⟩⟩
  | ended => exact ⟨nofun, h.failed, fun hStopped => ⟨(h.stopped hStopped).1, Or.inl rfl⟩⟩

/-- A section of the consumer. -/
theorem consumerTurn (h : o.Settled) {checks : Bool} (hTurn : ConsumerTurn checks o o') :
    o'.Settled := by
  cases hTurn with
  | drained hConsumer hClosed hEmpty =>
    cases checks with
    | true => exact ⟨h.fits, nofun, fun _ => ⟨hClosed, Or.inr hEmpty⟩⟩
    | false => exact ⟨h.fits, nofun, nofun⟩
  | received | asked | granted | refused | read => exact ⟨h.fits, nofun, nofun⟩
  | @released lease checked hConsumer => cases checked <;> exact ⟨h.fits, nofun, nofun⟩
  | failed hConsumer => exact ⟨h.fits, fun _ => rfl, nofun⟩
  | ended hConsumer => exact ⟨h.fits, nofun, fun _ => ⟨h.failed hConsumer, Or.inl rfl⟩⟩

/-- Either close. -/
theorem closed (h : o.Settled) :
    ({ o with channelClosed := true } : Outline).Settled ∧
      ({ o with slotsClosed := true } : Outline).Settled :=
  ⟨⟨h.fits, fun _ => rfl, fun hStopped => ⟨rfl, (h.stopped hStopped).2⟩⟩,
    ⟨h.fits, h.failed, fun hStopped => ⟨(h.stopped hStopped).1, Or.inl rfl⟩⟩⟩

end Outline.Settled

/-- The slots keep their size, and a channel that is closed stays so. -/
def Outline.Onward (o o' : Outline) : Prop :=
  o'.payloadCapacity = o.payloadCapacity ∧ (o.channelClosed = true → o'.channelClosed = true)

/-- The producer tries to get a slot. -/
theorem AcquireTurn.onward {record : FrameRecord} {o o' : Outline} (h : AcquireTurn record o o') :
    o.Onward o' := by
  cases h <;> exact ⟨rfl, fun hClosed => hClosed⟩

/-- A section of the producer. -/
theorem ProducerTurn.onward {o o' : Outline} (h : ProducerTurn o o') : o.Onward o' := by
  cases h with
  | acquired hProducer hTurn => exact hTurn.onward
  | failed | closed => exact ⟨rfl, fun _ => rfl⟩
  | wrote | sized | oversized | rejected | sent | published | late | unwound | ended =>
    exact ⟨rfl, fun hClosed => hClosed⟩

/-- A section of the consumer. -/
theorem ConsumerTurn.onward {checks : Bool} {o o' : Outline} (h : ConsumerTurn checks o o') :
    o.Onward o' := by
  cases h with
  | failed => exact ⟨rfl, fun _ => rfl⟩
  | drained | received | asked | granted | refused | read | released | ended =>
    exact ⟨rfl, fun hClosed => hClosed⟩

namespace FrameExchange

variable {x x' : FrameExchange}

/-- Nothing is on its way: the producer has no frame to make, and the consumer has stopped or
finds the channel open and empty. -/
def AtRest (x : FrameExchange) : Prop :=
  (x.producer = .idle ∨ x.producer = .stopped) ∧
    (x.consumer = .stopped ∨ x.consumer = .idle ∧ x.channel.closed = false ∧ x.queued = [])

namespace Regular

/-- A slot that is being written is the one of the producer's lease. -/
theorem writing_token (h : Regular x) {id : Nat} {slot : SlotStorage}
    (hSlot : x.slots.slots[id]? = some slot) (hWriting : slot.state = .writing) :
    ∃ lease, x.producer.lease = some lease ∧ lease.token = slotToken x.slots.poolId id slot := by
  have hMem : x.slots.tokenOf id slot ∈ x.slots.held Role.producer.holds :=
    FrameSlotPool.mem_held.mpr ⟨slot, hSlot, hWriting, rfl⟩
  have hTokens : live (leasesOf x.producer x.consumer .producer) =
      x.slots.held Role.producer.holds := h.sound.leased.tokens .producer
  rw [← hTokens] at hMem
  obtain ⟨lease, hLease, hToken⟩ := mem_total.mp hMem
  refine ⟨lease, Option.mem_toList.mp hLease, ?_⟩
  unfold FrameLease.live at hToken
  split at hToken
  · exact (Multiset.mem_singleton.mp hToken).symm
  · cases hToken

/-- The consumer waits for a slot only while the producer is about to publish it. -/
theorem producer_of_seeks (h : Regular x) {packet : FramePacket} {token : FrameSlotToken}
    {slot : SlotStorage} (hConsumer : x.consumer = .waiting packet token)
    (hSlot : x.slots.slotForToken token = .ok slot) (hWriting : slot.state = .writing) :
    ∃ lease, x.producer.lease = some lease ∧
      ∀ frame, x.producer ≠ .sending frame lease := by
  have hAt := (FrameSlotPool.slotForToken_eq_ok_iff.mp hSlot).1
  obtain ⟨lease, hLease, hToken⟩ := h.writing_token hAt hWriting
  refine ⟨lease, hLease, fun frame hSending => ?_⟩
  -- the frame whose slot the consumer waits for was sent before
  obtain ⟨taken, hTaken, hPacket⟩ := h.delivers.taken_of_packet
    (show x.consumer.packet = some packet by rw [hConsumer]; rfl)
  have hNamed : packet.slot = some token := by
    have hHolds := h.delivers.consumer
    unfold ConsumerHolds at hHolds
    rw [hConsumer] at hHolds
    exact hHolds
  refine h.delivers.not_sent_of_sending hSending taken (Delivers.mem_sent_of_taken hTaken) ?_
  rw [hPacket, hNamed, hToken]
  exact congrArg some (FrameSlotPool.eq_tokenOf hSlot)

/-- With nothing on its way every slot is free. -/
theorem free_slots (h : Regular x) (hProducer : x.producer.lease = none)
    (hConsumer : x.consumer.lease = none) (hQueued : x.queued = []) (hTaken : x.taken = none) :
    ∀ slot ∈ x.slots.slots, slot.state = .free := by
  intro slot hSlot
  obtain ⟨id, hAt⟩ := List.mem_iff_getElem?.mp hSlot
  have hWriting := not_held h.sound .producer (by rw [leasesOf, hProducer]; rfl) hAt
  have hReading := not_held h.sound .consumer (by rw [leasesOf, hConsumer]; rfl) hAt
  have hPublished := h.delivers.not_published h.traced hQueued hTaken hAt
  cases hState : slot.state with
  | free => rfl
  | writing => exact absurd hState hWriting
  | published => exact absurd hState hPublished
  | reading => exact absurd hState hReading

/-- With all slots free one is found. -/
theorem findFreeSlot_ne_none (h : Regular x) (hFree : ∀ slot ∈ x.slots.slots, slot.state = .free) :
    x.slots.findFreeSlot ≠ none := by
  obtain ⟨first, rest, hSlots⟩ := List.exists_cons_of_ne_nil h.stocked.nonempty
  have hFirst : first.state = .free := by
    refine hFree first ?_
    rw [hSlots]
    exact List.mem_cons_self
  unfold FrameSlotPool.findFreeSlot
  rw [hSlots, List.findIdx?_cons]
  simp [hFirst]

/-- When both threads have stopped and the channel is empty, the pool is quiescent. -/
theorem quiescent (h : Regular x) (hProducer : x.producer = .stopped)
    (hConsumer : x.consumer = .stopped) (hQueued : x.queued = []) :
    x.slots.isQuiescent = true := by
  have hTaken : x.taken = none := h.delivers.taken_none (by rw [hConsumer]; rfl)
  have hOperations := h.sound.operations
  rw [show x.view.writeWaits = x.producer.waits from rfl,
    show x.view.readWaits = x.consumer.waitsFor from rfl, hProducer, hConsumer] at hOperations
  have hFree := h.free_slots (by rw [hProducer]; rfl) (by rw [hConsumer]; rfl) hQueued hTaken
  exact decide_eq_true ⟨hOperations, hFree⟩

/-- Both threads wait only when nothing is on its way. -/
theorem atRest (h : Regular x) (hSettled : x.outline.Settled) (hWaits : ∀ role, x.Waits role) :
    x.AtRest := by
  have hConsumer := hWaits .consumer
  have hProducer := hWaits .producer
  -- the consumer does not wait for a slot: the producer would be about to publish it
  have hRest : x.consumer = .stopped ∨
      x.consumer = .idle ∧ x.channel.closed = false ∧ x.queued = [] := by
    simp only [Waits] at hConsumer hProducer
    cases hPlace : x.consumer with
    | idle =>
      rw [hPlace] at hConsumer
      exact Or.inr ⟨rfl, hConsumer⟩
    | stopped => exact Or.inl rfl
    | waiting packet token =>
      rw [hPlace] at hConsumer
      obtain ⟨-, slot, hSlot, hWriting⟩ := hConsumer
      obtain ⟨lease, hLease, hNot⟩ := h.producer_of_seeks hPlace hSlot hWriting
      cases hMaker : x.producer with
      | idle | stopped | acquiring record =>
        rw [hMaker] at hLease
        cases hLease
      | sending frame other =>
        rw [hMaker] at hLease hNot
        cases hLease
        exact absurd rfl (hNot frame)
      | writing record lease | sizing record lease | sent frame lease | unwinding lease | failing
      | failed | closing =>
        rw [hMaker] at hProducer
        cases hProducer
    | received packet | reading packet lease | releasing lease checks | failing | failed =>
      rw [hPlace] at hConsumer
      cases hConsumer
  refine ⟨?_, hRest⟩
  simp only [Waits] at hProducer
  have hEmpty : x.slots.closed = true ∨ x.queued = [] := by
    rcases hRest with hStopped | ⟨-, -, hEmpty⟩
    · exact (hSettled.stopped hStopped).2
    · exact Or.inr hEmpty
  cases hPlace : x.producer with
  | idle => exact Or.inl rfl
  | stopped => exact Or.inr rfl
  | acquiring record =>
    rw [hPlace] at hProducer
    rcases hEmpty with hClosed | hEmpty
    · cases hProducer.1.symm.trans hClosed
    · have hHands : x.consumer.lease = none ∧ x.consumer.packet = none := by
        rcases hRest with hStopped | ⟨hIdle, -⟩
        · rw [hStopped]
          exact ⟨rfl, rfl⟩
        · rw [hIdle]
          exact ⟨rfl, rfl⟩
      have hFree := h.free_slots (by rw [hPlace]; rfl) hHands.1 hEmpty
        (h.delivers.taken_none hHands.2)
      exact absurd hProducer.2 (h.findFreeSlot_ne_none hFree)
  | sending frame lease =>
    rw [hPlace] at hProducer
    rcases hRest with hStopped | ⟨-, -, hEmpty⟩
    · cases hProducer.1.symm.trans (hSettled.stopped hStopped).1
    · exact absurd hEmpty hProducer.2
  | writing record lease | sizing record lease | sent frame lease | unwinding lease | failing
  | failed | closing =>
    rw [hPlace] at hProducer
    cases hProducer

end Regular

-- ---------------------------------------------------------------------------
-- Turns of the two threads
-- ---------------------------------------------------------------------------

/-- The thread that runs next; what the consumer checks may come out either way. -/
inductive ThreadTurn where
  | producer
  | consumer (checks : Bool)

/-- Whose turn it is. -/
def ThreadTurn.role : ThreadTurn → Role
  | producer => .producer
  | consumer _ => .consumer

/-- What the thread does. -/
def ThreadTurn.move : ThreadTurn → Move
  | producer => .producer
  | consumer checks => .consumer checks

/-- The exchange after a turn; a thread that has nothing to do leaves it as it is. -/
def turn (x : FrameExchange) (t : ThreadTurn) : FrameExchange := (x.step t.move).getD x

/-- A producer without a section waits. -/
theorem waits_of_stepProducer_eq_none (h : x.outline.Settled) (hNone : x.stepProducer = none) :
    x.Waits .producer := by
  unfold stepProducer at hNone
  simp only [Waits]
  cases hPlace : x.producer with
  | idle | stopped => trivial
  | writing record lease =>
    rw [hPlace] at hNone
    simp only at hNone
    split at hNone
    · rename_i hExceeds
      have hFits : record.bytes.length ≤ x.slots.payloadCapacity :=
        h.fits record (by show x.producer.record = _; rw [hPlace]; rfl)
      omega
    · cases hNone
  | sending frame lease =>
    rw [hPlace] at hNone
    simp only at hNone
    split at hNone <;> cases hNone
  | unwinding lease =>
    rw [hPlace] at hNone
    simp only at hNone
    split at hNone <;> cases hNone
  | acquiring record | sizing record lease | sent frame lease | failing | failed | closing =>
    rw [hPlace] at hNone
    cases hNone

/-- A consumer without a section waits. -/
theorem waits_of_stepConsumer_eq_none {checks : Bool} (hNone : x.stepConsumer checks = none) :
    x.Waits .consumer := by
  unfold stepConsumer at hNone
  simp only [Waits]
  cases hPlace : x.consumer with
  | stopped => trivial
  | idle | received packet | reading packet lease | releasing lease checked =>
    rw [hPlace] at hNone
    simp only at hNone
    split at hNone <;> cases hNone
  | waiting packet token | failing | failed =>
    rw [hPlace] at hNone
    cases hNone

/-- As long as nothing has terminated, the producer's step is its section. -/
theorem step_producer (h : Regular x) : x.step .producer = x.stepProducer := by
  have hRunning : x.terminated = false := h.sound.running
  unfold step
  rw [if_neg (by rw [hRunning]; decide)]

/-- So is the consumer's. -/
theorem step_consumer (h : Regular x) (checks : Bool) :
    x.step (.consumer checks) = x.stepConsumer checks := by
  have hRunning : x.terminated = false := h.sound.running
  unfold step
  rw [if_neg (by rw [hRunning]; decide)]

/-- The channel can always be closed. -/
theorem step_closeChannel (h : Regular x) :
    x.step .closeChannel = some { x with channel := x.channel.close } := by
  have hRunning : x.terminated = false := h.sound.running
  unfold step
  rw [if_neg (by rw [hRunning]; decide)]

/-- So can the slots. -/
theorem step_closeSlots (h : Regular x) :
    x.step .closeSlots = some { x with slots := x.slots.close } := by
  have hRunning : x.terminated = false := h.sound.running
  unfold step
  rw [if_neg (by rw [hRunning]; decide)]

/-- A turn of a thread that does not wait uses up some of its work. -/
theorem turn_cases (h : Regular x) (hSettled : x.outline.Settled) (t : ThreadTurn) :
    (x.Waits t.role ∧ Same x (x.turn t)) ∨ (x.turn t).outline.work < x.outline.work := by
  unfold turn
  cases t with
  | producer =>
    rw [ThreadTurn.move, step_producer h]
    cases hStep : x.stepProducer with
    | none => exact Or.inl ⟨waits_of_stepProducer_eq_none hSettled hStep, rfl, rfl⟩
    | some x' => exact (h.producerTurn hStep).imp_right ProducerTurn.work_lt
  | consumer checks =>
    rw [ThreadTurn.move, step_consumer h]
    cases hStep : x.stepConsumer checks with
    | none => exact Or.inl ⟨waits_of_stepConsumer_eq_none hStep, rfl, rfl⟩
    | some x' => exact (h.consumerTurn hStep).imp_right ConsumerTurn.work_lt

/-- Every step leaves the producer with a record that fits. -/
theorem Regular.settled (h : Regular x) (hSettled : x.outline.Settled) {move : Move}
    (hFits : ∀ record, move = .produce record → record.bytes.length ≤ x.slots.payloadCapacity)
    (hStep : x.step move = some x') : x'.outline.Settled ∧ x.outline.Onward x'.outline := by
  have hRunning : x.terminated = false := h.sound.running
  cases move with
  | produce record =>
    obtain ⟨hIdle, hAcquiring | hTurn⟩ := h.produceTurn hStep
    · rw [hAcquiring]
      refine ⟨⟨fun other hHand => ?_, hSettled.failed, hSettled.stopped⟩, rfl,
        fun hClosed => hClosed⟩
      rw [← Option.some.inj hHand]
      exact hFits record rfl
    · exact ⟨hSettled.acquire (hFits record rfl) hTurn, hTurn.onward⟩
  | producer =>
    rw [step_producer h] at hStep
    rcases h.producerTurn hStep with ⟨-, hSame⟩ | hTurn
    · rw [hSame.outline]
      exact ⟨hSettled, rfl, fun hClosed => hClosed⟩
    · exact ⟨hSettled.producerTurn hTurn, hTurn.onward⟩
  | consumer checks =>
    rw [step_consumer h] at hStep
    rcases h.consumerTurn hStep with ⟨-, hSame⟩ | hTurn
    · rw [hSame.outline]
      exact ⟨hSettled, rfl, fun hClosed => hClosed⟩
    · exact ⟨hSettled.consumerTurn hTurn, hTurn.onward⟩
  | stop =>
    unfold FrameExchange.step at hStep
    rw [if_neg (by rw [hRunning]; decide)] at hStep
    simp only at hStep
    split at hStep
    · obtain rfl := Option.some.inj hStep
      exact ⟨hSettled.withProducer (Or.inl rfl), rfl, fun hClosed => hClosed⟩
    · cases hStep
  | closeChannel =>
    obtain rfl := Option.some.inj ((step_closeChannel h).symm.trans hStep)
    exact ⟨hSettled.closed.1, rfl, fun _ => rfl⟩
  | closeSlots =>
    obtain rfl := Option.some.inj ((step_closeSlots h).symm.trans hStep)
    exact ⟨hSettled.closed.2, rfl, fun hClosed => hClosed⟩

-- ---------------------------------------------------------------------------
-- Runs
-- ---------------------------------------------------------------------------

instance : Fintype Role where
  elems := {.producer, .consumer}
  complete role := by cases role <;> decide

/-- Turns of the two threads keep what holds of every exchange, and use up its work. -/
theorem winds (closed : Bool) : Winds turn ThreadTurn.role
    (fun x => Regular x ∧ x.outline.Settled ∧ (closed = true → x.channel.closed = true))
    (fun x => x.outline.work) Waits where
  keeps x t hKept := by
    obtain ⟨hRegular, hSettled, hClosed⟩ := hKept
    unfold turn
    cases hStep : x.step t.move with
    | none => exact ⟨hRegular, hSettled, hClosed⟩
    | some x' =>
      obtain ⟨hNext, -, hOnward⟩ := hRegular.settled hSettled (by cases t <;> nofun) hStep
      exact ⟨hRegular.step hStep, hNext, fun hWas => hOnward (hClosed hWas)⟩
  turn x t hKept := by
    obtain ⟨hRegular, hSettled, -⟩ := hKept
    rcases turn_cases hRegular hSettled t with ⟨hWaits, hSame⟩ | hLess
    · refine Or.inr ⟨hWaits, ?_, fun role => (hSame.waits role).mpr⟩
      rw [hSame.outline]
    · exact Or.inl hLess

section Run

variable {slotCount payloadCapacity poolId capacity : Nat} {threads : Role → ThreadId}
  {moves : List Move}

/-- What holds of an exchange that is given records that fit its slots. -/
theorem settled_of_run
    (h : FrameExchange.run slotCount payloadCapacity poolId capacity threads moves = some x)
    (hFits : ∀ record, .produce record ∈ moves → record.bytes.length ≤ payloadCapacity) :
    Regular x ∧ x.outline.Settled := by
  obtain ⟨slots, channel, hSlots, hChannel, hRun⟩ := run_eq_some h
  have hStart : Regular { slots, channel, threads } := regular_start hSlots hChannel
  have hCapacity : slots.payloadCapacity = payloadCapacity := by
    rw [FrameSlotPool.create_eq_ok hSlots]
  have hAll : Regular x ∧ x.outline.Settled ∧ x.slots.payloadCapacity = payloadCapacity := by
    refine invariant_along
      (I := fun x => Regular x ∧ x.outline.Settled ∧ x.slots.payloadCapacity = payloadCapacity)
      ⟨hStart, ⟨nofun, nofun, nofun⟩, hCapacity⟩
      (fun before move after mid next hSplit _ hStep hMid => ?_) moves [] (List.append_nil _).symm x
      hRun
    obtain ⟨hRegular, hSettled, hSame⟩ := hMid
    have hMay : ∀ record, move = .produce record →
        record.bytes.length ≤ mid.slots.payloadCapacity := by
      intro record hMove
      rw [hSame]
      refine hFits record ?_
      rw [hSplit, hMove]
      exact List.mem_append_right _ List.mem_cons_self
    obtain ⟨hNext, hRoom, -⟩ := hRegular.settled hSettled hMay hStep
    exact ⟨hRegular.step hStep, hNext, hRoom.trans hSame⟩
  exact ⟨hAll.1, hAll.2.1⟩

/-- From every state of every run, the two threads come to rest under any scheduler that
keeps coming back to both: no frame is being made or on its way to be read, and when the
channel is closed the consumer has stopped. -/
theorem rest_of_run
    (h : FrameExchange.run slotCount payloadCapacity poolId capacity threads moves = some x)
    (hFits : ∀ record, .produce record ∈ moves → record.bytes.length ≤ payloadCapacity)
    {schedule : Nat → ThreadTurn} (hFair : Fair ThreadTurn.role schedule) :
    ∃ n, ∀ m, n ≤ m → (scheduled turn schedule x m).AtRest ∧
      (x.channel.closed = true → (scheduled turn schedule x m).consumer = .stopped) := by
  obtain ⟨hRegular, hSettled⟩ := settled_of_run h hFits
  have hWinds := winds x.channel.closed
  have hStart : Regular x ∧ x.outline.Settled ∧
      (x.channel.closed = true → x.channel.closed = true) :=
    ⟨hRegular, hSettled, fun hClosed => hClosed⟩
  obtain ⟨n, hn⟩ := hWinds.comes_to_rest hStart hFair
  refine ⟨n, fun m hm => ?_⟩
  obtain ⟨hKept, hSettledThen, hClosed⟩ := hWinds.keeps_scheduled hStart m
  have hRest := hKept.atRest hSettledThen (hn m hm)
  refine ⟨hRest, fun hWas => ?_⟩
  rcases hRest.2 with hStopped | ⟨-, hOpen, -⟩
  · exact hStopped
  · cases hOpen.symm.trans (hClosed hWas)

/-- One thread after the other. -/
def alternation (n : Nat) : ThreadTurn := if n % 2 = 0 then .producer else .consumer true

/-- Taking turns is fair. -/
theorem fair_alternation : Fair ThreadTurn.role alternation := by
  intro role n
  have hEven : 2 * n % 2 = 0 := by omega
  have hOdd : (2 * n + 1) % 2 = 1 := by omega
  cases role with
  | producer => exact ⟨2 * n, by omega, by simp [alternation, hEven, ThreadTurn.role]⟩
  | consumer => exact ⟨2 * n + 1, by omega, by simp [alternation, hOdd, ThreadTurn.role]⟩

/-- One record is sent and the channel closed: the exchange comes to rest with the consumer
stopped. -/
theorem rest_of_run_alternation : ∃ x,
    FrameExchange.run 1 4 1 1 (fun role => if role = .producer then 10 else 20)
      [.produce ⟨1, 11, [7, 8]⟩, .closeChannel] = some x ∧
    ∃ n, ∀ m, n ≤ m → (scheduled turn alternation x m).AtRest ∧
      (scheduled turn alternation x m).consumer = .stopped := by
  obtain ⟨x, hRun, hClosed⟩ : ∃ x,
      FrameExchange.run 1 4 1 1 (fun role => if role = .producer then 10 else 20)
        [.produce ⟨1, 11, [7, 8]⟩, .closeChannel] = some x ∧ x.channel.closed = true :=
    ⟨_, rfl, rfl⟩
  have hFits : ∀ record : FrameRecord,
      .produce record ∈ [Move.produce ⟨1, 11, [7, 8]⟩, .closeChannel] →
        record.bytes.length ≤ 4 := by
    intro record hMem
    simp only [List.mem_cons, Move.produce.injEq, List.not_mem_nil, or_false, reduceCtorEq] at hMem
    rw [hMem]
    decide
  obtain ⟨n, hn⟩ := rest_of_run hRun hFits fair_alternation
  exact ⟨x, hRun, n, fun m hm => ⟨(hn m hm).1, (hn m hm).2 hClosed⟩⟩

end Run

end FrameExchange

end Ithax.Threading
