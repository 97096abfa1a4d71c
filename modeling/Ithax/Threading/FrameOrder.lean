import Ithax.Threading.Delivery

/-!
# Frames in order

Every step of the producer and of the consumer, and every close of the channel and of
the pool, keeps the frames as `Delivers` says. When both are through, the pool is empty.

## Results

* `Delivers.step`   — the frames, step by step.
* `frames_of_run`   — the frames along every run.
-/

namespace Ithax.Threading

open Ithax.Lib

/-- `AcquireRead` on the token of a frame that is on its way does not throw, and it comes
back with nothing only from a pool that is closed. -/
theorem FrameSlotPool.acquireReadLoop_awaited {p : FrameSlotPool} {token : FrameSlotToken}
    {slot : SlotStorage} (hBusy : p.activeOperations ≠ 0)
    (hSlot : p.slotForToken token = .ok slot) (hAwaited : Awaited p.closed slot) :
    p.acquireReadLoop token true = (p, .blocked) ∨
    (slot.state = .published ∧ p.acquireReadLoop token true =
      ((p.withOperations (p.activeOperations - 1)).setSlot token.slotId
        { slot with state := .reading },
        .returned (some { pool := true, token, active := true }))) ∨
    ((slot.state = .writing ∨ slot.state = .free ∧ slot.wasCancelled = true) ∧
      p.closed = true ∧ p.acquireReadLoop token true =
        (p.withOperations (p.activeOperations - 1), .returned none)) := by
  unfold acquireReadLoop
  rw [hSlot]
  simp only
  rcases hAwaited with hWriting | hPublished | ⟨hFree, hCancelled, hClosed⟩
  · by_cases hClosed : p.closed = true
    · refine Or.inr (Or.inr ⟨Or.inl hWriting, hClosed, ?_⟩)
      simp only [hWriting, hClosed, reduceCtorEq, if_false, if_true, true_or]
      exact finish_eq hBusy _
    · refine Or.inl ?_
      simp only [hWriting, hClosed, reduceCtorEq, if_false, if_true, not_true_eq_false, or_self]
  · refine Or.inr (Or.inl ⟨hPublished, ?_⟩)
    rw [if_pos hPublished]
    exact finish_eq (p := p.setSlot _ _) hBusy _
  · refine Or.inr (Or.inr ⟨Or.inr ⟨hFree, hCancelled⟩, hClosed, ?_⟩)
    simp only [hFree, hClosed, reduceCtorEq, if_false, if_true, or_true]
    exact finish_eq hBusy _

namespace FrameExchange

variable {x x' : FrameExchange} {packet : FramePacket} {token : FrameSlotToken}
  {lease : FrameLease} {q : FrameSlotPool}

namespace Delivers

-- ---------------------------------------------------------------------------
-- The two calls that may wait
-- ---------------------------------------------------------------------------

/-- The producer's call, on the pool as it finds it. -/
theorem acquiredWrite (h : Delivers x) (record : FrameRecord)
    (hSlots : q.slots = x.slots.slots) (hPool : q.poolId = x.slots.poolId)
    (hClosed : q.closed = x.slots.closed) (hBusy : q.activeOperations ≠ 0) :
    Delivers (x.acquiredWrite record q.acquireWriteLoop) := by
  rcases FrameSlotPool.acquireWriteLoop_claims hBusy with hBlocked | hClaims
  · rw [hBlocked]
    have hNext := h.withSlots hSlots hPool fun hShut => hClosed.trans hShut
    exact hNext.withProducer rfl
  · have hNext : Delivers { x with slots := q.withOperations (q.activeOperations - 1) } :=
      h.withSlots hSlots hPool fun hShut => hClosed.trans hShut
    cases hResult : q.acquireWriteLoop
    rw [hResult] at hClaims
    cases hClaims with
    | nothing => exact hNext.withProducer rfl
    | threw e => exact hNext.withProducer rfl
    | claimed hOpen hSlot hFree => exact hNext.claimed hSlot hFree hOpen record _

/-- The slot of a packet that the consumer has just received. -/
theorem slotForToken_of_seeks (h : Delivers x) (hPacket : x.consumer.packet = some packet)
    (hSeeks : x.consumer.seeks = true) (hToken : packet.slot = some token) :
    ∃ slot, x.slots.slotForToken token = .ok slot ∧ Awaited x.slots.closed slot := by
  obtain ⟨frame, hTaken, hFrame⟩ := h.taken_of_packet hPacket
  have hMem : frame ∈ x.awaited := by
    unfold awaited
    rw [hSeeks, hTaken]
    exact List.mem_cons_self
  obtain ⟨other, hNamed, slot, hAt, hCurrent, hAwaited⟩ := h.outstanding frame hMem
  obtain ⟨other', hNamed', hGeneration, -⟩ :=
    h.named frame (h.sent_sublist.subset (mem_sent_of_taken hTaken))
  rw [hFrame, hToken] at hNamed hNamed'
  obtain rfl := Option.some.inj hNamed
  obtain rfl := Option.some.inj hNamed'
  refine ⟨slot, FrameSlotPool.slotForToken_eq_ok_iff.mpr ⟨hAt, ?_, hGeneration, ?_⟩, hAwaited⟩
  · exact congrArg FrameSlotToken.poolId hCurrent
  · exact (congrArg FrameSlotToken.generation hCurrent).symm

/-- The consumer's call on the token of its packet. -/
theorem acquiredRead (h : Delivers x) (hTraced : Traced x.slots.poolId x.slots.slots x.history)
    (hPacket : x.consumer.packet = some packet) (hSeeks : x.consumer.seeks = true)
    (hToken : packet.slot = some token) (hSlots : q.slots = x.slots.slots)
    (hPool : q.poolId = x.slots.poolId) (hClosed : q.closed = x.slots.closed)
    (hBusy : q.activeOperations ≠ 0) :
    Delivers (x.acquiredRead packet token (q.acquireReadLoop token true)) := by
  have hFound : q.slotForToken token = x.slots.slotForToken token := by
    unfold FrameSlotPool.slotForToken
    rw [hSlots, hPool]
  obtain ⟨slot, hSlot, hAwaited⟩ := h.slotForToken_of_seeks hPacket hSeeks hToken
  rw [← hFound] at hSlot
  rw [← hClosed] at hAwaited
  have hNext : Delivers { x with slots := q.withOperations (q.activeOperations - 1) } :=
    h.withSlots hSlots hPool fun hShut => hClosed.trans hShut
  have hTracedNext : Traced q.poolId q.slots x.history := by
    rw [hPool, hSlots]
    exact hTraced
  rcases FrameSlotPool.acquireReadLoop_awaited hBusy hSlot hAwaited with
    hBlocked | ⟨hPublished, hGranted⟩ | ⟨hGone, hShut, hNothing⟩
  · rw [hBlocked]
    exact (h.withSlots hSlots hPool fun hShut => hClosed.trans hShut).waits hPacket hSeeks hToken
  · rw [hGranted]
    exact hNext.grants hPacket hToken hSlot hPublished
  · rw [hNothing]
    exact hNext.misses hTracedNext hPacket hToken hSlot hGone hShut

theorem closeSlots (h : Delivers x) : Delivers { x with slots := x.slots.close } :=
  h.withSlots rfl rfl fun _ => rfl

-- ---------------------------------------------------------------------------
-- The producer's steps
-- ---------------------------------------------------------------------------

/-- A lease that one of the two holds can be used, and its slot is in use. -/
theorem usable (h : Delivers x) (hSound : x.view.Sound) {role : Role}
    (hLease : lease ∈ leasesOf x.producer x.consumer role) :
    lease.usable = true ∧ ∃ slot, x.slots.InUse role (x.threads role) lease.token slot := by
  obtain ⟨hActive, hPool⟩ := h.active role lease hLease
  refine ⟨?_, hSound.leased.inUse hLease hActive⟩
  rw [FrameLease.usable, hActive, hPool]
  rfl

theorem usable_producer (h : Delivers x) (hSound : x.view.Sound)
    (hLease : x.producer.lease = some lease) : lease.usable = true ∧
      ∃ slot, x.slots.InUse .producer (x.threads .producer) lease.token slot := by
  have hMem : lease ∈ leasesOf x.producer x.consumer .producer := by
    rw [leasesOf, hLease]
    exact List.mem_cons_self
  exact h.usable hSound hMem

/-- A use of the write lease goes on or throws. -/
theorem useWrite (h : Delivers x) (hSound : x.view.Sound) (hLease : x.producer.lease = some lease)
    {use : FrameSlotToken → Except FrameSlotError FrameSlotPool}
    {next : FrameSlotPool → FrameExchange}
    (hNext : ∀ slots, use lease.token = .ok slots → Delivers (next slots))
    (hThrown : (∀ slots, use lease.token ≠ .ok slots) → x.slots.closed = true ∨
      ∀ frame ∈ x.sent, frame.packet.slot ≠ some lease.token) :
    Delivers (x.useWrite lease use next) := by
  unfold FrameExchange.useWrite FrameLease.withToken
  rw [if_pos (h.usable_producer hSound hLease).1]
  rcases hUse : use lease.token with e | slots
  · refine h.withUnwinding hLease (hThrown fun slots hOk => ?_)
    exact nomatch hUse.symm.trans hOk
  · exact hNext slots hUse

/-- The frame that is being sent is not in the channel yet. -/
theorem not_sent_of_sending (h : Delivers x) {frame : Frame}
    (hProducer : x.producer = .sending frame lease) :
    ∀ other ∈ x.sent, other.packet.slot ≠ some lease.token := by
  intro other hOther hSame
  have hHolds := h.producer
  unfold ProducerHolds at hHolds
  rw [hProducer] at hHolds
  have hOrder := h.inOrder
  rw [hProducer] at hOrder
  have hMem : frame ∈ x.sent ++ [frame] := List.mem_append_right _ List.mem_cons_self
  have hEq : other = frame := h.eq_of_slot (h.sent_sublist.subset hOther) (hOrder.subset hMem)
    (hSame.trans hHolds.1.symm)
  have hNodup := (List.Nodup.of_map _ h.once).sublist hOrder
  exact (List.nodup_append.mp hNodup).2.2 other hOther frame List.mem_cons_self hEq

/-- One section of the producer. -/
theorem stepProducer (h : Delivers x) (hSound : x.view.Sound)
    (hStep : x.stepProducer = some x') : Delivers x' := by
  have hHolds := h.producer
  unfold FrameExchange.stepProducer at hStep
  unfold ProducerHolds at hHolds
  cases hProducer : x.producer with
  | idle => rw [hProducer] at hStep; cases hStep
  | acquiring record =>
    rw [hProducer] at hStep
    obtain rfl := Option.some.inj hStep
    have hBusy : x.slots.activeOperations ≠ 0 := by
      rw [show x.slots.activeOperations = _ from hSound.operations,
        show x.view.writeWaits = x.producer.waits from rfl, hProducer, Nat.add_comm]
      exact Nat.succ_ne_zero _
    exact h.acquiredWrite record rfl rfl rfl hBusy
  | writing record lease =>
    rw [hProducer] at hStep hHolds
    simp only at hStep hHolds
    split at hStep
    · cases hStep
    · obtain rfl := Option.some.inj hStep
      refine h.useWrite hSound (by rw [hProducer]; rfl) (fun slots hOk => ?_) fun _ => ?_
      · obtain ⟨slot, hUse, rfl⟩ := FrameSlotPool.writePayload_eq_ok hOk
        exact h.wrote hProducer hUse
      · exact Or.inr fun frame hFrame => hHolds frame (h.sent_sublist.subset hFrame)
  | sizing record lease =>
    rw [hProducer] at hStep hHolds
    simp only at hStep hHolds
    obtain rfl := Option.some.inj hStep
    refine h.useWrite hSound (by rw [hProducer]; rfl) (fun slots hOk => ?_) fun _ => ?_
    · obtain ⟨slot, hUse, rfl⟩ := FrameSlotPool.setWritePayloadSize_eq_ok hOk
      exact h.sized hProducer hUse rfl rfl
    · exact Or.inr fun frame hFrame => hHolds.1 frame (h.sent_sublist.subset hFrame)
  | sending frame lease =>
    rw [hProducer] at hStep
    simp only at hStep
    obtain ⟨channel, -, ⟨hResult, hCarries⟩ | ⟨e, hResult, -, hCarries⟩ | ⟨hResult, -, hCarries⟩⟩ :=
      h.carries.publish frame.packet <;> rw [hResult] at hStep <;>
      obtain rfl := Option.some.inj hStep
    · rw [← hProducer]
      exact h.withChannel hCarries
    · exact (h.withUnwinding (by rw [hProducer]; rfl)
        (Or.inr (h.not_sent_of_sending hProducer))).withChannel hCarries
    · exact h.sentOff hProducer hCarries
  | sent frame lease =>
    rw [hProducer] at hStep
    obtain rfl := Option.some.inj hStep
    have hLease : x.producer.lease = some lease := by
      rw [hProducer]
      rfl
    refine h.useWrite hSound hLease (fun slots hOk => ?_) fun hThrown => Or.inl ?_
    · obtain ⟨hOpen, slot, hUse, rfl⟩ := FrameSlotPool.publishWrite_eq_ok_iff.mp hOk
      exact h.publishes hProducer hOpen hUse
    · obtain ⟨-, slot, hUse⟩ := h.usable_producer hSound hLease
      by_contra hOpen
      exact hThrown _ (FrameSlotPool.publishWrite_eq_ok_iff.mpr
        ⟨Bool.eq_false_of_not_eq_true hOpen, slot, hUse, rfl⟩)
  | unwinding lease =>
    have hLease : x.producer.lease = some lease := by
      rw [hProducer]
      rfl
    obtain ⟨hUsable, slot, hUse⟩ := h.usable_producer hSound hLease
    rw [hProducer] at hStep
    simp only [FrameLease.giveBack, hUsable, if_true,
      FrameSlotPool.back_eq_ok_iff.mpr ⟨slot, hUse, rfl⟩] at hStep
    obtain rfl := Option.some.inj hStep
    exact h.cancelled hProducer hUse
  | failing =>
    rw [hProducer] at hStep
    obtain rfl := Option.some.inj hStep
    exact (h.withChannel h.carries.close).withProducer rfl
  | failed =>
    rw [hProducer] at hStep
    obtain rfl := Option.some.inj hStep
    exact h.closeSlots.withProducer rfl
  | closing =>
    rw [hProducer] at hStep
    obtain rfl := Option.some.inj hStep
    exact (h.withChannel h.carries.close).withProducer rfl
  | stopped => rw [hProducer] at hStep; cases hStep

-- ---------------------------------------------------------------------------
-- The consumer's steps
-- ---------------------------------------------------------------------------

theorem usable_consumer (h : Delivers x) (hSound : x.view.Sound)
    (hLease : x.consumer.lease = some lease) : lease.usable = true ∧
      ∃ slot, x.slots.InUse .consumer (x.threads .consumer) lease.token slot := by
  have hMem : lease ∈ leasesOf x.producer x.consumer .consumer := by
    rw [leasesOf, hLease]
    exact List.mem_cons_self
  exact h.usable hSound hMem

/-- One section of the consumer. -/
theorem stepConsumer (h : Delivers x) (hSound : x.view.Sound)
    (hTraced : Traced x.slots.poolId x.slots.slots x.history) {checks : Bool}
    (hStep : x.stepConsumer checks = some x') : Delivers x' := by
  have hHolds := h.consumer
  unfold FrameExchange.stepConsumer at hStep
  unfold ConsumerHolds at hHolds
  cases hConsumer : x.consumer with
  | idle =>
    have hTaken : x.taken = none := h.taken_none (by rw [hConsumer]; rfl)
    rw [hConsumer] at hStep
    simp only at hStep
    obtain ⟨channel, -, ⟨hResult, hCarries⟩ | ⟨hResult, -, -, hCarries⟩ |
        ⟨packet, rest, hPackets, hResult, hCarries⟩⟩ := h.carries.consume <;>
      rw [hResult] at hStep <;> obtain rfl := Option.some.inj hStep
    · rw [← hConsumer]
      exact h.withChannel hCarries
    · refine (h.withChannel hCarries).withConsumer hTaken ?_ ?_ <;> cases checks <;> rfl
    · obtain ⟨frame, frames, hQueued, rfl, rfl⟩ := List.map_eq_cons_iff.mp hPackets
      exact h.receives hConsumer hQueued hCarries
  | received packet =>
    have hPacket : x.consumer.packet = some packet := by
      rw [hConsumer]
      rfl
    have hSeeks : x.consumer.seeks = true := by
      rw [hConsumer]
      rfl
    obtain ⟨frame, hTaken, rfl⟩ := h.taken_of_packet hPacket
    obtain ⟨token, hToken, -, -⟩ := h.named frame (h.sent_sublist.subset (mem_sent_of_taken hTaken))
    rw [hConsumer] at hStep
    simp only [hToken] at hStep
    obtain rfl := Option.some.inj hStep
    obtain ⟨slot, hSlot, -⟩ := h.slotForToken_of_seeks hPacket hSeeks hToken
    rcases FrameSlotPool.acquireReadImpl_eq (hSound.leased.admits .consumer) token true with
      ⟨e, hError, -⟩ | ⟨-, hLoop⟩
    · cases hError.symm.trans hSlot
    · rw [show x.slots.acquireRead (x.threads .consumer) token = _ from hLoop]
      exact h.acquiredRead hTraced hPacket hSeeks hToken rfl rfl rfl (Nat.succ_ne_zero _)
  | waiting packet token =>
    have hBusy : x.slots.activeOperations ≠ 0 := by
      rw [show x.slots.activeOperations = _ from hSound.operations,
        show x.view.readWaits = x.consumer.waitsFor from rfl, hConsumer]
      exact Nat.succ_ne_zero _
    rw [hConsumer] at hStep hHolds
    obtain rfl := Option.some.inj hStep
    exact h.acquiredRead hTraced (by rw [hConsumer]; rfl) (by rw [hConsumer]; rfl) hHolds rfl rfl rfl
      hBusy
  | reading packet lease =>
    have hLease : x.consumer.lease = some lease := by
      rw [hConsumer]
      rfl
    obtain ⟨hUsable, slot, hUse⟩ := h.usable_consumer hSound hLease
    have hRead : lease.withToken "read lease is not active"
        (x.slots.readPayload (x.threads .consumer)) = .ok (slot.payload.take slot.payloadSize) := by
      unfold FrameLease.withToken FrameSlotPool.readPayload
      rw [if_pos hUsable, FrameSlotPool.heldSlot_eq_ok_iff.mpr hUse]
      rfl
    rw [hConsumer] at hStep
    simp only [hRead] at hStep
    obtain rfl := Option.some.inj hStep
    exact h.readsFrame hTraced hConsumer hUse checks
  | releasing lease checked =>
    have hLease : x.consumer.lease = some lease := by
      rw [hConsumer]
      rfl
    obtain ⟨hUsable, slot, hUse⟩ := h.usable_consumer hSound hLease
    rw [hConsumer] at hStep
    simp only [FrameLease.giveBack, hUsable, if_true,
      FrameSlotPool.back_eq_ok_iff.mpr ⟨slot, hUse, rfl⟩] at hStep
    obtain rfl := Option.some.inj hStep
    exact h.releases hConsumer hUse
  | failing =>
    have hTaken : x.taken = none := h.taken_none (by rw [hConsumer]; rfl)
    rw [hConsumer] at hStep
    obtain rfl := Option.some.inj hStep
    exact (h.withChannel h.carries.close).withConsumer hTaken rfl rfl
  | failed =>
    have hTaken : x.taken = none := h.taken_none (by rw [hConsumer]; rfl)
    rw [hConsumer] at hStep
    obtain rfl := Option.some.inj hStep
    exact h.closeSlots.withConsumer hTaken rfl rfl
  | stopped => rw [hConsumer] at hStep; cases hStep

/-- Every step keeps the frames. -/
theorem step (h : Delivers x) (hSound : x.view.Sound)
    (hTraced : Traced x.slots.poolId x.slots.slots x.history) {move : Move}
    (hStep : x.step move = some x') : Delivers x' := by
  unfold FrameExchange.step at hStep
  have hRunning : x.terminated = false := hSound.running
  rw [if_neg (by rw [hRunning]; decide)] at hStep
  cases move with
  | produce record =>
    simp only at hStep
    split at hStep
    · rename_i hIdle
      obtain rfl := Option.some.inj hStep
      have hAdmits : x.slots.Admits .producer (x.threads .producer) :=
        hSound.leased.admits .producer
      rw [FrameSlotPool.acquireWrite_eq hAdmits]
      exact h.acquiredWrite record rfl rfl rfl (Nat.succ_ne_zero _)
    · exact nomatch hStep
  | stop =>
    simp only at hStep
    split at hStep
    · obtain rfl := Option.some.inj hStep
      exact h.withProducer rfl
    · exact nomatch hStep
  | producer => exact h.stepProducer hSound hStep
  | consumer checks => exact h.stepConsumer hSound hTraced hStep
  | closeChannel =>
    obtain rfl := Option.some.inj hStep
    exact h.withChannel h.carries.close
  | closeSlots =>
    obtain rfl := Option.some.inj hStep
    exact h.closeSlots

end Delivers

-- ---------------------------------------------------------------------------
-- Runs
-- ---------------------------------------------------------------------------

section Run

variable {slotCount payloadCapacity poolId capacity : Nat} {threads : Role → ThreadId}
  {moves : List Move}

theorem run_eq_some
    (h : FrameExchange.run slotCount payloadCapacity poolId capacity threads moves = some x) :
    ∃ slots channel, FrameSlotPool.create slotCount payloadCapacity poolId = .ok slots ∧
      FramePacketChannel.create capacity = .ok channel ∧
      runEvents FrameExchange.step { slots, channel, threads } moves = some x := by
  obtain ⟨slots, hSlots, hRest⟩ := Option.bind_eq_some_iff.mp h
  obtain ⟨channel, hChannel, hRun⟩ := Option.bind_eq_some_iff.mp hRest
  exact ⟨slots, channel, eq_ok_of_toOption hSlots, eq_ok_of_toOption hChannel, hRun⟩

/-- No lease, no waiting thread. -/
theorem view_start {slots : FrameSlotPool} {channel : FramePacketChannel} :
    view { slots, channel, threads } = { pool := slots, threads } := by
  have hLeases : leasesOf .idle .idle = fun _ => [] := by
    funext role
    cases role <;> rfl
  simp only [view, hLeases]
  rfl

theorem delivers_start {slots : FrameSlotPool} {channel : FramePacketChannel}
    (hChannel : FramePacketChannel.create capacity = .ok channel) :
    Delivers { slots, channel, threads } := by
  refine ⟨fun role => ?_, Carries.create hChannel, List.Sublist.refl _, List.nodup_nil, nofun,
    trivial, nofun, rfl, trivial, List.Sublist.refl _, nofun, nofun, nofun, nofun, rfl⟩
  cases role <;> exact nofun

theorem delivers_of_run
    (h : FrameExchange.run slotCount payloadCapacity poolId capacity threads moves = some x) :
    x.view.Sound ∧ x.view.Traced ∧ Delivers x := by
  obtain ⟨slots, channel, hSlots, hChannel, hRun⟩ := run_eq_some h
  refine runEvents_invariant (I := fun x => x.view.Sound ∧ x.view.Traced ∧ Delivers x)
    (fun {x _ next} hAll hStep => ?_) ⟨?_, ?_, delivers_start hChannel⟩ hRun
  · obtain ⟨hSound, hTraced, hDelivers⟩ := hAll
    obtain ⟨actions, hView⟩ := step_view hSound hStep
    obtain ⟨hSound', hTraced'⟩ := hSound.traced_runEvents hTraced hView
    exact ⟨hSound', hTraced', hDelivers.step hSound hTraced hStep⟩
  · rw [view_start]
    exact sound_start hSlots
  · rw [view_start]
    exact traced_start hSlots

/-- A frame that was published has been read, unless its packet is still on its way. -/
theorem Delivers.read_or_underway (h : Delivers x) {e : PublishedFrame}
    (he : e ∈ x.history.published) : ∃ frame ∈ x.produced, frame.packet.slot = some e.token ∧
      e.payload.take e.payloadSize = frame.payload ∧
      (frame ∈ x.reads ∨ x.taken = some frame ∨ frame ∈ x.queued) := by
  obtain ⟨frame, hSent, hSlot, hPayload⟩ := h.published e he
  refine ⟨frame, h.sent_sublist.subset hSent, hSlot, hPayload, ?_⟩
  rcases List.mem_append.mp hSent with hBefore | hQueued
  · rcases List.mem_append.mp hBefore with hConsumed | hTaken
    · exact Or.inl (h.kept frame hConsumed e he hSlot)
    · exact Or.inr (Or.inl (Option.mem_toList.mp hTaken))
  · exact Or.inr (Or.inr hQueued)

/-- With nothing under way, no slot is published: its frame would have been read. -/
theorem Delivers.not_published (h : Delivers x) (hTraced : x.view.Traced)
    (hQueued : x.queued = []) (hTaken : x.taken = none) {id : Nat} {slot : SlotStorage}
    (hSlot : x.slots.slots[id]? = some slot) : slot.state ≠ .published := by
  intro hPublished
  obtain ⟨e, he, hToken⟩ := hTraced.shown id slot hSlot (Or.inl hPublished)
  obtain ⟨frame, -, hNamed, -, hRead | hHand | hWaits⟩ := h.read_or_underway he
  · obtain ⟨token, hGranted, hSame⟩ := h.granted frame hRead
    have hSpent := hTraced.spent token (List.mem_append_left _ hGranted)
    rw [Option.some.inj (hSame.symm.trans hNamed), hToken] at hSpent
    have hState := hSpent.current hSlot
    rw [hPublished] at hState
    exact hState.elim nofun nofun
  · exact nomatch hTaken.symm.trans hHand
  · rw [hQueued] at hWaits
    exact nomatch hWaits

/-- Without a lease of the role, no slot is in its state. -/
theorem not_held (hSound : x.view.Sound) (role : Role)
    (hNone : leasesOf x.producer x.consumer role = []) {id : Nat} {slot : SlotStorage}
    (hSlot : x.slots.slots[id]? = some slot) : slot.state ≠ role.holds := by
  intro hState
  have hMem : x.slots.tokenOf id slot ∈ x.slots.held role.holds :=
    FrameSlotPool.mem_held.mpr ⟨slot, hSlot, hState, rfl⟩
  have hTokens : live (leasesOf x.producer x.consumer role) = x.slots.held role.holds :=
    hSound.leased.tokens role
  rw [← hTokens, hNone] at hMem
  exact absurd hMem (Multiset.notMem_zero _)

/-- In every state of every run, what the consumer has read is, in order and each at most
once, what was written for the packets; `AcquireRead` has not thrown; a frame that was
published has been read or its packet is not consumed yet; and when the producer has
stopped and the consumer is through with all packets, the pool is quiescent. -/
theorem frames_of_run
    (h : FrameExchange.run slotCount payloadCapacity poolId capacity threads moves = some x) :
    x.reads.Sublist x.produced ∧ (x.reads.map fun frame => frame.packet.slot).Nodup ∧
    x.readErrors = [] ∧
    (∀ e ∈ x.history.published, ∃ frame ∈ x.produced, frame.packet.slot = some e.token ∧
      e.payload.take e.payloadSize = frame.payload ∧
      (frame ∈ x.reads ∨ x.taken = some frame ∨ frame ∈ x.queued)) ∧
    (x.producer = .stopped → x.queued = [] → x.consumer.packet = none →
      x.consumer.lease = none → x.slots.isQuiescent = true) ∧
    x.terminated = false := by
  obtain ⟨hSound, hTraced, hDelivers⟩ := delivers_of_run h
  have hReads : x.reads.Sublist x.produced := by
    refine hDelivers.readInOrder.trans (List.Sublist.trans ?_ hDelivers.sent_sublist)
    unfold sent
    rw [List.append_assoc]
    exact List.sublist_append_left _ _
  refine ⟨hReads, hDelivers.once.sublist (hReads.map _), hDelivers.noErrors,
    fun e he => hDelivers.read_or_underway he, fun hStopped hQueued hPacket hLease => ?_,
    hSound.running⟩
  have hTaken := hDelivers.taken_none hPacket
  refine decide_eq_true ⟨?_, fun slot hSlot => ?_⟩
  · have hRead : x.consumer.waitsFor = none := by
      cases hConsumer : x.consumer <;> rw [hConsumer] at hPacket <;>
        first | rfl | exact nomatch hPacket
    have hOperations := hSound.operations
    rw [show x.view.writeWaits = x.producer.waits from rfl,
      show x.view.readWaits = x.consumer.waitsFor from rfl, hStopped, hRead] at hOperations
    exact hOperations
  · obtain ⟨id, hAt⟩ := List.mem_iff_getElem?.mp hSlot
    have hWriting := not_held hSound .producer (by rw [hStopped]; rfl) hAt
    have hReading := not_held hSound .consumer (by rw [leasesOf, hLease]; rfl) hAt
    have hPublished := hDelivers.not_published hTraced hQueued hTaken hAt
    cases hState : slot.state with
    | free => rfl
    | writing => exact absurd hState hWriting
    | published => exact absurd hState hPublished
    | reading => exact absurd hState hReading

/-- Two frames over one slot. The consumer asks for the first before it is published, and
the pool is closed before it takes the second. -/
def twoFrameMoves : List Move :=
  [.produce ⟨1, 11, [7, 8]⟩, .producer, .producer, .producer, .consumer true, .consumer true,
    .producer, .consumer true, .consumer true, .consumer true,
    .produce ⟨2, 12, [9]⟩, .producer, .producer, .producer, .producer, .closeSlots,
    .consumer true, .consumer true, .consumer true, .consumer true, .stop, .producer,
    .consumer true]

theorem frames_of_run_twoFrameMoves : ∃ x,
    FrameExchange.run 1 4 1 1 (fun role => if role = .producer then 10 else 20) twoFrameMoves =
      some x ∧
    x.reads = [⟨⟨1, 11, some ⟨0, 1, 1⟩⟩, [7, 8]⟩, ⟨⟨2, 12, some ⟨0, 2, 1⟩⟩, [9]⟩] ∧
    x.reads.Sublist x.produced ∧ x.readErrors = [] ∧ x.slots.closed = true ∧
    x.slots.isQuiescent = true := by
  obtain ⟨x, hRun, hReads, hClosed, hProducer, hQueued, hConsumer⟩ : ∃ x,
      FrameExchange.run 1 4 1 1 (fun role => if role = .producer then 10 else 20) twoFrameMoves =
        some x ∧
      x.reads = [⟨⟨1, 11, some ⟨0, 1, 1⟩⟩, [7, 8]⟩, ⟨⟨2, 12, some ⟨0, 2, 1⟩⟩, [9]⟩] ∧
      x.slots.closed = true ∧ x.producer = .stopped ∧ x.queued = [] ∧ x.consumer = .stopped :=
    ⟨_, rfl, rfl, rfl, rfl, rfl, rfl⟩
  obtain ⟨hSublist, -, hErrors, -, hQuiescent, -⟩ := frames_of_run hRun
  refine ⟨x, hRun, hReads, hSublist, hErrors, hClosed, hQuiescent hProducer hQueued ?_ ?_⟩
  · rw [hConsumer]
    rfl
  · rw [hConsumer]
    rfl

end Run

end FrameExchange

end Ithax.Threading
