import Ithax.Threading.HandOff

/-!
# Delivery

The tokens in the channel stay current until the consumer has them, so the consumer
reads every frame that was published and sent, in order and with the payload that was
written.

## Results

* `Delivers.publishes`   — a frame is published while the consumer may have its packet.
* `Delivers.readsFrame`  — what is read is what was written.
* `Delivers.misses`      — a packet is given up only for a frame that was never published.
-/

namespace Ithax.Threading

open Ithax.Lib

/-- The frame that the producer has made and not sent. -/
def Producer.unsent : Producer → List Frame
  | sending frame _ => [frame]
  | _ => []

/-- The packet in the consumer's hand. -/
def Consumer.packet : Consumer → Option FramePacket
  | received packet | waiting packet _ | reading packet _ => some packet
  | _ => none

/-- The consumer has a packet and not yet its slot. -/
def Consumer.seeks : Consumer → Bool
  | received _ | waiting _ _ => true
  | _ => false

/-- A slot whose token the consumer may ask for: the frame is being written, or there, or
was cancelled in a pool that is closed. -/
def Awaited (closed : Bool) (slot : SlotStorage) : Prop :=
  slot.state = .writing ∨ slot.state = .published ∨
    slot.state = .free ∧ slot.wasCancelled = true ∧ closed = true

namespace FrameExchange

variable {x x' : FrameExchange} {token : FrameSlotToken} {P : SlotStorage → Prop}

def At (x : FrameExchange) (token : FrameSlotToken) (P : SlotStorage → Prop) : Prop :=
  Current x.slots.poolId x.slots.slots token P

/-- The frames that were sent, in order. -/
def sent (x : FrameExchange) : List Frame := x.consumed ++ x.taken.toList ++ x.queued

/-- The frames that the consumer has not found its way to. -/
def awaited (x : FrameExchange) : List Frame :=
  (if x.consumer.seeks then x.taken.toList else []) ++ x.queued

/-- What the producer's lease is on. -/
def ProducerHolds (x : FrameExchange) : Prop :=
  match x.producer with
  | .writing _ lease => ∀ frame ∈ x.produced, frame.packet.slot ≠ some lease.token
  | .sizing record lease => (∀ frame ∈ x.produced, frame.packet.slot ≠ some lease.token) ∧
      x.At lease.token fun slot =>
        slot.state = .writing ∧ slot.payload.take record.bytes.length = record.bytes
  | .sending frame lease => frame.packet.slot = some lease.token ∧
      x.At lease.token fun slot =>
        slot.state = .writing ∧ slot.payload.take slot.payloadSize = frame.payload
  | .sent frame lease => frame.packet.slot = some lease.token ∧ frame ∈ x.sent ∧
      x.At lease.token fun slot =>
        slot.state = .writing ∧ slot.payload.take slot.payloadSize = frame.payload
  | .unwinding lease =>
    x.slots.closed = true ∨ ∀ frame ∈ x.sent, frame.packet.slot ≠ some lease.token
  | _ => True

/-- What the consumer's packet says. -/
def ConsumerHolds (x : FrameExchange) : Prop :=
  match x.consumer with
  | .waiting packet token => packet.slot = some token
  | .reading packet lease => packet.slot = some lease.token ∧ lease.token ∈ x.history.granted
  | _ => True

structure Delivers (x : FrameExchange) : Prop where
  active : ∀ role, ∀ lease ∈ leasesOf x.producer x.consumer role,
    lease.active = true ∧ lease.pool = true
  carries : Carries x.channel x.threads (x.queued.map Frame.packet)
  inOrder : (x.sent ++ x.producer.unsent).Sublist x.produced
  once : (x.produced.map fun frame => frame.packet.slot).Nodup
  named : ∀ frame ∈ x.produced, ∃ token, frame.packet.slot = some token ∧
    token.generation ≠ 0 ∧ Past x.slots.poolId x.slots.slots token fun _ => True
  producer : x.ProducerHolds
  published : ∀ e ∈ x.history.published, ∃ frame ∈ x.sent,
    frame.packet.slot = some e.token ∧ e.payload.take e.payloadSize = frame.payload
  inHand : x.taken.map Frame.packet = x.consumer.packet
  consumer : x.ConsumerHolds
  readInOrder : x.reads.Sublist x.consumed
  granted : ∀ frame ∈ x.reads, ∃ token ∈ x.history.granted, frame.packet.slot = some token
  outstanding : ∀ frame ∈ x.awaited, ∃ token, frame.packet.slot = some token ∧
    x.At token (Awaited x.slots.closed)
  dropped : ∀ frame ∈ x.consumed, frame ∈ x.reads ∨ x.slots.closed = true
  kept : ∀ frame ∈ x.consumed, ∀ e ∈ x.history.published, frame.packet.slot = some e.token →
    frame ∈ x.reads
  noErrors : x.readErrors = []

namespace Delivers

theorem sent_sublist (h : Delivers x) : x.sent.Sublist x.produced :=
  (List.sublist_append_left _ _).trans h.inOrder

/-- A token names one frame. -/
theorem eq_of_slot (h : Delivers x) {f g : Frame} (hf : f ∈ x.produced) (hg : g ∈ x.produced)
    (hSlot : f.packet.slot = g.packet.slot) : f = g :=
  List.inj_on_of_nodup_map h.once hf hg hSlot

theorem taken_of_packet (h : Delivers x) {packet : FramePacket}
    (hPacket : x.consumer.packet = some packet) :
    ∃ frame, x.taken = some frame ∧ frame.packet = packet := by
  have hTaken := h.inHand
  rw [hPacket] at hTaken
  exact Option.map_eq_some_iff.mp hTaken

theorem taken_none (h : Delivers x) (hPacket : x.consumer.packet = none) : x.taken = none := by
  have hTaken := h.inHand
  rw [hPacket] at hTaken
  exact Option.map_eq_none_iff.mp hTaken

-- ---------------------------------------------------------------------------
-- What may change on its own
-- ---------------------------------------------------------------------------

theorem awaited_mono {closed closed' : Bool} (h : closed = true → closed' = true)
    {slot : SlotStorage} (hAwaited : Awaited closed slot) : Awaited closed' slot :=
  hAwaited.imp_right fun hRest => hRest.imp_right fun ⟨hFree, hCancelled, hClosed⟩ =>
    ⟨hFree, hCancelled, h hClosed⟩

/-- The pool changes, but for its slots. -/
theorem withSlots (h : Delivers x) {slots : FrameSlotPool} (hSlots : slots.slots = x.slots.slots)
    (hPool : slots.poolId = x.slots.poolId) (hClosed : x.slots.closed = true → slots.closed = true) :
    Delivers { x with slots } := by
  have hAt : ∀ {token P}, x.At token P → ({ x with slots } : FrameExchange).At token P := by
    intro token P hAt
    show Current slots.poolId slots.slots token P
    rw [hSlots, hPool]
    exact hAt
  refine { h with named := ?_, producer := ?_, outstanding := ?_, dropped := ?_ }
  · show ∀ frame ∈ x.produced, ∃ token, _ ∧ _ ∧ Past slots.poolId slots.slots token _
    rw [hSlots, hPool]
    exact h.named
  · have hHolds := h.producer
    unfold ProducerHolds at hHolds ⊢
    cases hProducer : x.producer <;> rw [hProducer] at hHolds <;> simp only at hHolds ⊢
    · exact hHolds
    · exact ⟨hHolds.1, hAt hHolds.2⟩
    · exact ⟨hHolds.1, hAt hHolds.2⟩
    · exact ⟨hHolds.1, hHolds.2.1, hAt hHolds.2.2⟩
    · exact hHolds.imp_left hClosed
  · intro frame hFrame
    obtain ⟨token, hToken, found, hFound, hCurrent, hAwaited⟩ := h.outstanding frame hFrame
    exact ⟨token, hToken, hAt ⟨found, hFound, hCurrent, awaited_mono hClosed hAwaited⟩⟩
  · exact fun frame hFrame => (h.dropped frame hFrame).imp_right hClosed

theorem withChannel (h : Delivers x) {channel : FramePacketChannel}
    (hCarries : Carries channel x.threads (x.queued.map Frame.packet)) :
    Delivers { x with channel } :=
  { h with carries := hCarries }

/-- The producer goes on without a lease. -/
theorem withProducer (h : Delivers x) {producer : Producer} (hLease : producer.lease = none) :
    Delivers { x with producer } := by
  have hUnsent : producer.unsent = [] := by
    cases producer <;> first | rfl | exact nomatch hLease
  refine { h with active := ?_, inOrder := ?_, producer := ?_ }
  · intro role
    cases role with
    | producer =>
      show ∀ lease ∈ producer.lease.toList, _
      rw [hLease]
      exact nofun
    | consumer => exact h.active .consumer
  · show (x.sent ++ producer.unsent).Sublist x.produced
    rw [hUnsent, List.append_nil]
    exact h.sent_sublist
  · cases producer <;> trivial

/-- An exception leaves the block that holds the lease. -/
theorem withUnwinding (h : Delivers x) {lease : FrameLease} (hLease : x.producer.lease = some lease)
    (hSafe : x.slots.closed = true ∨ ∀ frame ∈ x.sent, frame.packet.slot ≠ some lease.token) :
    Delivers { x with producer := .unwinding lease } := by
  refine { h with active := ?_, inOrder := ?_, producer := hSafe }
  · intro role
    cases role with
    | producer =>
      have hActive := h.active .producer
      rw [leasesOf, hLease] at hActive
      exact hActive
    | consumer => exact h.active .consumer
  · show (x.sent ++ []).Sublist x.produced
    rw [List.append_nil]
    exact h.sent_sublist

/-- The consumer goes on without a packet and without a lease. -/
theorem withConsumer (h : Delivers x) {consumer : Consumer} (hTaken : x.taken = none)
    (hLease : consumer.lease = none) (hPacket : consumer.packet = none) :
    Delivers { x with consumer } := by
  have hSeeks : consumer.seeks = false := by
    cases consumer <;> first | rfl | exact nomatch hPacket
  refine { h with active := ?_, inHand := ?_, consumer := ?_, outstanding := ?_ }
  · intro role
    cases role with
    | producer => exact h.active .producer
    | consumer =>
      show ∀ lease ∈ consumer.lease.toList, _
      rw [hLease]
      exact nofun
  · show x.taken.map Frame.packet = consumer.packet
    rw [hTaken, hPacket]
    rfl
  · cases consumer <;> trivial
  · intro frame hFrame
    refine h.outstanding frame (List.mem_append_right _ ?_)
    unfold awaited at hFrame
    simpa only [hSeeks, Bool.false_eq_true, if_false, List.nil_append] using hFrame

-- ---------------------------------------------------------------------------
-- One slot changes
-- ---------------------------------------------------------------------------

variable {id : Nat} {slot next : SlotStorage}

theorem named_set (h : Delivers x) (hSlot : x.slots.slots[id]? = some slot)
    (hGeneration : slot.generation ≤ next.generation) :
    ∀ frame ∈ x.produced, ∃ token, frame.packet.slot = some token ∧
      token.generation ≠ 0 ∧
        Past x.slots.poolId (x.slots.slots.set id next) token fun _ => True := by
  intro frame hFrame
  obtain ⟨token, hToken, hGenerated, hPast⟩ := h.named frame hFrame
  refine ⟨token, hToken, hGenerated, hPast.set hSlot ?_⟩
  rcases Nat.lt_or_eq_of_le hGeneration with hNewer | hSame
  · exact Or.inl hNewer
  · exact Or.inr ⟨hSame.symm, fun hTrue => hTrue⟩

theorem awaited_set (h : Delivers x) (hSlot : x.slots.slots[id]? = some slot)
    {frames : List Frame} (hFrames : ∀ frame ∈ frames, frame ∈ x.awaited)
    (hNext : ∀ frame ∈ frames, frame.packet.slot = some (slotToken x.slots.poolId id slot) →
      Awaited x.slots.closed slot → next.generation = slot.generation ∧
        Awaited x.slots.closed next) :
    ∀ frame ∈ frames, ∃ token, frame.packet.slot = some token ∧
      Current x.slots.poolId (x.slots.slots.set id next) token (Awaited x.slots.closed) := by
  intro frame hFrame
  obtain ⟨token, hToken, hCurrent⟩ := h.outstanding frame (hFrames frame hFrame)
  refine ⟨token, hToken, hCurrent.set hSlot fun hEq hAwaited => ?_⟩
  exact hNext frame hFrame (hEq ▸ hToken) hAwaited

/-- The producer's lease is on a slot that is being written, so it does not see the others. -/
theorem holds_set (h : Delivers x) (hSlot : x.slots.slots[id]? = some slot)
    (hOther : slot.state ≠ .writing) (hSent : ∀ frame, frame ∈ x'.sent ↔ frame ∈ x.sent)
    (hProducer : x'.producer = x.producer) (hProduced : x'.produced = x.produced)
    (hSlots : x'.slots = x.slots.setSlot id next) : x'.ProducerHolds := by
  have hAt : ∀ {token} {P : SlotStorage → Prop},
      (x.At token fun slot => slot.state = .writing ∧ P slot) →
      x'.At token fun slot => slot.state = .writing ∧ P slot := by
    intro token P hAt
    unfold At at hAt ⊢
    rw [hSlots]
    exact hAt.set hSlot fun _ hHeld => absurd hHeld.1 hOther
  have hClosed : x'.slots.closed = x.slots.closed := by
    rw [hSlots]
    rfl
  have hHolds := h.producer
  unfold ProducerHolds at hHolds ⊢
  rw [hProducer, hProduced]
  cases hCase : x.producer <;> rw [hCase] at hHolds <;> simp only at hHolds ⊢
  · exact hHolds
  · exact ⟨hHolds.1, hAt hHolds.2⟩
  · exact ⟨hHolds.1, hAt hHolds.2⟩
  · exact ⟨hHolds.1, (hSent _).mpr hHolds.2.1, hAt hHolds.2.2⟩
  · rw [hClosed]
    exact hHolds.imp_right fun hNone frame hFrame => hNone frame ((hSent frame).mp hFrame)

theorem mem_sent_of_awaited {frame : Frame} (h : frame ∈ x.awaited) : frame ∈ x.sent := by
  unfold awaited at h
  unfold sent
  rcases List.mem_append.mp h with hTaken | hQueued
  · split at hTaken
    · exact List.mem_append_left _ (List.mem_append_right _ hTaken)
    · exact absurd hTaken List.not_mem_nil
  · exact List.mem_append_right _ hQueued

/-- The leases after the producer has changed its place. -/
theorem active_producer (h : Delivers x) {producer : Producer} {lease : FrameLease}
    (hLease : producer.lease = some lease) (hActive : lease.active = true ∧ lease.pool = true) :
    ∀ role, ∀ lease ∈ leasesOf producer x.consumer role,
      lease.active = true ∧ lease.pool = true := by
  intro role
  cases role with
  | producer =>
    intro other hOther
    rw [leasesOf, hLease, Option.toList_some, List.mem_singleton] at hOther
    rw [hOther]
    exact hActive
  | consumer => exact h.active .consumer

theorem active_of_lease (h : Delivers x) {lease : FrameLease}
    (hLease : x.producer.lease = some lease) : lease.active = true ∧ lease.pool = true := by
  refine h.active .producer lease ?_
  rw [leasesOf, hLease]
  exact List.mem_cons_self

-- ---------------------------------------------------------------------------
-- The producer
-- ---------------------------------------------------------------------------

theorem claimed (h : Delivers x) (hSlot : x.slots.slots[id]? = some slot)
    (hFree : slot.state = .free) (hOpen : x.slots.closed = false) (record : FrameRecord)
    (issued : List FrameSlotToken) :
    Delivers { x with
      slots := x.slots.setSlot id slot.claimed
      producer := .writing record
        { pool := true, token := x.slots.tokenOf id slot.claimed, active := true }
      history := { x.history with issued } } := by
  have hIdle : Delivers { x with producer := .failing } := h.withProducer rfl
  refine { hIdle with active := ?_, named := ?_, producer := ?_, outstanding := ?_ }
  · exact h.active_producer rfl ⟨rfl, rfl⟩
  · exact h.named_set hSlot (Nat.le_succ _)
  · intro frame hFrame hToken
    obtain ⟨token, hNamed, -, hPast⟩ := h.named frame hFrame
    obtain rfl := Option.some.inj (hNamed.symm.trans hToken)
    exact hPast.not_claimed hSlot
  · refine h.awaited_set hSlot (fun _ hFrame => hFrame) fun frame _ _ hAwaited => ?_
    rw [hOpen] at hAwaited
    rcases hAwaited with hNo | hNo | ⟨-, -, hNo⟩
    · exact nomatch hFree.symm.trans hNo
    · exact nomatch hFree.symm.trans hNo
    · exact nomatch hNo

theorem wrote (h : Delivers x) {record : FrameRecord} {lease : FrameLease}
    (hProducer : x.producer = .writing record lease) {thread : ThreadId}
    (hUse : x.slots.InUse .producer thread lease.token slot) :
    Delivers { x with
      slots := x.slots.setSlot lease.token.slotId
        { slot with payload := FrameSlotPool.copyBytes 0 record.bytes slot.payload }
      producer := .sizing record lease } := by
  have hAt := (FrameSlotPool.slotForToken_eq_ok_iff.mp hUse.2.1).1
  obtain ⟨hLt, -⟩ := List.getElem?_eq_some_iff.mp hAt
  have hHolds : ∀ frame ∈ x.produced, frame.packet.slot ≠ some lease.token := by
    have hHolds := h.producer
    unfold ProducerHolds at hHolds
    rw [hProducer] at hHolds
    exact hHolds
  have hSome : x.producer.lease = some lease := by
    rw [hProducer]
    rfl
  have hActive := h.active_of_lease hSome
  refine { h with active := ?_, inOrder := ?_, named := ?_, producer := ?_, outstanding := ?_ }
  · exact h.active_producer rfl hActive
  · show (x.sent ++ []).Sublist x.produced
    rw [List.append_nil]
    exact h.sent_sublist
  · exact h.named_set hAt (Nat.le_refl _)
  · have hToken := FrameSlotPool.eq_tokenOf hUse.2.1
    refine ⟨hHolds, _, List.getElem?_set_self hLt, hToken, hUse.2.2, ?_⟩
    show (FrameSlotPool.copyBytes 0 record.bytes slot.payload).take record.bytes.length = _
    unfold FrameSlotPool.copyBytes
    rw [List.take_zero, List.nil_append, List.take_left]
  · exact h.awaited_set hAt (fun _ hFrame => hFrame) fun _ _ _ _ => ⟨rfl, Or.inl hUse.2.2⟩

theorem sized (h : Delivers x) {record : FrameRecord} {lease : FrameLease}
    (hProducer : x.producer = .sizing record lease) {thread : ThreadId}
    (hUse : x.slots.InUse .producer thread lease.token slot) {frame : Frame}
    (hSlot : frame.packet.slot = some lease.token) (hPayload : frame.payload = record.bytes) :
    Delivers { x with
      slots := x.slots.setSlot lease.token.slotId { slot with payloadSize := record.bytes.length }
      producer := .sending frame lease
      produced := x.produced ++ [frame] } := by
  have hAt := (FrameSlotPool.slotForToken_eq_ok_iff.mp hUse.2.1).1
  have hToken := FrameSlotPool.eq_tokenOf hUse.2.1
  obtain ⟨hLt, -⟩ := List.getElem?_eq_some_iff.mp hAt
  obtain ⟨hFresh, found, hFound, -, -, hStored⟩ : (∀ frame ∈ x.produced,
      frame.packet.slot ≠ some lease.token) ∧ x.At lease.token fun slot =>
        slot.state = .writing ∧ slot.payload.take record.bytes.length = record.bytes := by
    have hHolds := h.producer
    unfold ProducerHolds at hHolds
    rw [hProducer] at hHolds
    exact hHolds
  obtain rfl := Option.some.inj (hAt.symm.trans hFound)
  have hSome : x.producer.lease = some lease := by
    rw [hProducer]
    rfl
  have hActive := h.active_of_lease hSome
  refine { h with
    active := ?_, inOrder := ?_, once := ?_, named := ?_, producer := ?_, outstanding := ?_ }
  · exact h.active_producer rfl hActive
  · exact h.sent_sublist.append (List.Sublist.refl _)
  · rw [List.map_append]
    refine List.nodup_append.mpr ⟨h.once, List.nodup_singleton _, ?_⟩
    intro old hOld new hNew hEq
    obtain ⟨other, hOther, rfl⟩ := List.mem_map.mp hOld
    rw [List.mem_singleton.mp hNew] at hEq
    exact hFresh other hOther (hEq.trans hSlot)
  · have hGenerated := (FrameSlotPool.slotForToken_eq_ok_iff.mp hUse.2.1).2.2.1
    refine forall_mem_append_one ⟨lease.token, hSlot, hGenerated, ?_⟩
      (h.named_set hAt (Nat.le_refl _))
    exact ⟨_, List.getElem?_set_self hLt, Or.inr ⟨hToken, trivial⟩⟩
  · refine ⟨hSlot, _, List.getElem?_set_self hLt, hToken, hUse.2.2, ?_⟩
    rw [hPayload]
    exact hStored
  · exact h.awaited_set hAt (fun _ hFrame => hFrame) fun _ _ _ _ => ⟨rfl, Or.inl hUse.2.2⟩

/-- The packet goes into the channel. -/
theorem sentOff (h : Delivers x) {frame : Frame} {lease : FrameLease}
    (hProducer : x.producer = .sending frame lease) {channel : FramePacketChannel}
    (hCarries : Carries channel x.threads (x.queued.map Frame.packet ++ [frame.packet])) :
    Delivers { x with channel, producer := .sent frame lease, queued := x.queued ++ [frame] } := by
  obtain ⟨hSlot, hAt⟩ : frame.packet.slot = some lease.token ∧ x.At lease.token fun slot =>
      slot.state = .writing ∧ slot.payload.take slot.payloadSize = frame.payload := by
    have hHolds := h.producer
    unfold ProducerHolds at hHolds
    rw [hProducer] at hHolds
    exact hHolds
  have hSome : x.producer.lease = some lease := by
    rw [hProducer]
    rfl
  have hActive := h.active_of_lease hSome
  have hSent : ({ x with channel, producer := .sent frame lease, queued := x.queued ++ [frame] } :
      FrameExchange).sent = x.sent ++ [frame] := (List.append_assoc _ _ _).symm
  have hAwaited : ({ x with channel, producer := .sent frame lease, queued := x.queued ++ [frame] } :
      FrameExchange).awaited = x.awaited ++ [frame] := (List.append_assoc _ _ _).symm
  refine { h with
    active := ?_, carries := ?_, inOrder := ?_, producer := ?_, published := ?_, outstanding := ?_ }
  · exact h.active_producer rfl hActive
  · rw [List.map_append]
    exact hCarries
  · have hOrder := h.inOrder
    rw [hProducer] at hOrder
    rw [hSent]
    show (x.sent ++ [frame] ++ []).Sublist x.produced
    rw [List.append_nil]
    exact hOrder
  · refine ⟨hSlot, ?_, hAt⟩
    rw [hSent]
    exact List.mem_append_right _ List.mem_cons_self
  · intro e he
    obtain ⟨found, hFound, hRest⟩ := h.published e he
    refine ⟨found, ?_, hRest⟩
    rw [hSent]
    exact List.mem_append_left _ hFound
  · rw [hAwaited]
    refine forall_mem_append_one ⟨lease.token, hSlot, ?_⟩ h.outstanding
    obtain ⟨found, hFound, hToken, hWriting, -⟩ := hAt
    exact ⟨found, hFound, hToken, Or.inl hWriting⟩

/-- The slot is published; the consumer may have its packet already, but has not given up
on it, since the pool is open. -/
theorem publishes (h : Delivers x) {frame : Frame} {lease : FrameLease}
    (hProducer : x.producer = .sent frame lease) (hOpen : x.slots.closed = false)
    {thread : ThreadId} (hUse : x.slots.InUse .producer thread lease.token slot) :
    Delivers { x with
      slots := x.slots.setSlot lease.token.slotId { slot with state := .published }
      producer := .idle
      history := x.history.publish x.slots lease.token } := by
  have hAt := (FrameSlotPool.slotForToken_eq_ok_iff.mp hUse.2.1).1
  obtain ⟨hSlot, hMem, found, hFound, -, -, hStored⟩ : frame.packet.slot = some lease.token ∧
      frame ∈ x.sent ∧ x.At lease.token fun slot =>
        slot.state = .writing ∧ slot.payload.take slot.payloadSize = frame.payload := by
    have hHolds := h.producer
    unfold ProducerHolds at hHolds
    rw [hProducer] at hHolds
    exact hHolds
  obtain rfl := Option.some.inj (hAt.symm.trans hFound)
  have hHistory : (x.history.publish x.slots lease.token).published = x.history.published ++
      [{ token := lease.token, payloadSize := slot.payloadSize, payload := slot.payload }] := by
    rw [History.publish, hUse.2.1]
    rfl
  have hIdle : Delivers { x with producer := .idle } := h.withProducer rfl
  refine { hIdle with named := ?_, published := ?_, outstanding := ?_, kept := ?_ }
  · exact h.named_set hAt (Nat.le_refl _)
  · rw [hHistory]
    exact forall_mem_append_one ⟨frame, hMem, hSlot, hStored⟩ h.published
  · exact h.awaited_set hAt (fun _ hFrame => hFrame) fun _ _ _ _ => ⟨rfl, Or.inr (Or.inl rfl)⟩
  · intro other hOther
    rw [hHistory]
    refine forall_mem_append_one (fun _ => ?_) (h.kept other hOther)
    rcases h.dropped other hOther with hRead | hClosed
    · exact hRead
    · cases hOpen.symm.trans hClosed

/-- The lease is cancelled; its token is in the channel only when the pool is closed. -/
theorem cancelled (h : Delivers x) {lease : FrameLease}
    (hProducer : x.producer = .unwinding lease) {thread : ThreadId}
    (hUse : x.slots.InUse .producer thread lease.token slot) :
    Delivers { x with
      slots := x.slots.setSlot lease.token.slotId (slot.freed true), producer := .failing } := by
  have hAt := (FrameSlotPool.slotForToken_eq_ok_iff.mp hUse.2.1).1
  have hToken := FrameSlotPool.eq_tokenOf hUse.2.1
  have hSafe : x.slots.closed = true ∨ ∀ frame ∈ x.sent, frame.packet.slot ≠ some lease.token := by
    have hHolds := h.producer
    unfold ProducerHolds at hHolds
    rw [hProducer] at hHolds
    exact hHolds
  have hIdle : Delivers { x with producer := .failing } := h.withProducer rfl
  refine { hIdle with named := ?_, outstanding := ?_ }
  · exact h.named_set hAt (Nat.le_refl _)
  · refine h.awaited_set hAt (fun _ hFrame => hFrame) fun frame hFrame hSlot _ => ⟨rfl, ?_⟩
    rcases hSafe with hClosed | hNone
    · exact Or.inr (Or.inr ⟨rfl, rfl, hClosed⟩)
    · rw [show slotToken x.slots.poolId lease.token.slotId slot = lease.token from hToken.symm]
        at hSlot
      exact absurd hSlot (hNone frame (mem_sent_of_awaited hFrame))

-- ---------------------------------------------------------------------------
-- The consumer
-- ---------------------------------------------------------------------------

/-- The leases after the consumer has changed its place. -/
theorem active_consumer (h : Delivers x) {consumer : Consumer}
    (hLease : ∀ lease, consumer.lease = some lease → lease.active = true ∧ lease.pool = true) :
    ∀ role, ∀ lease ∈ leasesOf x.producer consumer role,
      lease.active = true ∧ lease.pool = true := by
  intro role
  cases role with
  | producer => exact h.active .producer
  | consumer => exact fun lease hMem => hLease lease (Option.mem_toList.mp hMem)

/-- The first packet of the channel comes into the consumer's hand. -/
theorem receives (h : Delivers x) (hConsumer : x.consumer = .idle) {frame : Frame}
    {rest : List Frame} (hQueued : x.queued = frame :: rest) {channel : FramePacketChannel}
    (hCarries : Carries channel x.threads (rest.map Frame.packet)) :
    Delivers { x with
      channel, consumer := .received frame.packet
      queued := x.queued.tail, taken := x.queued.head? } := by
  have hTaken : x.taken = none := h.taken_none (by rw [hConsumer]; rfl)
  have hSent : ({ x with
      channel, consumer := .received frame.packet
      queued := x.queued.tail, taken := x.queued.head? } : FrameExchange).sent = x.sent := by
    unfold sent
    rw [hTaken, hQueued]
    simp
  have hAwaited : ({ x with
      channel, consumer := .received frame.packet
      queued := x.queued.tail, taken := x.queued.head? } : FrameExchange).awaited = x.queued := by
    unfold awaited
    rw [hQueued]
    rfl
  refine { h with
    active := ?_, carries := ?_, inOrder := ?_, producer := ?_, published := ?_, inHand := ?_,
    consumer := trivial, outstanding := ?_ }
  · exact h.active_consumer nofun
  · rw [hQueued]
    exact hCarries
  · rw [hSent]
    exact h.inOrder
  · have hHolds := h.producer
    unfold ProducerHolds at hHolds ⊢
    simp only [hSent]
    exact hHolds
  · rw [hSent]
    exact h.published
  · rw [hQueued]
    rfl
  · rw [hAwaited]
    exact fun other hOther => h.outstanding other (List.mem_append_right _ hOther)

/-- The consumer waits for the slot of its packet. -/
theorem waits (h : Delivers x) {packet : FramePacket} {token : FrameSlotToken}
    (hPacket : x.consumer.packet = some packet) (hSeeks : x.consumer.seeks = true)
    (hSlot : packet.slot = some token) : Delivers { x with consumer := .waiting packet token } := by
  refine { h with active := ?_, inHand := ?_, consumer := hSlot, outstanding := ?_ }
  · exact h.active_consumer nofun
  · rw [h.inHand, hPacket]
    rfl
  · have hAwaited : ({ x with consumer := .waiting packet token } : FrameExchange).awaited =
        x.awaited := by
      unfold awaited
      rw [hSeeks]
      rfl
    rw [hAwaited]
    exact h.outstanding

theorem nodup_sent (h : Delivers x) : x.sent.Nodup :=
  (List.Nodup.of_map _ h.once).sublist h.sent_sublist

/-- The frame in hand is not in the channel any more. -/
theorem taken_not_queued (h : Delivers x) {frame : Frame} (hTaken : x.taken = some frame) :
    frame ∉ x.queued := by
  intro hQueued
  have hNodup := h.nodup_sent
  unfold sent at hNodup
  rw [hTaken] at hNodup
  refine (List.nodup_append.mp hNodup).2.2 frame ?_ frame hQueued rfl
  exact List.mem_append_right _ List.mem_cons_self

theorem mem_sent_of_taken {frame : Frame} (h : x.taken = some frame) : frame ∈ x.sent := by
  unfold sent
  rw [h]
  exact List.mem_append_left _ (List.mem_append_right _ List.mem_cons_self)

theorem mem_sent_of_queued {frame : Frame} (h : frame ∈ x.queued) : frame ∈ x.sent :=
  List.mem_append_right _ h

/-- The consumer gets the slot of its packet. -/
theorem grants (h : Delivers x) {packet : FramePacket} {token : FrameSlotToken}
    (hPacket : x.consumer.packet = some packet) (hSlot : packet.slot = some token)
    (hFound : x.slots.slotForToken token = .ok slot) (hPublished : slot.state = .published) :
    Delivers { x with
      slots := x.slots.setSlot token.slotId { slot with state := .reading }
      consumer := .reading packet { pool := true, token, active := true }
      history := { x.history with granted := x.history.granted ++ [token] } } := by
  have hAt := (FrameSlotPool.slotForToken_eq_ok_iff.mp hFound).1
  have hToken : slotToken x.slots.poolId token.slotId slot = token :=
    (FrameSlotPool.eq_tokenOf hFound).symm
  obtain ⟨frame, hTaken, hFrame⟩ := h.taken_of_packet hPacket
  have hOther : slot.state ≠ .writing := by
    rw [hPublished]
    decide
  refine { h with
    active := ?_, named := ?_, producer := ?_, inHand := ?_, consumer := ?_, granted := ?_,
    outstanding := ?_ }
  · refine h.active_consumer fun lease hLease => ?_
    rw [← Option.some.inj hLease]
    exact ⟨rfl, rfl⟩
  · exact h.named_set hAt (Nat.le_refl _)
  · exact h.holds_set hAt hOther (fun _ => Iff.rfl) rfl rfl rfl
  · rw [h.inHand, hPacket]
    rfl
  · exact ⟨hSlot, List.mem_append_right _ List.mem_cons_self⟩
  · intro other hRead
    obtain ⟨t, ht, hNamed⟩ := h.granted other hRead
    exact ⟨t, List.mem_append_left _ ht, hNamed⟩
  · show ∀ other ∈ x.queued, _
    refine h.awaited_set hAt (fun _ hMem => List.mem_append_right _ hMem)
      fun other hMem hSame _ => ?_
    rw [hToken, ← hSlot, ← hFrame] at hSame
    have hEq := h.eq_of_slot (h.sent_sublist.subset (mem_sent_of_queued hMem))
      (h.sent_sublist.subset (mem_sent_of_taken hTaken)) hSame
    rw [hEq] at hMem
    exact absurd hMem (h.taken_not_queued hTaken)

theorem sent_done : x.done.sent = x.sent := by
  unfold sent done
  simp

/-- What holds after the consumer is done with its packet, having read it or not. -/
theorem doneWith (h : Delivers x) {consumer : Consumer} {reads : List Frame}
    (hPacket : consumer.packet = none)
    (hLease : ∀ lease, consumer.lease = some lease → lease.active = true ∧ lease.pool = true)
    (hReads : x.reads.Sublist reads) (hOrder : reads.Sublist (x.consumed ++ x.taken.toList))
    (hGranted : ∀ frame ∈ reads, ∃ token ∈ x.history.granted, frame.packet.slot = some token)
    (hDropped : ∀ frame, x.taken = some frame → frame ∈ reads ∨ x.slots.closed = true)
    (hKept : ∀ frame, x.taken = some frame → ∀ e ∈ x.history.published,
      frame.packet.slot = some e.token → frame ∈ reads) :
    Delivers { x.done with consumer, reads } := by
  have hSent : ({ x.done with consumer, reads } : FrameExchange).sent = x.sent := sent_done
  have hSeeks : consumer.seeks = false := by
    cases consumer <;> first | rfl | exact nomatch hPacket
  have hConsumed : ∀ {Q : Frame → Prop}, (∀ frame ∈ x.consumed, Q frame) →
      (∀ frame, x.taken = some frame → Q frame) →
      ∀ frame ∈ x.consumed ++ x.taken.toList, Q frame := by
    intro Q hOld hNew frame hFrame
    rcases List.mem_append.mp hFrame with hMem | hMem
    · exact hOld frame hMem
    · exact hNew frame (Option.mem_toList.mp hMem)
  refine { h with
    active := h.active_consumer hLease, inOrder := ?_, producer := ?_, published := ?_,
    inHand := hPacket.symm, consumer := ?_, readInOrder := hOrder, granted := hGranted,
    outstanding := ?_, dropped := ?_, kept := ?_ }
  · rw [hSent]
    exact h.inOrder
  · have hHolds := h.producer
    unfold ProducerHolds at hHolds ⊢
    simp only [hSent]
    exact hHolds
  · rw [hSent]
    exact h.published
  · cases consumer <;> trivial
  · intro frame hFrame
    refine h.outstanding frame (List.mem_append_right _ ?_)
    unfold awaited at hFrame
    simpa only [hSeeks, done, Bool.false_eq_true, if_false, List.nil_append] using hFrame
  · exact hConsumed (fun frame hFrame => (h.dropped frame hFrame).imp_left (hReads.subset ·)) hDropped
  · exact hConsumed (fun frame hFrame e he hSlot => hReads.subset (h.kept frame hFrame e he hSlot))
      hKept

/-- The slot of the packet in hand is not published and never will be: the pool is closed. -/
theorem misses (h : Delivers x) {packet : FramePacket} {token : FrameSlotToken}
    (hTraced : Traced x.slots.poolId x.slots.slots x.history)
    (hPacket : x.consumer.packet = some packet) (hSlot : packet.slot = some token)
    (hFound : x.slots.slotForToken token = .ok slot)
    (hGone : slot.state = .writing ∨ slot.state = .free ∧ slot.wasCancelled = true)
    (hClosed : x.slots.closed = true) : Delivers { x.done with consumer := .failing } := by
  have hAt := (FrameSlotPool.slotForToken_eq_ok_iff.mp hFound).1
  have hToken : token = slotToken x.slots.poolId token.slotId slot := FrameSlotPool.eq_tokenOf hFound
  obtain ⟨frame, hTaken, hFrame⟩ := h.taken_of_packet hPacket
  refine h.doneWith rfl nofun (List.Sublist.refl _)
    (h.readInOrder.trans (List.sublist_append_left _ _)) h.granted (fun _ _ => Or.inr hClosed)
    fun other hOther e he hSame => ?_
  -- the token would have been published and then be written or cancelled
  obtain rfl := Option.some.inj (hTaken.symm.trans hOther)
  rw [hFrame, hSlot] at hSame
  have hPast := hTraced.published e he
  rw [← Option.some.inj hSame, hToken] at hPast
  obtain ⟨hNot, hDone, -⟩ := hPast.current hAt
  rcases hGone with hWriting | ⟨hFree, hCancelled⟩
  · exact absurd hWriting hNot
  · exact nomatch (hDone hFree).symm.trans hCancelled

/-- The consumer reads what was written for its packet. -/
theorem readsFrame (h : Delivers x) {packet : FramePacket} {lease : FrameLease}
    (hTraced : Traced x.slots.poolId x.slots.slots x.history)
    (hConsumer : x.consumer = .reading packet lease) {thread : ThreadId}
    (hUse : x.slots.InUse .consumer thread lease.token slot) (checks : Bool) :
    Delivers { x.done with
      consumer := .releasing lease checks
      reads := x.reads ++ [{ packet, payload := slot.payload.take slot.payloadSize }] } := by
  have hAt := (FrameSlotPool.slotForToken_eq_ok_iff.mp hUse.2.1).1
  have hToken : lease.token = slotToken x.slots.poolId lease.token.slotId slot :=
    FrameSlotPool.eq_tokenOf hUse.2.1
  have hReading : slot.state = .reading := hUse.2.2
  obtain ⟨hSlot, hGranted⟩ : packet.slot = some lease.token ∧ lease.token ∈ x.history.granted := by
    have hHolds := h.consumer
    unfold ConsumerHolds at hHolds
    rw [hConsumer] at hHolds
    exact hHolds
  have hPacket : x.consumer.packet = some packet := by
    rw [hConsumer]
    rfl
  obtain ⟨frame, hTaken, hFrame⟩ := h.taken_of_packet hPacket
  -- what the slot shows is what was published, and that is what was written
  have hPayload : ({ packet, payload := slot.payload.take slot.payloadSize } : Frame) = frame := by
    obtain ⟨e, he, hSame⟩ := hTraced.shown _ slot hAt (Or.inr hReading)
    have hPast := hTraced.published e he
    rw [hSame] at hPast
    obtain ⟨hSize, hBytes⟩ := (hPast.current hAt).2.2 (by rw [hReading]; decide)
    obtain ⟨other, hOther, hNamed, hWritten⟩ := h.published e he
    have hEq : other = frame := by
      refine h.eq_of_slot (h.sent_sublist.subset hOther)
        (h.sent_sublist.subset (mem_sent_of_taken hTaken)) ?_
      rw [hNamed, hSame, ← hToken, hFrame, hSlot]
    rw [hSize, hBytes, hWritten, hEq, ← hFrame]
  rw [hPayload]
  have hMem : frame ∈ x.reads ++ [frame] := List.mem_append_right _ List.mem_cons_self
  refine h.doneWith rfl (fun other hOther => ?_) (List.sublist_append_left _ _) ?_
    (forall_mem_append_one ⟨lease.token, hGranted, hFrame ▸ hSlot⟩ h.granted) ?_ ?_
  · rw [← Option.some.inj hOther]
    refine h.active .consumer lease ?_
    rw [leasesOf, hConsumer]
    exact List.mem_cons_self
  · rw [hTaken]
    exact h.readInOrder.append (List.Sublist.refl _)
  · intro other hOther
    rw [← Option.some.inj (hTaken.symm.trans hOther)]
    exact Or.inl hMem
  · intro other hOther e _ _
    rw [← Option.some.inj (hTaken.symm.trans hOther)]
    exact hMem

/-- The consumer gives its slot back. -/
theorem releases (h : Delivers x) {lease : FrameLease} {checked : Bool}
    (hConsumer : x.consumer = .releasing lease checked) {thread : ThreadId}
    (hUse : x.slots.InUse .consumer thread lease.token slot) :
    Delivers { x with
      slots := x.slots.setSlot lease.token.slotId (slot.freed false)
      consumer := if checked then .idle else .failing } := by
  have hAt := (FrameSlotPool.slotForToken_eq_ok_iff.mp hUse.2.1).1
  have hReading : slot.state = .reading := hUse.2.2
  have hTaken : x.taken = none := h.taken_none (by rw [hConsumer]; rfl)
  have hOther : slot.state ≠ .writing := by
    rw [hReading]
    decide
  have hNext : Delivers { x with consumer := if checked then .idle else .failing } := by
    refine h.withConsumer hTaken ?_ ?_ <;> cases checked <;> rfl
  refine { hNext with named := ?_, producer := ?_, outstanding := ?_ }
  · exact h.named_set hAt (Nat.le_refl _)
  · exact h.holds_set hAt hOther (fun _ => Iff.rfl) rfl rfl rfl
  · refine hNext.awaited_set hAt (fun _ hFrame => hFrame) fun frame _ _ hAwaited => ?_
    rcases hAwaited with hNo | hNo | ⟨hNo, -⟩ <;> exact nomatch hReading.symm.trans hNo

end Delivers

end FrameExchange

end Ithax.Threading
