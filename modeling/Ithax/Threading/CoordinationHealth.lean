import Ithax.Threading.CoordinationRuns

/-!
# When the exchange does not fail

As long as the owner publishes the ticks from the first one on and no wait runs out of
time, nothing fails: `Publish` comes back until the owner stops the exchange, and `Stop`
fails only when the ticks are not as many as expected.

## Results

* `Healthy.step`         — the owner's ticks keep the exchange healthy.
* `failed_of_run_inStep` — `Publish` and `Stop` fail only for the reasons named here.
-/

namespace Ithax.Threading

open Ithax.Lib

/-- What the consumer throws when there are no more frames. -/
def shortText : String := "frame consumer did not receive every integration tick"

/-- The producer is about to claim a slot. -/
def Producer.claims : Producer → Nat
  | acquiring _ => 1
  | _ => 0

/-- The records for which no slot was claimed yet. -/
def Board.unclaimed (b : Board) : Nat :=
  b.coordination.pending.toList.length + b.record.toList.length + b.producer.claims

/-- The owner has handed over the ticks from the first one on, each of a slot's generation. -/
structure Board.InStep (b : Board) : Prop where
  ticks : ∀ (i : Nat) (record : FrameRecord), b.accepted[i]? = some record →
    record.tick = (b.firstTick + .ofNat i).toNat
  length : b.accepted.length ≤ MAX_GENERATION

/-- The exchange is at rest but for the two threads that end. -/
structure Board.Quiet (b : Board) : Prop where
  underway : b.underway = []
  producer : b.producer = .idle ∨ b.producer = .closing ∨ b.producer = .stopped
  consumer : ∀ lease checks, b.consumer ≠ .releasing lease checks
  acknowledges : b.acknowledges = false
  accepted : b.accepted = b.reads.map Frame.record

structure Healthy (b : Board) : Prop where
  issued : b.issued + b.unclaimed ≤ b.accepted.length
  producer : b.producer.raises = false ∧ b.producer ≠ .failed
  consumer : b.coordination.stopRequested = false → b.consumer.raises = false
  /-- `Publish` does not give up. -/
  owner : b.owner.record.isSome = true → b.owner.waits = true
  halted : b.coordination.stopRequested = true → b.stopped = true ∨ b.owner.stops = true
  quiet : b.coordination.stopRequested = true → b.Quiet
  reads : b.reads = b.checked
  handed : b.owner.record = none → b.accepted = b.published
  /-- The consumer throws only when there are no more frames. -/
  short : b.consumer = .failing ∨ b.consumer = .failed ∨ b.coordination.error.isSome = true →
    b.expectedTick ≠ b.endTick
  thrown : b.producerError = none ∧ (b.consumerError = none ∨ b.consumerError = some shortText)
  error : ∀ error, b.coordination.error = some error → error = shortText
  refused : ∀ record error, .refused record error ∈ b.calls → b.stopped = true

namespace Healthy

variable {b b' : Board}

theorem live (h : Healthy b) (hFlags : Flags b) (hGoes : b.coordination.stopRequested = false) :
    b.coordination.error = none ∧ b.consumer ≠ .failing ∧ b.consumer ≠ .failed := by
  have hNever : ∀ {P : Prop}, b.coordination.stopRequested = true → P := fun hStop => by
    cases hGoes.symm.trans hStop
  refine ⟨?_, fun hFailing => ?_, fun hFailed => ?_⟩
  · cases hError : b.coordination.error with
    | none => rfl
    | some error => exact hNever (hFlags.failed (by rw [hError]; rfl))
  · have hRaises := h.consumer hGoes
    rw [hFailing] at hRaises
    cases hRaises
  · exact hNever (hFlags.failed (hFlags.consumerFailed hFailed))

/-- A frame in the consumer's hand carries the tick that it expects. -/
theorem passes (hAccounts : Accounts b) (hTicks : Ticks b) (h : Healthy b) (hInStep : b.InStep)
    (hNone : b.acknowledges = false) {frame : Frame} {lease : FrameLease}
    (hTaken : b.taken = some frame) (hReading : b.consumer = .reading frame.packet lease) :
    recordFault b.expectedTick frame.packet frame.payload = none := by
  obtain ⟨lost, hAccepted, -, -⟩ := hAccounts.accounts
  have hExpected := hTicks.expected
  rw [show b.passing = false by unfold Board.passing; rw [hReading, hNone]; rfl] at hExpected
  simp only [Bool.false_eq_true, if_false, UInt64.add_zero] at hExpected
  have hAt : b.accepted[b.checked.length]? = some frame.record := by
    rw [hAccepted, h.reads, List.append_assoc, List.getElem?_append_right (by simp)]
    simp [Board.underway, Outline.underway, hTaken]
  obtain ⟨tick, worldHash, hRecord⟩ := hTicks.records _ (List.mem_of_getElem? hAt)
  refine (recordFault_eq_none_iff hRecord).mpr (UInt64.toNat_inj.mp ?_)
  have hTick := hInStep.ticks _ _ hAt
  rw [hExpected, hRecord] at hTick
  exact hTick

/-- The consumer goes on and throws nothing. -/
theorem withConsumer (h : Healthy b) (hFlags : Flags b)
    (hGoes : b.coordination.stopRequested = false) {consumer : Consumer}
    {queued reads checked : List Frame} {taken : Option Frame} {acknowledges : Bool}
    (hRaises : consumer.raises = false) (hFailed : consumer ≠ .failed) (hReads : reads = checked)
    (fault : String) :
    Healthy { b with
      consumer, queued, taken, reads, acknowledges, checked
      consumerError := CoordinatedExchange.thrownAfter b.consumer.raises consumer.raises fault
        b.consumerError } := by
  have hThrown : CoordinatedExchange.thrownAfter b.consumer.raises consumer.raises fault
      b.consumerError = b.consumerError := by
    rw [hRaises]
    rfl
  have hError := (h.live hFlags hGoes).1
  rw [hThrown]
  exact { h with
    consumer := fun _ => hRaises
    quiet := fun hStop => nomatch hGoes.symm.trans hStop
    reads := hReads
    short := by
      rintro (rfl | hNot | hSome)
      · cases hRaises
      · exact absurd hNot hFailed
      · rw [show ({ b with } : Board).coordination.error = none from hError] at hSome
        cases hSome }

/-- While the exchange goes on the consumer reads what it expects. -/
theorem consume_live (h : Healthy b) (hFlags : Flags b) (hAccounts : Accounts b) (hTicks : Ticks b)
    (hInStep : b.InStep) (hGoes : b.coordination.stopRequested = false) {o' : Outline}
    {checks : Bool} {fault : String} (hNone : b.acknowledges = false)
    (hJudges : Judges b checks fault)
    (hTurn : ConsumerTurn checks b.toOutline o') :
    Healthy { b with
      toOutline := o'
      consumerError :=
        CoordinatedExchange.thrownAfter b.consumer.raises o'.consumer.raises fault b.consumerError
      acknowledges := b.consumer.releases true
      checked := if b.consumer.reads && checks then o'.reads else b.checked } := by
  obtain ⟨-, hFailing, hFailed⟩ := h.live hFlags hGoes
  obtain ⟨hChannel, hSlots, -⟩ := hFlags.goes_on hGoes
  have hKept : b.consumer.reads = false →
      b.reads = if b.consumer.reads && checks then b.reads else b.checked := by
    intro hNot
    rw [hNot, h.reads]
    rfl
  cases hTurn with
  | drained hConsumer hClosed => cases hChannel.symm.trans hClosed
  | received hConsumer hQueued =>
    exact h.withConsumer hFlags hGoes (by rfl) (by nofun)
      (hKept (by rw [show b.consumer = _ from hConsumer]; rfl)) fault
  | asked token hTaken hConsumer =>
    exact h.withConsumer hFlags hGoes (by rfl) (by nofun)
      (hKept (by rw [show b.consumer = _ from hConsumer]; rfl)) fault
  | granted lease hTaken hSeeks =>
    exact h.withConsumer hFlags hGoes (by rfl) (by nofun)
      (hKept (Consumer.not_over_of_seeks hSeeks).2) fault
  | refused hTaken hSeeks hClosed => cases hSlots.symm.trans hClosed
  | @read frame lease hTaken hConsumer =>
    have hPasses := passes hAccounts hTicks h hInStep hNone hTaken hConsumer
    obtain rfl : checks = true := (hJudges.read frame lease hTaken hConsumer).mpr hPasses
    refine h.withConsumer hFlags hGoes (by rfl) (by nofun) ?_ fault
    rw [show b.consumer = _ from hConsumer]
    rfl
  | @released lease checked hConsumer =>
    cases checked with
    | true =>
      exact h.withConsumer hFlags hGoes (by rfl) (by nofun)
        (hKept (by rw [show b.consumer = _ from hConsumer]; rfl)) fault
    | false =>
      have hRaises := h.consumer hGoes
      rw [show b.consumer = _ from hConsumer] at hRaises
      cases hRaises
  | failed hConsumer => exact absurd hConsumer hFailing
  | ended hConsumer => exact absurd hConsumer hFailed

/-- After a stop the consumer finds that there are no more frames, and ends. -/
theorem consume_quiet (h : Healthy b) (hStop : b.coordination.stopRequested = true)
    {o' : Outline} {checks : Bool} {fault : String}
    (hRecorded : b.consumer = .failing → b.consumerError = none) (hJudges : Judges b checks fault)
    (hTurn : ConsumerTurn checks b.toOutline o') :
    Healthy { b with
      toOutline := o'
      consumerError :=
        CoordinatedExchange.thrownAfter b.consumer.raises o'.consumer.raises fault b.consumerError
      acknowledges := b.consumer.releases true
      checked := if b.consumer.reads && checks then o'.reads else b.checked } := by
  have hQuiet := h.quiet hStop
  have hUnderway := hQuiet.underway
  have hNever : ∀ {P : Prop}, b.coordination.stopRequested = false → P := fun hGoes => by
    cases hGoes.symm.trans hStop
  unfold Board.underway Outline.underway at hUnderway
  simp only [List.append_eq_nil_iff, List.map_eq_nil_iff, Option.toList_eq_nil_iff] at hUnderway
  obtain ⟨⟨⟨⟨⟨hTaken, hQueued⟩, -⟩, -⟩, -⟩, -⟩ := hUnderway
  cases hTurn with
  | drained hConsumer hClosed hEmpty =>
    obtain ⟨hChecks, hFault⟩ := hJudges.drained hConsumer hClosed hEmpty
    rw [show b.consumer = _ from hConsumer]
    cases checks with
    | true =>
      exact { h with
        consumer := fun hGoes => hNever hGoes
        quiet := fun _ => { hQuiet with consumer := nofun, acknowledges := rfl }
        short := fun hFailed => h.short (Or.inr (Or.inr (by simpa using hFailed))) }
    | false =>
      have hShort : b.expectedTick ≠ b.endTick := of_decide_eq_false hChecks.symm
      exact { h with
        consumer := fun hGoes => hNever hGoes
        quiet := fun _ => { hQuiet with consumer := nofun, acknowledges := rfl }
        short := fun _ => hShort
        thrown := ⟨h.thrown.1, Or.inr (congrArg some hFault)⟩ }
  | received hConsumer hMore => cases hQueued.symm.trans hMore
  | asked _ hHand | granted _ hHand | refused hHand | read hHand => cases hTaken.symm.trans hHand
  | released hConsumer => exact absurd hConsumer (hQuiet.consumer _ _)
  | failed hConsumer =>
    have hNone := hRecorded hConsumer
    rw [hNone]
    rw [show b.consumer = _ from hConsumer]
    exact { h with
      consumer := fun _ => rfl
      quiet := fun _ => { hQuiet with consumer := nofun, acknowledges := rfl }
      short := fun _ => h.short (Or.inl hConsumer)
      thrown := ⟨h.thrown.1, Or.inl rfl⟩ }
  | ended hConsumer =>
    rw [show b.consumer = _ from hConsumer]
    exact { h with
      consumer := fun _ => rfl
      quiet := fun _ => { hQuiet with consumer := nofun, acknowledges := rfl }
      short := fun _ => h.short (Or.inr (Or.inl hConsumer)) }

-- ---------------------------------------------------------------------------
-- The producer
-- ---------------------------------------------------------------------------

/-- The producer goes on and throws nothing. -/
theorem withProducer (h : Healthy b) (hGoes : b.coordination.stopRequested = false)
    {producer : Producer} {produced queued : List Frame} {issued : Nat}
    {record : Option FrameRecord} (hProducer : producer.raises = false ∧ producer ≠ .failed)
    (hIssued : issued + (b.coordination.pending.toList.length + record.toList.length +
      producer.claims) ≤ b.accepted.length) (fault : String) :
    Healthy { b with
      producer, produced, queued, issued, record
      producerError := CoordinatedExchange.thrownAfter b.producer.raises producer.raises fault
        b.producerError } := by
  have hThrown : CoordinatedExchange.thrownAfter b.producer.raises producer.raises fault
      b.producerError = b.producerError := by
    rw [hProducer.1]
    rfl
  rw [hThrown]
  exact { h with
    issued := hIssued
    producer := hProducer
    quiet := fun hStop => nomatch hGoes.symm.trans hStop }

/-- A slot is claimed for every record: the generations of no slot are used up. -/
theorem acquire_live (h : Healthy b) (hFlags : Flags b)
    (hGoes : b.coordination.stopRequested = false) (hInStep : b.InStep) {record : FrameRecord}
    {o' : Outline} {left : Option FrameRecord}
    (hClaims : b.coordination.pending.toList.length + left.toList.length + 1 ≤ b.unclaimed)
    (hTurn : AcquireTurn record b.toOutline o') (fault : String) :
    Healthy { b with
      toOutline := o', record := left
      producerError := CoordinatedExchange.thrownAfter b.producer.raises o'.producer.raises fault
        b.producerError } := by
  have hIssued := h.issued
  have hLength := hInStep.length
  cases hTurn with
  | refused hClosed => cases (hFlags.goes_on hGoes).2.1.symm.trans hClosed
  | threw hExhausted => omega
  | claimed lease hOpen =>
    refine h.withProducer hGoes ⟨rfl, by nofun⟩ ?_ fault
    simp only [Producer.claims]
    omega

theorem produce_live (h : Healthy b) (hFlags : Flags b) (hSettled : b.toOutline.Settled)
    (hInStep : b.InStep) (hGoes : b.coordination.stopRequested = false) {o' : Outline}
    (fault : String) (hTurn : ProducerTurn b.toOutline o') :
    Healthy { b with
      toOutline := o'
      producerError := CoordinatedExchange.thrownAfter b.producer.raises o'.producer.raises fault
        b.producerError } := by
  obtain ⟨hChannel, hSlots, hOver⟩ := hFlags.goes_on hGoes
  have hIssued := h.issued
  unfold Board.unclaimed at hIssued
  have hCalm : ∀ {producer : Producer} {P : Prop}, b.producer = producer →
      producer.raises = true → P := by
    intro producer P hProducer hRaises
    rw [← hProducer, h.producer.1] at hRaises
    cases hRaises
  cases hTurn with
  | acquired hProducer hTurn =>
    refine h.acquire_live hFlags hGoes hInStep ?_ hTurn fault
    unfold Board.unclaimed
    rw [show b.producer = _ from hProducer]
    exact Nat.le_refl _
  | @wrote record lease hProducer | @sized record lease hProducer
  | @sent frame lease hProducer | @published frame lease hProducer =>
    refine h.withProducer hGoes ⟨rfl, by nofun⟩ ?_ fault
    rw [show b.producer = _ from hProducer] at hIssued
    exact hIssued
  | @oversized record lease hProducer hExceeds =>
    have hFits := hSettled.fits record (by rw [hProducer]; rfl)
    omega
  | rejected hProducer hClosed => cases hChannel.symm.trans hClosed
  | late hProducer hClosed => cases hSlots.symm.trans hClosed
  | unwound hProducer | failed hProducer => exact hCalm hProducer rfl
  | ended hProducer => exact absurd hProducer h.producer.2
  | closed hProducer =>
    rw [show b.producer = _ from hProducer] at hOver
    cases hOver

/-- After a stop the producer only ends. -/
theorem produce_quiet (h : Healthy b) (hStop : b.coordination.stopRequested = true) {o' : Outline}
    (fault : String) (hTurn : ProducerTurn b.toOutline o') :
    Healthy { b with
      toOutline := o'
      producerError := CoordinatedExchange.thrownAfter b.producer.raises o'.producer.raises fault
        b.producerError } := by
  have hQuiet := h.quiet hStop
  have hNot : ∀ {producer : Producer} {P : Prop}, b.producer = producer →
      ¬(producer = .idle ∨ producer = .closing ∨ producer = .stopped) → P := by
    intro producer P hProducer hOther
    exact absurd (hProducer ▸ hQuiet.producer) hOther
  cases hTurn with
  | acquired hProducer | wrote hProducer | sized hProducer | oversized hProducer
  | rejected hProducer | sent hProducer | published hProducer | late hProducer | unwound hProducer
  | failed hProducer | ended hProducer =>
    exact hNot hProducer (by simp)
  | closed hProducer =>
    have hIssued := h.issued
    unfold Board.unclaimed at hIssued
    have hUnderway := hQuiet.underway
    unfold Board.underway Outline.underway at hUnderway
    rw [show b.producer = _ from hProducer] at hIssued hUnderway ⊢
    exact { h with
      issued := hIssued
      producer := ⟨rfl, nofun⟩
      quiet := fun _ => { hQuiet with underway := hUnderway, producer := Or.inr (Or.inr rfl) } }

-- ---------------------------------------------------------------------------
-- Every step
-- ---------------------------------------------------------------------------

/-- The owner stops the exchange between two records, when nothing is on its way. -/
theorem quiet_of_ready (h : Healthy b) (hFlags : Flags b) (hAccounts : Accounts b)
    (hOwner : b.owner = .ready) (hGoes : b.coordination.stopRequested = false) : b.Quiet := by
  have hFlight : b.coordination.inFlight = false := by
    by_contra hFlight
    have hWaits := hFlags.inFlight (Bool.eq_true_of_not_eq_false hFlight)
    rw [hOwner] at hWaits
    cases hWaits
  obtain ⟨hUnderway, -, hBusy, hAck, -, hAccepted⟩ := hAccounts.rest hFlags hGoes hFlight
  have hOver := (hFlags.goes_on hGoes).2.2
  have hSplit := hUnderway
  unfold Board.underway Outline.underway at hSplit
  simp only [List.append_eq_nil_iff, List.map_eq_nil_iff, Option.toList_eq_nil_iff] at hSplit
  obtain ⟨⟨⟨⟨⟨hTaken, hQueued⟩, hUnsent⟩, hRecord⟩, -⟩, -⟩ := hSplit
  refine {
    underway := hUnderway
    producer := Or.inl ?_
    consumer := fun lease checks hReleasing => ?_
    acknowledges := hAck
    accepted := hAccepted }
  · cases hProducer : b.producer with
    | idle => rfl
    | acquiring | writing | sizing =>
      rw [hProducer] at hRecord
      cases hRecord
    | sending =>
      rw [hProducer] at hUnsent
      cases hUnsent
    | sent frame lease =>
      -- the frame of a producer that is about to publish it was not read
      rcases hAccounts.sent hGoes frame lease hProducer with hMem | ⟨hHand, -⟩
      · rw [hQueued] at hMem
        cases hMem
      · cases hTaken.symm.trans hHand
    | unwinding | failing =>
      have hRaises := h.producer.1
      rw [hProducer] at hRaises
      cases hRaises
    | failed | closing | stopped =>
      rw [hProducer] at hOver
      cases hOver
  · rw [hReleasing] at hBusy
    cases hBusy

/-- The owner asks both threads to stop. -/
theorem stopRequested (h : Healthy b) (hFlags : Flags b) (hAccounts : Accounts b)
    (hOwner : b.owner = .ready) (noexcept : Bool) :
    Healthy { b with
      coordination := b.coordination.halt none, owner := .stopping noexcept } := by
  have hQuiet : b.Quiet := by
    cases hStop : b.coordination.stopRequested with
    | true => exact h.quiet hStop
    | false => exact h.quiet_of_ready hFlags hAccounts hOwner hStop
  have hError : (b.coordination.halt none).error = b.coordination.error := by
    simp [FrameCoordination.halt]
  have hIssued := h.issued
  unfold Board.unclaimed at hIssued
  have hUnderway := hQuiet.underway
  unfold Board.underway at hUnderway
  rw [List.append_eq_nil_iff] at hUnderway
  exact { h with
    issued := by
      simp only [Board.unclaimed, FrameCoordination.halt, Option.toList_none, List.length_nil]
      omega
    consumer := fun hGoes => by cases hGoes
    owner := fun hSome => by cases hSome
    halted := fun _ => Or.inr rfl
    quiet := fun _ => { hQuiet with
      underway := List.append_eq_nil_iff.mpr ⟨hUnderway.1, rfl⟩ }
    handed := fun _ => h.handed (by rw [hOwner]; rfl)
    short := hError ▸ h.short
    error := hError ▸ h.error }

theorem step (h : Healthy b) (hFlags : Flags b) (hAccounts : Accounts b) (hTicks : Ticks b)
    (hHanded : Handed b) (hSettled : b.toOutline.Settled) (hInStep : b.InStep)
    (hLate : ∀ record error, b'.owner ≠ .abandoning record error) (hStep : BoardStep b b') :
    Healthy b' := by
  cases hStep with
  | refused record error hOwner hHalted =>
    have hStopped : b.stopped = true := by
      cases hStop : b.coordination.stopRequested with
      | true =>
        refine (h.halted hStop).resolve_right fun hStops => ?_
        rw [hOwner] at hStops
        cases hStops
      | false =>
        have hUnderway := (h.quiet_of_ready hFlags hAccounts hOwner hStop).underway
        unfold Board.underway at hUnderway
        rw [List.append_eq_nil_iff, Option.toList_eq_nil_iff] at hUnderway
        rcases hHalted with hStopped | hError | hPending | hFlight
        · exact hStopped
        · cases hStop.symm.trans (hFlags.failed hError)
        · rw [hUnderway.2] at hPending
          cases hPending
        · have hWaits := hFlags.inFlight hFlight
          rw [hOwner] at hWaits
          cases hWaits
    exact { h with
      quiet := fun hStop => { h.quiet hStop with }
      handed := fun hRecord =>
        (h.handed hRecord).trans (by simp [Board.published, CallResult.record])
      refused := fun _ _ _ => hStopped }
  | accepted tick worldHash hOwner hOpen hError hPending hFlight =>
    have hGoes := hFlags.not_halted (by rw [hOwner]; rfl) hOpen hError
    have hNever : ∀ {P : Prop}, b.coordination.stopRequested = true → P := fun hStop => by
      cases hGoes.symm.trans hStop
    have hIssued := h.issued
    unfold Board.unclaimed at hIssued
    rw [hPending] at hIssued
    exact { h with
      issued := by
        simp only [Board.unclaimed, Option.toList_some, Option.toList_none, List.length_nil,
          List.length_append, List.length_singleton] at hIssued ⊢
        omega
      owner := fun _ => rfl
      halted := fun hStop => hNever hStop
      quiet := fun hStop => hNever hStop
      handed := fun hNone => by cases hNone }
  | @published record hOwner hFlight hError =>
    obtain ⟨opened, hAccepted, hSome, -⟩ := hHanded.opened
    rw [hSome record (by rw [hOwner]; rfl)] at hAccepted
    refine { h with
      owner := fun hSome => by cases hSome
      halted := fun hStop => Or.inl ((h.halted hStop).resolve_right fun hStops => ?_)
      quiet := fun hStop => { h.quiet hStop with }
      handed := fun _ => ?_
      refused := fun _ _ hMem => h.refused _ _ (by simpa using hMem) }
    · rw [hOwner] at hStops
      cases hStops
    · rw [hAccepted]
      simp [Board.published, CallResult.record]
  | rethrown hOwner hError =>
    -- only the owner stops the exchange, and it is inside `Publish`
    have hStop := hFlags.failed (by rw [hError]; rfl)
    have hOpen := hFlags.publishing (by rw [hOwner]; rfl)
    rcases h.halted hStop with hStopped | hStops
    · cases hOpen.symm.trans hStopped
    · rw [hOwner] at hStops
      cases hStops
  | timedOut error hOwner => exact absurd rfl (hLate _ _)
  | abandoned hOwner | gaveUp hOwner =>
    have hWaits := h.owner (by rw [hOwner]; rfl)
    rw [hOwner] at hWaits
    cases hWaits
  | stopRequested noexcept hOwner => exact h.stopRequested hFlags hAccounts hOwner noexcept
  | stopping hOwner =>
    exact { h with
      owner := fun hSome => by cases hSome
      halted := fun _ => Or.inr rfl
      quiet := fun hStop => { h.quiet hStop with }
      handed := fun _ => h.handed (by rw [hOwner]; rfl) }
  | stoppingSlots hOwner =>
    exact { h with
      owner := fun hSome => by cases hSome
      halted := fun _ => Or.inr rfl
      quiet := fun hStop => { h.quiet hStop with }
      handed := fun _ => h.handed (by rw [hOwner]; rfl) }
  | @joined noexcept terminated result hOwner hProducer hConsumer hQuiet =>
    have hOver : b.consumer.over = true := by
      rw [hConsumer]
      rfl
    have hResult := (hQuiet (hHanded.closing (by rw [hOwner]; rfl)) (hAccounts.through hOver).1).2
    have hNoRecord : result.filterMap CallResult.record = [] := by
      rw [hResult]
      cases noexcept with
      | true => rfl
      | false => cases b.coordination.error <;> rfl
    refine { h with
      owner := fun hSome => by cases hSome
      halted := fun _ => Or.inl rfl
      quiet := fun hStop => { h.quiet hStop with }
      handed := fun _ => (h.handed (by rw [hOwner]; rfl)).trans ?_
      refused := fun _ _ _ => rfl }
    unfold Board.published
    rw [List.filterMap_append, hNoRecord, List.append_nil]
  | took hIdle hNone hPending =>
    have hIssued := h.issued
    unfold Board.unclaimed at hIssued
    rw [hNone, hPending] at hIssued
    refine { h with
      issued := ?_
      quiet := fun hStop => ?_ }
    · simp only [Board.unclaimed, Option.toList_some, Option.toList_none, List.length_nil,
        List.length_singleton] at hIssued ⊢
      omega
    · have hUnderway := (h.quiet hStop).underway
      simp [Board.underway, hPending] at hUnderway
  | @gave record o' fault hIdle hRecord hTurn =>
    have hGoes : b.coordination.stopRequested = false := by
      by_contra hStop
      have hUnderway := (h.quiet (Bool.eq_true_of_not_eq_false hStop)).underway
      simp [Board.underway, hRecord] at hUnderway
    have hIssued := h.issued
    cases hTurn with
    | blocked =>
      refine h.withProducer hGoes ⟨rfl, by simp⟩ ?_ fault
      simp only [Board.unclaimed, hRecord, hIdle, Producer.claims, Option.toList_some,
        Option.toList_none, List.length_nil, List.length_singleton] at hIssued ⊢
      omega
    | acquired hTurn =>
      refine h.acquire_live hFlags hGoes hInStep ?_ hTurn fault
      simp [Board.unclaimed, hRecord, hIdle, Producer.claims]
  | left hIdle hNone hPending hStop =>
    have hIssued := h.issued
    unfold Board.unclaimed at hIssued
    have hUnderway := (h.quiet hStop).underway
    unfold Board.underway Outline.underway at hUnderway
    rw [hIdle] at hIssued hUnderway
    exact { h with
      issued := hIssued
      producer := ⟨rfl, by simp⟩
      quiet := fun _ => { h.quiet hStop with
        underway := hUnderway, producer := Or.inr (Or.inl rfl) } }
  | producerFailed hFailing =>
    have hRaises := h.producer.1
    rw [hFailing] at hRaises
    cases hRaises
  | produced fault hRecorded hTurn =>
    cases hStop : b.coordination.stopRequested with
    | true => exact h.produce_quiet hStop fault hTurn
    | false => exact h.produce_live hFlags hSettled hInStep hStop fault hTurn
  | acknowledged hReleased =>
    have hGoes : b.coordination.stopRequested = false := by
      by_contra hStop
      cases (h.quiet (Bool.eq_true_of_not_eq_false hStop)).acknowledges.symm.trans hReleased
    have hIdle := hAccounts.acknowledged hReleased
    refine { h with
      quiet := fun hStop => by cases hGoes.symm.trans hStop
      short := ?_ }
    rintro (hFailing | hFailed | hSome)
    · cases hIdle.symm.trans hFailing
    · cases hIdle.symm.trans hFailed
    · cases hGoes.symm.trans (hFlags.failed hSome)
  | @consumerFailed error hFailing hError =>
    have hStop : b.coordination.stopRequested = true := by
      by_contra hGoes
      exact (h.live hFlags (Bool.eq_false_of_not_eq_true hGoes)).2.1 hFailing
    have hQuiet := h.quiet hStop
    have hIssued := h.issued
    unfold Board.unclaimed at hIssued
    have hUnderway := hQuiet.underway
    unfold Board.underway at hUnderway
    rw [List.append_eq_nil_iff] at hUnderway
    have hText : error = shortText := by
      rcases h.thrown.2 with hNone | hSome
      · cases hError.symm.trans hNone
      · exact Option.some.inj (hError.symm.trans hSome)
    refine { h with
      issued := ?_
      consumer := fun hGoes => by cases hGoes
      halted := fun _ => h.halted hStop
      quiet := fun _ => { hQuiet with underway := List.append_eq_nil_iff.mpr ⟨hUnderway.1, rfl⟩ }
      short := fun _ => h.short (Or.inl hFailing)
      thrown := ⟨h.thrown.1, Or.inl rfl⟩
      error := fun e hSome => ?_ }
    · simp only [Board.unclaimed, FrameCoordination.halt, Option.toList_none, List.length_nil]
      omega
    · cases hOld : b.coordination.error with
      | none =>
        simp only [FrameCoordination.halt, hOld] at hSome
        exact (Option.some.inj hSome).symm.trans hText
      | some old =>
        simp only [FrameCoordination.halt, hOld] at hSome
        exact (Option.some.inj hSome).symm.trans (h.error old hOld)
  | consumed hNone hRecorded hJudges hTurn =>
    cases hStop : b.coordination.stopRequested with
    | true => exact h.consume_quiet hStop hRecorded hJudges hTurn
    | false => exact h.consume_live hFlags hAccounts hTicks hInStep hStop hNone hJudges hTurn

end Healthy

-- ---------------------------------------------------------------------------
-- Runs
-- ---------------------------------------------------------------------------

theorem BoardStep.accepted_prefix {b b' : Board} (h : BoardStep b b') :
    b.accepted <+: b'.accepted := by
  cases h with
  | accepted => exact List.prefix_append _ _
  | refused | published | rethrown | timedOut | abandoned | gaveUp | stopRequested | stopping
  | stoppingSlots | joined | took | gave | left | producerFailed | produced | acknowledged
  | consumerFailed | consumed =>
    exact List.prefix_refl _

/-- The owner was in step before. -/
theorem Board.InStep.before {b b' : Board} (h : b'.InStep) (hStep : BoardStep b b') : b.InStep := by
  obtain ⟨rest, hMore⟩ := hStep.accepted_prefix
  refine ⟨fun i record hAt => ?_, ?_⟩
  · have hLater : b'.accepted[i]? = some record := by
      rw [← hMore, List.getElem?_append_left (List.getElem?_eq_some_iff.mp hAt).1]
      exact hAt
    rw [← hStep.fixed.1]
    exact h.ticks i record hLater
  · have hLength := h.length
    rw [← hMore, List.length_append] at hLength
    omega

namespace CoordinatedExchange

variable {s s' : CoordinatedExchange}

/-- Only a wait that runs out of time makes `Publish` give up. -/
theorem not_abandoning_of_step {event : Event} (hEvent : event ≠ .timeOut)
    (h : s.exchange.Regular) (hOwner : ∀ record error, s.owner ≠ .abandoning record error)
    (hStep : s.step event = some s') : ∀ record error, s'.owner ≠ .abandoning record error := by
  unfold step at hStep
  split at hStep
  · cases hStep
  cases event with
  | publish tick worldHash =>
    simp only at hStep
    split at hStep
    · obtain rfl := Option.some.inj hStep
      unfold publish
      split
      · exact nofun
      · split
        · exact nofun
        · split <;> exact nofun
    · cases hStep
  | stop noexcept =>
    simp only at hStep
    split at hStep
    · cases hStep
    · split at hStep <;> obtain rfl := Option.some.inj hStep
      · exact hOwner
      · exact nofun
  | timeOut => exact absurd rfl hEvent
  | owner =>
    simp only at hStep
    unfold stepOwner at hStep
    split at hStep
    · cases hStep
    · split at hStep
      · obtain rfl := Option.some.inj hStep
        unfold resume
        split <;> exact nofun
      · cases hStep
    · rename_i record error hPlace
      exact absurd hPlace (hOwner record error)
    · obtain ⟨exchange, -, hNext⟩ := Option.bind_eq_some_iff.mp hStep
      obtain rfl := Option.some.inj hNext
      exact nofun
    · obtain ⟨exchange, -, hNext⟩ := Option.bind_eq_some_iff.mp hStep
      obtain rfl := Option.some.inj hNext
      exact nofun
    · obtain ⟨exchange, -, hNext⟩ := Option.bind_eq_some_iff.mp hStep
      obtain rfl := Option.some.inj hNext
      exact nofun
    · split at hStep
      · split at hStep <;> obtain rfl := Option.some.inj hStep <;> exact nofun
      · cases hStep
  | producer =>
    cases producerStep_of_step h hStep with
    | took | gave | left | recorded | turned => exact hOwner
  | consumer =>
    cases consumerStep_of_step h hStep with
    | acknowledged | recorded | turned => exact hOwner

variable {firstTick : UInt64} {expectedFrames : UInt32} {poolId : Nat} {threads : Role → ThreadId}
  {events : List Event}

theorem healthy_start {exchange : FrameExchange} (hProducer : exchange.producer = .idle)
    (hConsumer : exchange.consumer = .idle) (hIssued : exchange.history.issued = [])
    (hReads : exchange.reads = []) :
    Healthy (board { exchange, firstTick, expectedFrames, expectedTick := firstTick }) := by
  refine {
    issued := ?_
    producer := ?_
    consumer := fun _ => ?_
    owner := nofun
    halted := nofun
    quiet := nofun
    reads := hReads
    handed := fun _ => rfl
    short := ?_
    thrown := ⟨rfl, Or.inl rfl⟩
    error := nofun
    refused := nofun }
  · simp [Board.unclaimed, board, FrameExchange.outline, hProducer, hIssued, Producer.claims]
  · simp [board, FrameExchange.outline, hProducer, Producer.raises]
  · simp [board, FrameExchange.outline, hConsumer, Consumer.raises]
  · simp [board, FrameExchange.outline, hConsumer]

theorem healthy_of_run (h : run firstTick expectedFrames poolId threads events = some s)
    (hTime : .timeOut ∉ events) (hInStep : s.board.InStep) : Healthy s.board := by
  unfold run at h
  obtain ⟨slots, hSlots, hRest⟩ := Option.bind_eq_some_iff.mp h
  obtain ⟨channel, hChannel, hRun⟩ := Option.bind_eq_some_iff.mp hRest
  refine (invariant_along (I := fun s => Orderly s ∧
    (∀ record error, s.owner ≠ .abandoning record error) ∧ (s.board.InStep → Healthy s.board))
    ⟨orderly_start (eq_ok_of_toOption hSlots) (eq_ok_of_toOption hChannel), nofun,
      fun _ => healthy_start rfl rfl rfl rfl⟩
    (fun before event after mid next hSplit _ hStep hMid => ?_) events [] (List.append_nil _).symm s
    hRun).2.2 hInStep
  obtain ⟨hOrderly, hOwner, hHealthy⟩ := hMid
  have hEvent : event ≠ .timeOut := by
    rintro rfl
    exact hTime (hSplit ▸ List.mem_append_right _ List.mem_cons_self)
  have hLate := not_abandoning_of_step hEvent hOrderly.regular hOwner hStep
  refine ⟨hOrderly.step hStep, hLate, fun hNext => ?_⟩
  rcases board_of_step hOrderly.regular hStep with hSame | hBoard
  · exact hSame ▸ hHealthy (hSame ▸ hNext)
  · have hBefore := hNext.before hBoard
    exact (hHealthy hBefore).step hOrderly.flags hOrderly.accounts hOrderly.ticks hOrderly.handed
      hOrderly.settled hBefore hLate hBoard

/-- `Stop` throws only when records are missing. -/
theorem Orderly.short_of_failed (hOrderly : Orderly s) (h : Healthy s.board) {error : String}
    (hFailed : .failed error ∈ s.calls) :
    s.firstTick + .ofNat s.published.length ≠ s.board.endTick := by
  have hSome : s.board.coordination.error.isSome = true := by
    rw [show s.board.coordination.error = some error from hOrderly.handed.failed error hFailed]
    rfl
  have hStop := hOrderly.flags.failed hSome
  have hQuiet := h.quiet hStop
  -- the owner is inside no call of `Publish`, so all that was handed over was published
  have hOpen : s.board.owner.record = none := by
    cases hOwner : s.board.owner with
    | publishing record =>
      have hNot := hOrderly.flags.publishing (by rw [hOwner]; rfl)
      rcases h.halted hStop with hStopped | hStops
      · cases hNot.symm.trans hStopped
      · rw [hOwner] at hStops
        cases hStops
    | abandoning | abandoned =>
      have hWaits := h.owner (by rw [hOwner]; rfl)
      rw [hOwner] at hWaits
      cases hWaits
    | ready | stopping | stoppingSlots | joining => rfl
  have hPublished : s.published.length = s.board.checked.length := by
    rw [← show s.board.accepted = s.published from h.handed hOpen, hQuiet.accepted, h.reads,
      List.length_map]
  have hPassing : s.board.passing = false := by
    unfold Board.passing
    rw [hQuiet.acknowledges, Bool.or_false]
    cases hConsumer : s.board.consumer with
    | releasing lease checks => exact absurd hConsumer (hQuiet.consumer lease checks)
    | idle | received | waiting | reading | failing | failed | stopped => rfl
  have hExpected := hOrderly.ticks.expected
  rw [hPassing] at hExpected
  simp only [Bool.false_eq_true, if_false, UInt64.add_zero] at hExpected
  intro hEnd
  refine h.short (Or.inr (Or.inr hSome)) ?_
  rw [← hExpected, ← hPublished]
  exact hEnd

/-- While the owner publishes the ticks from the first one on and no wait runs out of time,
`Publish` throws only after a stop, and `Stop` throws only when the records for which
`Publish` has come back are not as many as expected. -/
theorem failed_of_run_inStep (h : run firstTick expectedFrames poolId threads events = some s)
    (hTime : .timeOut ∉ events)
    (hTicks : ∀ (i : Nat) (record : FrameRecord), s.accepted[i]? = some record →
      record.tick = (firstTick + .ofNat i).toNat)
    (hLength : s.accepted.length ≤ MAX_GENERATION) :
    (∀ record error, .refused record error ∈ s.calls → s.stopped = true) ∧
      ∀ error, .failed error ∈ s.calls →
        error = "frame consumer did not receive every integration tick" ∧
          UInt64.ofNat s.published.length ≠ expectedFrames.toUInt64 := by
  obtain ⟨hOrderly, rfl, hEnd⟩ := orderly_of_run h
  have hHealthy := healthy_of_run h hTime ⟨hTicks, hLength⟩
  refine ⟨hHealthy.refused, fun error hFailed => ⟨?_, fun hCount => ?_⟩⟩
  · exact hHealthy.error error (hOrderly.handed.failed error hFailed)
  · refine hOrderly.short_of_failed hHealthy hFailed ?_
    rw [hEnd, hCount]

theorem failed_of_run_inStep_oneFrame : ∃ s,
    run 7 2 0 (fun role => if role = .producer then 10 else 20)
      (oneFrame ++ [.consumer, .consumer, .consumer, .owner]) = some s ∧
    .failed "frame consumer did not receive every integration tick" ∈ s.calls ∧
    UInt64.ofNat s.published.length ≠ 2 := by
  obtain ⟨s, hRun, hAccepted, hFailed⟩ : ∃ s,
      run 7 2 0 (fun role => if role = .producer then 10 else 20)
        (oneFrame ++ [.consumer, .consumer, .consumer, .owner]) = some s ∧
      s.accepted = [.ofWords 7 99] ∧
      .failed "frame consumer did not receive every integration tick" ∈ s.calls :=
    ⟨_, rfl, rfl, List.mem_cons_of_mem _ List.mem_cons_self⟩
  have hTicks : ∀ (i : Nat) (record : FrameRecord), s.accepted[i]? = some record →
      record.tick = (7 + UInt64.ofNat i).toNat := by
    intro i record hAt
    rw [hAccepted] at hAt
    cases i with
    | zero =>
      obtain rfl := Option.some.inj hAt
      decide
    | succ i => cases hAt
  have hLength : s.accepted.length ≤ MAX_GENERATION := by
    rw [hAccepted]
    decide
  obtain ⟨-, hFails⟩ := failed_of_run_inStep hRun (by decide) hTicks hLength
  exact ⟨s, hRun, hFailed, (hFails _ hFailed).2⟩

end CoordinatedExchange

end Ithax.Threading
