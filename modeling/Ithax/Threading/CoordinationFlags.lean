import Ithax.Threading.CoordinationBoard

/-!
# Why a thread ends

Nothing is closed and no thread ends before the coordination says that the exchange is to
stop, and a thread that fails has recorded its exception before it closes anything.

## Results

* `Flags.step`  — every step of the board keeps it so.
-/

namespace Ithax.Threading

open Ithax.Lib

/-- The producer is through with its frames. -/
def Producer.over : Producer → Bool
  | failed | closing | stopped => true
  | _ => false

/-- The record that the owner is inside `Publish` with. -/
def Owner.record : Owner → Option FrameRecord
  | publishing record | abandoning record _ | abandoned record _ => some record
  | _ => none

def Owner.waits : Owner → Bool
  | publishing _ => true
  | _ => false

/-- The owner is inside `Stop` or `StopNoexcept`. -/
def Owner.stops : Owner → Bool
  | stopping _ | stoppingSlots _ | joining _ => true
  | _ => false

structure Flags (b : Board) : Prop where
  halted : b.coordination.stopRequested = true →
    b.coordination.pending = none ∧ b.coordination.inFlight = false
  failed : b.coordination.error.isSome = true → b.coordination.stopRequested = true
  channelClosed : b.channelClosed = true → b.coordination.stopRequested = true
  slotsClosed : b.slotsClosed = true → b.coordination.stopRequested = true
  producerOver : b.producer.over = true → b.coordination.stopRequested = true
  producerRaises : b.producer.raises = true →
    b.producerError.isSome = true ∨ b.coordination.error.isSome = true
  producerFailed : b.producer = .failed → b.coordination.error.isSome = true
  consumerOver : b.consumer = .stopped → b.coordination.stopRequested = true
  consumerRaises : b.consumer.raises = true →
    b.consumerError.isSome = true ∨ b.coordination.error.isSome = true
  consumerFailed : b.consumer = .failed → b.coordination.error.isSome = true
  /-- Who has halted the exchange. -/
  reason : b.coordination.stopRequested = true → b.coordination.error.isSome = true ∨
    b.stopped = true ∨ b.owner.stops = true
  inFlight : b.coordination.inFlight = true → b.owner.waits = true
  publishing : b.owner.record.isSome = true → b.stopped = false
  abandoned : b.owner.record.isSome = true → b.owner.waits = false →
    b.coordination.error.isSome = true
  stopping : b.owner.stops = true → b.coordination.stopRequested = true

namespace Flags

variable {b b' : Board}

/-- The owner goes on to its next section, or comes back. -/
theorem withOwner (h : Flags b) {owner : Owner} (calls : List CallResult)
    (hFlight : b.coordination.inFlight = true → owner.waits = true)
    (hReason : b.coordination.stopRequested = true → b.coordination.error.isSome = true ∨
      b.stopped = true ∨ owner.stops = true)
    (hRecord : owner.record.isSome = true → b.stopped = false ∧
      (owner.waits = false → b.coordination.error.isSome = true))
    (hStops : owner.stops = true → b.coordination.stopRequested = true) :
    Flags { b with owner, calls } :=
  { h with
    reason := hReason, inFlight := hFlight, publishing := fun hSome => (hRecord hSome).1
    abandoned := fun hSome => (hRecord hSome).2, stopping := hStops }

/-- The coordination is halted, with an error unless the owner stops the exchange. -/
theorem halt (h : Flags b) (owner : Owner) {error producerError consumerError : Option String}
    (hError : error.isSome = true ∨ owner.stops = true)
    (hProducer : b.producer.raises = true → error.isSome = true ∨ producerError = b.producerError)
    (hConsumer : b.consumer.raises = true → error.isSome = true ∨ consumerError = b.consumerError)
    (hRecord : owner.record.isSome = true → b.stopped = false ∧
      (owner.waits = false → error.isSome = true)) :
    Flags { b with
      coordination := b.coordination.halt error, owner, producerError, consumerError } := by
  have hKept : b.coordination.error.isSome = true →
      (b.coordination.halt error).error.isSome = true := by
    intro hSome
    obtain ⟨e, hSome⟩ := Option.isSome_iff_exists.mp hSome
    simp [FrameCoordination.halt, hSome]
  have hNew : error.isSome = true → (b.coordination.halt error).error.isSome = true := by
    intro hSome
    obtain ⟨e, rfl⟩ := Option.isSome_iff_exists.mp hSome
    cases hOld : b.coordination.error <;> simp [FrameCoordination.halt, hOld]
  refine {
    halted := fun _ => ⟨rfl, rfl⟩
    failed := fun _ => rfl
    channelClosed := fun _ => rfl
    slotsClosed := fun _ => rfl
    producerOver := fun _ => rfl
    producerRaises := fun hRaises => ?_
    producerFailed := fun hFailed => hKept (h.producerFailed hFailed)
    consumerOver := fun _ => rfl
    consumerRaises := fun hRaises => ?_
    consumerFailed := fun hFailed => hKept (h.consumerFailed hFailed)
    reason := fun _ => ?_
    inFlight := nofun
    publishing := fun hSome => (hRecord hSome).1
    abandoned := fun hSome hWaits => hNew ((hRecord hSome).2 hWaits)
    stopping := fun _ => rfl }
  · rcases hProducer hRaises with hSome | hSame
    · exact Or.inr (hNew hSome)
    · rw [hSame]
      exact (h.producerRaises hRaises).imp_right hKept
  · rcases hConsumer hRaises with hSome | hSame
    · exact Or.inr (hNew hSome)
    · rw [hSame]
      exact (h.consumerRaises hRaises).imp_right hKept
  · rcases hError with hSome | hStops
    · exact Or.inl (hNew hSome)
    · exact Or.inr (Or.inr hStops)

/-- The channel and the pool may be closed once the exchange is halted. -/
theorem withClosed (h : Flags b) {channelClosed slotsClosed : Bool}
    (hChannel : channelClosed = true → b.coordination.stopRequested = true)
    (hSlots : slotsClosed = true → b.coordination.stopRequested = true) :
    Flags { b with channelClosed, slotsClosed } :=
  { h with channelClosed := hChannel, slotsClosed := hSlots }

/-- An exception is kept until it is recorded. -/
theorem thrownAfter_isSome {before after : Bool} {fault : String} {error : Option String}
    {recorded : Prop} (hBefore : before = true → error.isSome = true ∨ recorded)
    (hAfter : after = true) :
    (CoordinatedExchange.thrownAfter before after fault error).isSome = true ∨ recorded := by
  unfold CoordinatedExchange.thrownAfter
  cases before with
  | false =>
    rw [hAfter]
    exact Or.inl rfl
  | true =>
    rw [hAfter]
    exact hBefore rfl

-- ---------------------------------------------------------------------------
-- The two threads
-- ---------------------------------------------------------------------------

/-- The producer goes on. -/
theorem withProducer (h : Flags b) {producer : Producer} {produced queued : List Frame}
    {issued : Nat} {channelClosed slotsClosed : Bool} {record : Option FrameRecord} (fault : String)
    (hOver : producer.over = true → b.coordination.stopRequested = true)
    (hFailed : producer = .failed → b.coordination.error.isSome = true)
    (hChannel : channelClosed = true → b.coordination.stopRequested = true)
    (hSlots : slotsClosed = true → b.coordination.stopRequested = true) :
    Flags { b with
      producer, produced, queued, issued, channelClosed, slotsClosed, record
      producerError :=
        CoordinatedExchange.thrownAfter b.producer.raises producer.raises fault b.producerError } :=
  { h with
    channelClosed := hChannel, slotsClosed := hSlots, producerOver := hOver
    producerRaises := thrownAfter_isSome h.producerRaises, producerFailed := hFailed }

/-- The exception of a `catch` block that goes on was recorded. -/
theorem recorded_of_failing (h : Flags b) (hFailing : b.producer = .failing)
    (hRecorded : b.producerError = none) : b.coordination.error.isSome = true := by
  have hRaises := h.producerRaises (by rw [hFailing]; rfl)
  rw [hRecorded] at hRaises
  exact hRaises.resolve_left nofun

theorem produceTurn (h : Flags b) {record : FrameRecord} {o' : Outline} (fault : String)
    (hTurn : ProduceTurn record b.toOutline o') :
    Flags { b with
      toOutline := o', record := none
      producerError := CoordinatedExchange.thrownAfter b.producer.raises o'.producer.raises fault
        b.producerError } := by
  cases hTurn with
  | blocked => exact h.withProducer fault nofun nofun h.channelClosed h.slotsClosed
  | acquired hTurn =>
    cases hTurn <;> exact h.withProducer fault nofun nofun h.channelClosed h.slotsClosed

theorem producerTurn (h : Flags b) {o' : Outline} (fault : String)
    (hRecorded : b.producer = .failing → b.producerError = none)
    (hTurn : ProducerTurn b.toOutline o') :
    Flags { b with
      toOutline := o'
      producerError := CoordinatedExchange.thrownAfter b.producer.raises o'.producer.raises fault
        b.producerError } := by
  cases hTurn with
  | acquired hProducer hTurn =>
    cases hTurn <;> exact h.withProducer fault nofun nofun h.channelClosed h.slotsClosed
  | wrote | sized | oversized | rejected | sent | published | late | unwound =>
    exact h.withProducer fault nofun nofun h.channelClosed h.slotsClosed
  | failed hProducer =>
    have hError := h.recorded_of_failing hProducer (hRecorded hProducer)
    exact h.withProducer fault (fun _ => h.failed hError) (fun _ => hError)
      (fun _ => h.failed hError) h.slotsClosed
  | ended hProducer =>
    have hStop := h.failed (h.producerFailed hProducer)
    exact h.withProducer fault (fun _ => hStop) nofun h.channelClosed fun _ => hStop
  | closed hProducer =>
    have hStop : b.coordination.stopRequested = true :=
      h.producerOver (by rw [show b.producer = _ from hProducer]; rfl)
    exact h.withProducer fault (fun _ => hStop) nofun (fun _ => hStop) h.slotsClosed

/-- The consumer goes on. -/
theorem withConsumer (h : Flags b) {consumer : Consumer} {queued reads checked : List Frame}
    {taken : Option Frame} {channelClosed slotsClosed acknowledges : Bool} (fault : String)
    (hOver : consumer = .stopped → b.coordination.stopRequested = true)
    (hFailed : consumer = .failed → b.coordination.error.isSome = true)
    (hChannel : channelClosed = true → b.coordination.stopRequested = true)
    (hSlots : slotsClosed = true → b.coordination.stopRequested = true) :
    Flags { b with
      consumer, queued, reads, taken, channelClosed, slotsClosed, acknowledges, checked
      consumerError :=
        CoordinatedExchange.thrownAfter b.consumer.raises consumer.raises fault b.consumerError } :=
  { h with
    channelClosed := hChannel, slotsClosed := hSlots, consumerOver := hOver
    consumerRaises := thrownAfter_isSome h.consumerRaises, consumerFailed := hFailed }

theorem consumerTurn (h : Flags b) {o' : Outline} {checks acknowledges : Bool}
    {checked : List Frame} (fault : String)
    (hRecorded : b.consumer = .failing → b.consumerError = none)
    (hTurn : ConsumerTurn checks b.toOutline o') :
    Flags { b with
      toOutline := o', acknowledges, checked
      consumerError := CoordinatedExchange.thrownAfter b.consumer.raises o'.consumer.raises fault
        b.consumerError } := by
  cases hTurn with
  | drained hConsumer hClosed hEmpty =>
    have hStop := h.channelClosed hClosed
    cases checks <;>
      exact h.withConsumer fault (fun _ => hStop) nofun h.channelClosed h.slotsClosed
  | received | asked | granted | refused | read =>
    exact h.withConsumer fault nofun nofun h.channelClosed h.slotsClosed
  | @released lease checked hConsumer =>
    cases checked <;> exact h.withConsumer fault nofun nofun h.channelClosed h.slotsClosed
  | failed hConsumer =>
    have hRaises := h.consumerRaises (by rw [show b.consumer = _ from hConsumer]; rfl)
    rw [hRecorded hConsumer] at hRaises
    have hError : b.coordination.error.isSome = true := hRaises.resolve_left nofun
    exact h.withConsumer fault nofun (fun _ => hError) (fun _ => h.failed hError) h.slotsClosed
  | ended hConsumer =>
    have hStop := h.failed (h.consumerFailed hConsumer)
    exact h.withConsumer fault (fun _ => hStop) nofun h.channelClosed fun _ => hStop

-- ---------------------------------------------------------------------------
-- Every step
-- ---------------------------------------------------------------------------

/-- While nobody has halted the exchange nothing is closed and no thread has ended. -/
theorem goes_on (h : Flags b) (hGoes : b.coordination.stopRequested = false) :
    b.channelClosed = false ∧ b.slotsClosed = false ∧ b.producer.over = false := by
  have hNot : ∀ {flag : Bool}, (flag = true → b.coordination.stopRequested = true) →
      flag = false := by
    intro flag hFlag
    cases flag with
    | false => rfl
    | true => cases hGoes.symm.trans (hFlag rfl)
  exact ⟨hNot h.channelClosed, hNot h.slotsClosed, hNot h.producerOver⟩

/-- The owner hands over a record only while nobody has halted the exchange. -/
theorem not_halted (h : Flags b) (hOwner : b.owner.stops = false) (hOpen : b.stopped = false)
    (hError : b.coordination.error = none) : b.coordination.stopRequested = false := by
  by_contra hStop
  rcases h.reason (Bool.eq_true_of_not_eq_false hStop) with hSome | hStopped | hStops
  · rw [hError] at hSome
    cases hSome
  · cases hOpen.symm.trans hStopped
  · cases hOwner.symm.trans hStops

theorem step (h : Flags b) (hStep : BoardStep b b') : Flags b' := by
  cases hStep with
  | refused record error hOwner => exact { h with }
  | accepted tick worldHash hOwner hOpen hError hPending hFlight =>
    have hGoes := h.not_halted (by rw [hOwner]; rfl) hOpen hError
    have hNever : ∀ {P : Prop}, b.coordination.stopRequested = true → P := fun hStop =>
      nomatch hGoes.symm.trans hStop
    exact { h with
      halted := fun hStop => hNever hStop
      reason := fun hStop => hNever hStop
      inFlight := fun _ => rfl
      publishing := fun _ => hOpen
      abandoned := fun _ hWaits => nomatch hWaits
      stopping := nofun }
  | published hOwner hFlight hError =>
    have hOpen := h.publishing (by rw [hOwner]; rfl)
    refine h.withOwner _ (fun hTrue => nomatch hFlight.symm.trans hTrue) (fun hStop => ?_) nofun
      nofun
    refine (h.reason hStop).imp_right fun hRest => hRest.imp_right fun hStops => ?_
    rw [hOwner] at hStops
    cases hStops
  | @rethrown record error hOwner hError =>
    have hSome : b.coordination.error.isSome = true := by
      rw [hError]
      rfl
    have hFlight := (h.halted (h.failed hSome)).2
    exact h.withOwner _ (fun hTrue => nomatch hFlight.symm.trans hTrue) (fun _ => Or.inl hSome)
      nofun nofun
  | timedOut error hOwner hFlight hError =>
    have hOpen := h.publishing (by rw [hOwner]; rfl)
    exact h.halt _ (Or.inl rfl) (fun _ => Or.inl rfl) (fun _ => Or.inl rfl)
      fun _ => ⟨hOpen, fun _ => rfl⟩
  | abandoned hOwner =>
    have hOpen := h.publishing (by rw [hOwner]; rfl)
    have hSome := h.abandoned (by rw [hOwner]; rfl) (by rw [hOwner]; rfl)
    have hFlight := (h.halted (h.failed hSome)).2
    refine Flags.withOwner (h.withClosed (fun _ => h.failed hSome) h.slotsClosed) _ ?_
      (fun _ => Or.inl hSome) (fun _ => ⟨hOpen, fun _ => hSome⟩) nofun
    exact fun hTrue => nomatch hFlight.symm.trans hTrue
  | gaveUp hOwner =>
    have hSome := h.abandoned (by rw [hOwner]; rfl) (by rw [hOwner]; rfl)
    have hFlight := (h.halted (h.failed hSome)).2
    refine Flags.withOwner (h.withClosed h.channelClosed fun _ => h.failed hSome) _ ?_
      (fun _ => Or.inl hSome) nofun nofun
    exact fun hTrue => nomatch hFlight.symm.trans hTrue
  | stopRequested noexcept hOwner =>
    exact h.halt _ (Or.inr rfl) (fun _ => Or.inr rfl) (fun _ => Or.inr rfl) nofun
  | stopping hOwner =>
    have hStop := h.stopping (by rw [hOwner]; rfl)
    refine Flags.withOwner (h.withClosed (fun _ => hStop) h.slotsClosed) _ ?_
      (fun _ => Or.inr (Or.inr rfl)) nofun fun _ => hStop
    exact fun hTrue => nomatch (h.halted hStop).2.symm.trans hTrue
  | stoppingSlots hOwner =>
    have hStop := h.stopping (by rw [hOwner]; rfl)
    refine Flags.withOwner (h.withClosed h.channelClosed fun _ => hStop) _ ?_
      (fun _ => Or.inr (Or.inr rfl)) nofun fun _ => hStop
    exact fun hTrue => nomatch (h.halted hStop).2.symm.trans hTrue
  | joined terminated result hOwner hProducer hConsumer hQuiet =>
    have hStop := h.stopping (by rw [hOwner]; rfl)
    exact { h with
      reason := fun _ => Or.inr (Or.inl rfl)
      inFlight := fun hTrue => nomatch (h.halted hStop).2.symm.trans hTrue
      publishing := nofun
      abandoned := nofun
      stopping := nofun }
  | took hIdle hNone hPending =>
    exact { h with halted := fun hStop => ⟨rfl, (h.halted hStop).2⟩ }
  | gave fault hIdle hRecord hTurn => exact h.produceTurn fault hTurn
  | left hIdle hNone hPending hStop =>
    exact { h with
      producerOver := fun _ => hStop, producerRaises := nofun, producerFailed := nofun }
  | producerFailed hFailing hError =>
    exact h.halt b.owner (Or.inl rfl) (fun _ => Or.inl rfl) (fun _ => Or.inl rfl)
      fun hSome => ⟨h.publishing hSome, fun _ => rfl⟩
  | produced fault hRecorded hTurn => exact h.producerTurn fault hRecorded hTurn
  | acknowledged hReleased =>
    exact { h with
      halted := fun hStop => ⟨(h.halted hStop).1, rfl⟩
      inFlight := nofun }
  | consumerFailed hFailing hError =>
    exact h.halt b.owner (Or.inl rfl) (fun _ => Or.inl rfl) (fun _ => Or.inl rfl)
      fun hSome => ⟨h.publishing hSome, fun _ => rfl⟩
  | consumed hNone hRecorded hJudges hTurn => exact h.consumerTurn _ hRecorded hTurn

end Flags

end Ithax.Threading
