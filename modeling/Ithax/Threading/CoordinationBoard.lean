import Ithax.Threading.Coordination

/-!
# What can be seen of the coordinated exchange

The steps of the coordinated exchange as seen from outside the pool and the channel: the
outline of the two threads, the coordination, the owner, and what each of them still has
to do.

## Results

* `board_of_step`  — every step is one of the steps listed here, or a section that waits.
-/

namespace Ithax.Threading

open Ithax.Lib

/-- The outline of the exchange, with the members of the coordination and of the owner. -/
structure Board extends Outline where
  firstTick : UInt64
  /-- The tick after the last one that is expected. -/
  endTick : UInt64
  coordination : FrameCoordination
  owner : Owner
  stopped : Bool
  terminated : Bool
  record : Option FrameRecord
  producerError : Option String
  consumerError : Option String
  expectedTick : UInt64
  acknowledges : Bool
  accepted : List FrameRecord
  checked : List Frame
  calls : List CallResult

/-- The board of a state. -/
def CoordinatedExchange.board (s : CoordinatedExchange) : Board where
  toOutline := s.exchange.outline
  firstTick := s.firstTick
  endTick := s.firstTick + s.expectedFrames.toUInt64
  coordination := s.coordination
  owner := s.owner
  stopped := s.stopped
  terminated := s.terminated
  record := s.record
  producerError := s.producerError
  consumerError := s.consumerError
  expectedTick := s.expectedTick
  acknowledges := s.acknowledges
  accepted := s.accepted
  checked := s.checked
  calls := s.calls

/-- The first section of `AcquireWrite` waits, or comes back. -/
inductive ProduceTurn (record : FrameRecord) (o : Outline) : Outline → Prop where
  | blocked : ProduceTurn record o { o with producer := .acquiring record }
  | acquired {o' : Outline} (hTurn : AcquireTurn record o o') : ProduceTurn record o o'

/-- What a section of the consumer goes by, and what it throws. -/
structure Judges (b : Board) (checks : Bool) (fault : String) : Prop where
  drained : b.consumer = .idle → b.channelClosed = true → b.queued = [] →
    checks = decide (b.expectedTick = b.endTick) ∧
      fault = "frame consumer did not receive every integration tick"
  read : ∀ frame lease, b.taken = some frame → b.consumer = .reading frame.packet lease →
    (checks = true ↔ recordFault b.expectedTick frame.packet frame.payload = none)

/-- What a step may do to the board. -/
inductive BoardStep (b : Board) : Board → Prop where
  -- the owner
  | refused (record : FrameRecord) (error : String) (hOwner : b.owner = .ready)
      (hHalted : b.stopped = true ∨ b.coordination.error.isSome = true ∨
        b.coordination.pending.isSome = true ∨ b.coordination.inFlight = true) :
      BoardStep b { b with calls := b.calls ++ [.refused record error] }
  | accepted (tick worldHash : UInt64) (hOwner : b.owner = .ready) (hOpen : b.stopped = false)
      (hError : b.coordination.error = none) (hPending : b.coordination.pending = none)
      (hFlight : b.coordination.inFlight = false) :
      BoardStep b { b with
        coordination := { b.coordination with
          pending := some (.ofWords tick worldHash), inFlight := true }
        owner := .publishing (.ofWords tick worldHash)
        accepted := b.accepted ++ [.ofWords tick worldHash] }
  | published {record : FrameRecord} (hOwner : b.owner = .publishing record)
      (hFlight : b.coordination.inFlight = false) (hError : b.coordination.error = none) :
      BoardStep b { b with owner := .ready, calls := b.calls ++ [.published record] }
  | rethrown {record : FrameRecord} {error : String} (hOwner : b.owner = .publishing record)
      (hError : b.coordination.error = some error) :
      BoardStep b { b with owner := .ready, calls := b.calls ++ [.refused record error] }
  | timedOut {record : FrameRecord} (error : String) (hOwner : b.owner = .publishing record)
      (hFlight : b.coordination.inFlight = true) (hError : b.coordination.error = none) :
      BoardStep b { b with
        coordination := b.coordination.halt (some error), owner := .abandoning record error }
  | abandoned {record : FrameRecord} {error : String}
      (hOwner : b.owner = .abandoning record error) :
      BoardStep b { b with channelClosed := true, owner := .abandoned record error }
  | gaveUp {record : FrameRecord} {error : String} (hOwner : b.owner = .abandoned record error) :
      BoardStep b { b with
        slotsClosed := true, owner := .ready, calls := b.calls ++ [.refused record error] }
  | stopRequested (noexcept : Bool) (hOwner : b.owner = .ready) :
      BoardStep b { b with coordination := b.coordination.halt none, owner := .stopping noexcept }
  | stopping {noexcept : Bool} (hOwner : b.owner = .stopping noexcept) :
      BoardStep b { b with channelClosed := true, owner := .stoppingSlots noexcept }
  | stoppingSlots {noexcept : Bool} (hOwner : b.owner = .stoppingSlots noexcept) :
      BoardStep b { b with slotsClosed := true, owner := .joining noexcept }
  | joined {noexcept : Bool} (terminated : Bool) (result : List CallResult)
      (hOwner : b.owner = .joining noexcept) (hProducer : b.producer = .stopped)
      (hConsumer : b.consumer = .stopped)
      (hQuiet : b.channelClosed = true → b.queued = [] → terminated = false ∧
        result = if noexcept then []
          else [b.coordination.error.elim .stopped .failed]) :
      BoardStep b { b with
        owner := .ready, stopped := true, terminated, calls := b.calls ++ result }
  -- the producer
  | took {record : FrameRecord} (hIdle : b.producer = .idle) (hNone : b.record = none)
      (hPending : b.coordination.pending = some record) :
      BoardStep b { b with
        record := some record, coordination := { b.coordination with pending := none } }
  | gave {record : FrameRecord} {o' : Outline} (fault : String) (hIdle : b.producer = .idle)
      (hRecord : b.record = some record) (hTurn : ProduceTurn record b.toOutline o') :
      BoardStep b { b with
        toOutline := o', record := none
        producerError := CoordinatedExchange.thrownAfter b.producer.raises o'.producer.raises fault
          b.producerError }
  | left (hIdle : b.producer = .idle) (hNone : b.record = none)
      (hPending : b.coordination.pending = none) (hStop : b.coordination.stopRequested = true) :
      BoardStep b { b with producer := .closing }
  | producerFailed {error : String} (hFailing : b.producer = .failing)
      (hError : b.producerError = some error) :
      BoardStep b { b with
        coordination := b.coordination.halt (some error), producerError := none }
  | produced {o' : Outline} (fault : String)
      (hRecorded : b.producer = .failing → b.producerError = none)
      (hTurn : ProducerTurn b.toOutline o') :
      BoardStep b { b with
        toOutline := o'
        producerError := CoordinatedExchange.thrownAfter b.producer.raises o'.producer.raises fault
          b.producerError }
  -- the consumer
  | acknowledged (hReleased : b.acknowledges = true) :
      BoardStep b { b with
        coordination := { b.coordination with inFlight := false }
        acknowledges := false
        expectedTick := b.expectedTick + 1 }
  | consumerFailed {error : String} (hFailing : b.consumer = .failing)
      (hError : b.consumerError = some error) :
      BoardStep b { b with
        coordination := b.coordination.halt (some error), consumerError := none }
  | consumed {o' : Outline} {checks : Bool} {fault : String} (hNone : b.acknowledges = false)
      (hRecorded : b.consumer = .failing → b.consumerError = none)
      (hJudges : Judges b checks fault) (hTurn : ConsumerTurn checks b.toOutline o') :
      BoardStep b { b with
        toOutline := o'
        consumerError :=
          CoordinatedExchange.thrownAfter b.consumer.raises o'.consumer.raises fault b.consumerError
        acknowledges := b.consumer.releases true
        checked := if b.consumer.reads && checks then o'.reads else b.checked }

namespace CoordinatedExchange

variable {s s' : CoordinatedExchange}

-- ---------------------------------------------------------------------------
-- The checks of the consumer
-- ---------------------------------------------------------------------------

/-- What the consumer checks is the frame in its hand. -/
theorem judges_of_fault (h : s.exchange.Regular) {checks : Bool} {fault : String}
    (hFault : s.exchange.consumerFault s.expectedTick s.ended = (checks, fault)) :
    Judges s.board checks fault := by
  constructor
  · intro hIdle hClosed hEmpty
    have hIdle : s.exchange.consumer = .idle := hIdle
    have hClosed : s.exchange.channel.closed = true := hClosed
    have hEmpty : s.exchange.queued = [] := hEmpty
    unfold FrameExchange.consumerFault at hFault
    rw [hIdle] at hFault
    simp only at hFault
    obtain ⟨channel, -, ⟨hResult, -⟩ | ⟨hResult, -⟩ | ⟨packet, rest, hPackets, -⟩⟩ :=
      h.delivers.carries.consume
    · cases (h.delivers.carries.consume_blocked hResult).1.symm.trans hClosed
    · rw [hResult] at hFault
      obtain ⟨rfl, rfl⟩ := Prod.mk.inj hFault
      exact ⟨rfl, rfl⟩
    · rw [hEmpty] at hPackets
      cases hPackets
  · intro frame lease hTaken hReading
    have hTaken : s.exchange.taken = some frame := hTaken
    have hReading : s.exchange.consumer = .reading frame.packet lease := hReading
    obtain ⟨hUsable, slot, hSlot⟩ := h.delivers.usable_consumer h.sound
      (show s.exchange.consumer.lease = some lease by rw [hReading]; rfl)
    have hFrame := hTaken.symm.trans (h.delivers.reading_frame h.traced hReading hSlot)
    have hPayload : frame.payload = slot.payload.take slot.payloadSize :=
      congrArg Frame.payload (Option.some.inj hFrame)
    have hRead : lease.withToken "read lease is not active"
        (s.exchange.slots.readPayload (s.exchange.threads .consumer)) = .ok frame.payload := by
      unfold FrameLease.withToken FrameSlotPool.readPayload
      rw [if_pos hUsable, FrameSlotPool.heldSlot_eq_ok_iff.mpr hSlot, hPayload]
      rfl
    unfold FrameExchange.consumerFault at hFault
    rw [hReading] at hFault
    simp only [hRead] at hFault
    show checks = true ↔ recordFault s.expectedTick frame.packet frame.payload = none
    split at hFault
    · rename_i what hWhat
      obtain ⟨rfl, -⟩ := Prod.mk.inj hFault
      rw [hWhat]
      exact ⟨nofun, nofun⟩
    · rename_i hNone
      obtain ⟨rfl, -⟩ := Prod.mk.inj hFault
      exact ⟨fun _ => hNone, fun _ => rfl⟩

-- ---------------------------------------------------------------------------
-- Steps
-- ---------------------------------------------------------------------------

/-- A section of the thread in the exchange that leaves all as it was. -/
def Idles (role : Role) (s s' : CoordinatedExchange) : Prop :=
  s.exchange.Waits role ∧ s.exchange.Same s'.exchange ∧ s'.board = s.board

/-- A step of the producer either does nothing to the board or is one of its steps. -/
theorem board_of_producerStep (h : s.exchange.Regular) (hStep : ProducerStep s s') :
    Idles .producer s s' ∨ BoardStep s.board s'.board := by
  cases hStep with
  | took hIdle hNone hPending => exact Or.inr (.took hIdle hNone hPending)
  | @gave record exchange fault hRecord hStep =>
    obtain ⟨hIdle, hTurn⟩ := h.produceTurn hStep
    refine Or.inr (.gave fault hIdle hRecord ?_)
    rcases hTurn with hBlocked | hTurn
    · rw [hBlocked]
      exact .blocked
    · exact .acquired hTurn
  | left hIdle hNone hPending hStop => exact Or.inr (.left hIdle hNone hPending hStop)
  | recorded hFailing hError => exact Or.inr (.producerFailed hFailing hError)
  | @turned exchange fault hRecorded hStep =>
    rcases h.producerTurn hStep with ⟨hWaits, hSame⟩ | hTurn
    · refine Or.inl ⟨hWaits, hSame, ?_⟩
      unfold board
      simp only [hSame.outline, hSame.producer, thrownAfter, Bool.and_not_self, Bool.false_eq_true,
        if_false]
    · exact Or.inr (.produced fault hRecorded hTurn)

/-- So is a step of the consumer. -/
theorem board_of_consumerStep (h : s.exchange.Regular) (hStep : ConsumerStep s s') :
    Idles .consumer s s' ∨ BoardStep s.board s'.board := by
  cases hStep with
  | acknowledged hReleased => exact Or.inr (.acknowledged hReleased)
  | recorded hFailing hError => exact Or.inr (.consumerFailed hFailing hError)
  | @turned exchange checks fault hNone hRecorded hFault hStep =>
    rcases h.consumerTurn hStep with ⟨hWaits, hSame⟩ | hTurn
    · refine Or.inl ⟨hWaits, hSame, ?_⟩
      -- a section that waits neither releases a frame nor reads one
      have hPlace : s.exchange.consumer.releases true = false ∧
          s.exchange.consumer.reads = false := by
        simp only [FrameExchange.Waits] at hWaits
        cases hConsumer : s.exchange.consumer <;> rw [hConsumer] at hWaits <;>
          first | exact ⟨rfl, rfl⟩ | cases hWaits
      unfold board
      simp only [hSame.outline, hSame.consumer, thrownAfter, Bool.and_not_self, hPlace.1, hPlace.2,
        Bool.false_and, Bool.false_eq_true, if_false, hNone]
    · exact Or.inr (.consumed hNone hRecorded (judges_of_fault h hFault) hTurn)

/-- The owner finds the channel empty and the pool quiescent after both threads. -/
theorem stopResult_eq (h : s.exchange.Regular) (hProducer : s.exchange.producer = .stopped)
    (hConsumer : s.exchange.consumer = .stopped) (hClosed : s.exchange.channel.closed = true)
    (hQueued : s.exchange.queued = []) :
    s.stopResult = s.coordination.error.elim .stopped .failed := by
  have hHolds := h.delivers.carries.holds
  have hSize : s.exchange.channel.buffer.size = 0 := by
    rw [hHolds.size_eq_zero_iff, hQueued]
    rfl
  have hQuiet := h.quiescent hProducer hConsumer hQueued
  unfold stopResult
  simp only [hClosed, hSize, hQuiet, not_true_eq_false, if_false, ne_eq]
  cases s.coordination.error <;> rfl

/-- A step of the owner is one of the board. -/
theorem board_of_owner (h : s.exchange.Regular) (hAlive : s.terminated = false)
    (hStep : s.stepOwner = some s') :
    BoardStep s.board s'.board := by
  have hCloseChannel := FrameExchange.step_closeChannel h
  have hCloseSlots := FrameExchange.step_closeSlots h
  unfold stepOwner at hStep
  cases hOwner : s.owner with
  | ready =>
    rw [hOwner] at hStep
    cases hStep
  | publishing record =>
    rw [hOwner] at hStep
    simp only at hStep
    split at hStep
    · rename_i hCompleted
      obtain rfl := Option.some.inj hStep
      unfold resume
      split
      · rename_i error hError
        exact .rethrown hOwner hError
      · rename_i hNone
        have hFlight : s.coordination.inFlight = false := by
          unfold completed at hCompleted
          rw [hNone] at hCompleted
          simpa using hCompleted
        exact .published hOwner hFlight hNone
    · cases hStep
  | abandoning record error =>
    rw [hOwner] at hStep
    simp only [hCloseChannel, Option.bind_eq_bind, Option.bind_some] at hStep
    obtain rfl := Option.some.inj hStep
    exact .abandoned hOwner
  | abandoned record error =>
    rw [hOwner] at hStep
    simp only [hCloseSlots, Option.bind_eq_bind, Option.bind_some] at hStep
    obtain rfl := Option.some.inj hStep
    exact .gaveUp hOwner
  | stopping noexcept =>
    rw [hOwner] at hStep
    simp only [hCloseChannel, Option.bind_eq_bind, Option.bind_some] at hStep
    obtain rfl := Option.some.inj hStep
    exact .stopping hOwner
  | stoppingSlots noexcept =>
    rw [hOwner] at hStep
    simp only [hCloseSlots, Option.bind_eq_bind, Option.bind_some] at hStep
    obtain rfl := Option.some.inj hStep
    exact .stoppingSlots hOwner
  | joining noexcept =>
    rw [hOwner] at hStep
    simp only at hStep
    split at hStep
    · rename_i hBoth
      obtain ⟨hProducer, hConsumer⟩ := hBoth
      cases noexcept with
      | true =>
        obtain rfl := Option.some.inj hStep
        have hNext := BoardStep.joined (b := s.board) (¬s.exchange.slots.isQuiescent) [] hOwner
          hProducer hConsumer fun _ hQueued => by
            have hQuiet := h.quiescent hProducer hConsumer hQueued
            simp [hQuiet]
        rw [List.append_nil] at hNext
        exact hNext
      | false =>
        obtain rfl := Option.some.inj hStep
        refine .joined s.terminated [s.stopResult] hOwner hProducer hConsumer
          fun hClosed hQueued => ?_
        rw [stopResult_eq h hProducer hConsumer hClosed hQueued]
        exact ⟨hAlive, rfl⟩
    · cases hStep

/-- `Publish` is one of the board. -/
theorem board_of_publish (hOwner : s.owner = .ready) (tick worldHash : UInt64) :
    BoardStep s.board (s.publish (.ofWords tick worldHash)).board := by
  have hReady : ∀ result, (s.returned result).board =
      { s.board with calls := s.calls ++ [result] } := by
    intro result
    unfold returned board
    rw [hOwner]
  unfold publish
  split
  · rename_i hStopped
    rw [hReady]
    exact .refused _ _ hOwner (Or.inl hStopped)
  · rename_i hOpen
    split
    · rename_i error hError
      have hSome : s.coordination.error.isSome = true := by
        rw [hError]
        rfl
      rw [hReady]
      exact .refused _ _ hOwner (Or.inr (Or.inl hSome))
    · rename_i hError
      split
      · rename_i hOverlap
        rw [hReady]
        exact .refused _ _ hOwner (Or.inr (Or.inr hOverlap))
      · rename_i hFree
        rw [not_or] at hFree
        exact .accepted tick worldHash hOwner (Bool.eq_false_of_not_eq_true hOpen) hError
          (Option.not_isSome_iff_eq_none.mp hFree.1) (Bool.eq_false_of_not_eq_true hFree.2)

/-- Only a wait for a record runs out of time. -/
theorem board_of_timeOut (hStep : s.step .timeOut = some s') : BoardStep s.board s'.board := by
  unfold step at hStep
  split at hStep
  · cases hStep
  simp only at hStep
  split at hStep
  · rename_i record hOwner
    split at hStep
    · cases hStep
    · rename_i hWaits
      obtain rfl := Option.some.inj hStep
      unfold completed at hWaits
      have hBoth : s.coordination.inFlight = true ∧ s.coordination.error = none := by
        simpa using hWaits
      have hNext := BoardStep.timedOut (b := s.board) "frame exchange did not complete in time"
        hOwner hBoth.1 hBoth.2
      unfold timeOut
      rw [hBoth.2]
      exact hNext
  · cases hStep

/-- Every step is one of the board, or leaves it as it is. -/
theorem board_of_step (h : s.exchange.Regular) {event : Event} (hStep : s.step event = some s') :
    s'.board = s.board ∨ BoardStep s.board s'.board := by
  have hOther := hStep
  unfold step at hStep
  split at hStep
  · cases hStep
  rename_i hAlive
  have hAlive := Bool.eq_false_of_not_eq_true hAlive
  cases event with
  | publish tick worldHash =>
    simp only at hStep
    split at hStep
    · rename_i hOwner
      obtain rfl := Option.some.inj hStep
      exact Or.inr (board_of_publish hOwner tick worldHash)
    · cases hStep
  | stop noexcept =>
    simp only at hStep
    split at hStep
    · cases hStep
    · rename_i hOwner
      rw [not_not] at hOwner
      split at hStep <;> obtain rfl := Option.some.inj hStep
      · exact Or.inl rfl
      · exact Or.inr (.stopRequested noexcept hOwner)
  | timeOut => exact Or.inr (board_of_timeOut hOther)
  | owner => exact Or.inr (board_of_owner h hAlive hStep)
  | producer =>
    rcases board_of_producerStep h (producerStep_of_step h hStep) with ⟨-, -, hSame⟩ | hNext
    · exact Or.inl hSame
    · exact Or.inr hNext
  | consumer =>
    rcases board_of_consumerStep h (consumerStep_of_step h hStep) with ⟨-, -, hSame⟩ | hNext
    · exact Or.inl hSame
    · exact Or.inr hNext

end CoordinatedExchange

end Ithax.Threading
