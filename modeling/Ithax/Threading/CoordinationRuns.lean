import Ithax.Threading.CoordinationTicks

/-!
# Runs of the coordinated exchange

Whatever the owner calls and however the three threads take turns, the records for which
`Publish` comes back are those that the consumer has read and checked, in the order in
which they were handed over. `Stop` comes back only after all the ticks that were
expected, and the pool is quiescent when the exchange goes away.

## Results

* `exchange_of_step`  — a step is at most one step of the exchange of the two threads.
* `published_of_run`  — what `Publish` comes back for was read and checked, in order.
* `stopped_of_run`    — `Stop` comes back only after every expected tick.
* `stop_of_run`       — `StopNoexcept` never terminates the program.
-/

namespace Ithax.Threading

open Ithax.Lib

theorem BoardStep.fixed {b b' : Board} (h : BoardStep b b') :
    b'.firstTick = b.firstTick ∧ b'.endTick = b.endTick := by
  cases h <;> exact ⟨rfl, rfl⟩

namespace CoordinatedExchange

/-- The records for which `Publish` has come back. -/
def published (s : CoordinatedExchange) : List FrameRecord := s.board.published

variable {s s' : CoordinatedExchange} {event : Event}

-- ---------------------------------------------------------------------------
-- The two threads
-- ---------------------------------------------------------------------------

theorem exchange_of_owner (hStep : s.stepOwner = some s') :
    s'.exchange = s.exchange ∨ ∃ move, s.exchange.step move = some s'.exchange := by
  unfold stepOwner at hStep
  split at hStep
  · cases hStep
  · split at hStep
    · obtain rfl := Option.some.inj hStep
      unfold resume
      split <;> exact Or.inl rfl
    · cases hStep
  · obtain ⟨exchange, hClose, hNext⟩ := Option.bind_eq_some_iff.mp hStep
    obtain rfl := Option.some.inj hNext
    exact Or.inr ⟨_, hClose⟩
  · obtain ⟨exchange, hClose, hNext⟩ := Option.bind_eq_some_iff.mp hStep
    obtain rfl := Option.some.inj hNext
    exact Or.inr ⟨_, hClose⟩
  · obtain ⟨exchange, hClose, hNext⟩ := Option.bind_eq_some_iff.mp hStep
    obtain rfl := Option.some.inj hNext
    exact Or.inr ⟨_, hClose⟩
  · obtain ⟨exchange, hClose, hNext⟩ := Option.bind_eq_some_iff.mp hStep
    obtain rfl := Option.some.inj hNext
    exact Or.inr ⟨_, hClose⟩
  · split at hStep
    · split at hStep <;> obtain rfl := Option.some.inj hStep <;> exact Or.inl rfl
    · cases hStep

/-- A step is at most one step of the two threads over the pool and the channel. -/
theorem exchange_of_step (h : s.exchange.Regular) (hStep : s.step event = some s') :
    s'.exchange = s.exchange ∨ ∃ move, s.exchange.step move = some s'.exchange := by
  have hRunning : s.exchange.terminated = false := h.sound.running
  unfold step at hStep
  split at hStep
  · cases hStep
  cases event with
  | publish tick worldHash =>
    simp only at hStep
    split at hStep
    · obtain rfl := Option.some.inj hStep
      unfold publish
      split
      · exact Or.inl rfl
      · split
        · exact Or.inl rfl
        · split <;> exact Or.inl rfl
    · cases hStep
  | stop noexcept =>
    simp only at hStep
    split at hStep
    · cases hStep
    · split at hStep <;> obtain rfl := Option.some.inj hStep <;> exact Or.inl rfl
  | timeOut =>
    simp only at hStep
    split at hStep
    · split at hStep
      · cases hStep
      · obtain rfl := Option.some.inj hStep
        exact Or.inl rfl
    · cases hStep
  | owner => exact exchange_of_owner hStep
  | producer =>
    cases producerStep_of_step h hStep with
    | took | recorded => exact Or.inl rfl
    | gave fault hRecord hOne => exact Or.inr ⟨_, hOne⟩
    | left hIdle =>
      refine Or.inr ⟨.stop, ?_⟩
      unfold FrameExchange.step
      rw [if_neg (by rw [hRunning]; decide)]
      simp only [hIdle, if_true]
    | turned fault hRecorded hOne =>
      exact Or.inr ⟨.producer, (FrameExchange.step_producer h).trans hOne⟩
  | consumer =>
    cases consumerStep_of_step h hStep with
    | acknowledged | recorded => exact Or.inl rfl
    | turned hNone hRecorded hFault hOne =>
      exact Or.inr ⟨_, (FrameExchange.step_consumer h _).trans hOne⟩

-- ---------------------------------------------------------------------------
-- What holds of every exchange
-- ---------------------------------------------------------------------------

/-- What holds of an exchange in every state of every run. -/
structure Orderly (s : CoordinatedExchange) : Prop where
  regular : s.exchange.Regular
  settled : s.exchange.outline.Settled
  capacity : s.exchange.outline.payloadCapacity = FRAME_PAYLOAD_BYTES
  flags : Flags s.board
  accounts : Accounts s.board
  ticks : Ticks s.board
  handed : Handed s.board

/-- The producer is given records that fit a slot. -/
theorem settled_of_board {b b' : Board} (h : b.toOutline.Settled)
    (hCapacity : b.payloadCapacity = FRAME_PAYLOAD_BYTES) (hAccounts : Accounts b)
    (hTicks : Ticks b) (hStep : BoardStep b b') :
    b'.toOutline.Settled ∧ b'.payloadCapacity = FRAME_PAYLOAD_BYTES := by
  cases hStep with
  | refused | accepted | published | rethrown | timedOut | stopRequested | joined | took
  | producerFailed | acknowledged | consumerFailed =>
    exact ⟨h, hCapacity⟩
  | abandoned | stopping => exact ⟨h.closed.1, hCapacity⟩
  | gaveUp | stoppingSlots => exact ⟨h.closed.2, hCapacity⟩
  | @gave record o' fault hIdle hRecord hTurn =>
    have hMem : record ∈ b.accepted := by
      obtain ⟨lost, hAccepted, -⟩ := hAccounts.accounts
      rw [hAccepted]
      simp [Board.underway, hRecord]
    have hFits : record.bytes.length ≤ b.payloadCapacity := by
      obtain ⟨tick, worldHash, rfl⟩ := hTicks.records record hMem
      rw [hCapacity]
      simp [FrameRecord.ofWords, FRAME_PAYLOAD_BYTES]
    cases hTurn with
    | blocked =>
      refine ⟨⟨fun other hHand => ?_, h.failed, h.stopped⟩, hCapacity⟩
      rw [← Option.some.inj hHand]
      exact hFits
    | acquired hTurn => exact ⟨h.acquire hFits hTurn, hTurn.onward.1.trans hCapacity⟩
  | left => exact ⟨h.withProducer (Or.inl rfl), hCapacity⟩
  | produced fault hRecorded hTurn =>
    exact ⟨h.producerTurn hTurn, hTurn.onward.1.trans hCapacity⟩
  | consumed hNone hRecorded hJudges hTurn =>
    exact ⟨h.consumerTurn hTurn, hTurn.onward.1.trans hCapacity⟩

theorem Orderly.step (h : Orderly s) (hStep : s.step event = some s') : Orderly s' := by
  have hRegular : s'.exchange.Regular := by
    rcases exchange_of_step h.regular hStep with hSame | ⟨move, hMove⟩
    · exact hSame ▸ h.regular
    · exact h.regular.step hMove
  rcases board_of_step h.regular hStep with hSame | hNext
  · have hOutline : s'.exchange.outline = s.exchange.outline := congrArg Board.toOutline hSame
    exact {
      regular := hRegular
      settled := hOutline ▸ h.settled
      capacity := hOutline ▸ h.capacity
      flags := hSame ▸ h.flags
      accounts := hSame ▸ h.accounts
      ticks := hSame ▸ h.ticks
      handed := hSame ▸ h.handed }
  · obtain ⟨hSettled, hCapacity⟩ :=
      settled_of_board h.settled h.capacity h.accounts h.ticks hNext
    exact {
      regular := hRegular
      settled := hSettled
      capacity := hCapacity
      flags := h.flags.step hNext
      accounts := h.accounts.step h.flags hNext
      ticks := h.ticks.step h.accounts h.flags hNext
      handed := h.handed.step h.accounts h.ticks h.flags hNext }

section Run

variable {firstTick : UInt64} {expectedFrames : UInt32} {poolId : Nat} {threads : Role → ThreadId}
  {events : List Event}

theorem orderly_start {slots : FrameSlotPool} {channel : FramePacketChannel}
    (hSlots : FrameSlotPool.create FRAME_SLOT_COUNT FRAME_PAYLOAD_BYTES poolId = .ok slots)
    (hChannel : FramePacketChannel.create FRAME_CHANNEL_CAPACITY = .ok channel) :
    Orderly {
      exchange := { slots, channel, threads }, firstTick, expectedFrames, expectedTick := firstTick
      : CoordinatedExchange } := by
  have hRegular : FrameExchange.Regular { slots, channel, threads } :=
    FrameExchange.regular_start hSlots hChannel
  obtain rfl := FrameSlotPool.create_eq_ok hSlots
  unfold FramePacketChannel.create at hChannel
  rw [if_neg (by decide)] at hChannel
  obtain rfl := Except.ok.inj hChannel
  exact {
    regular := hRegular
    settled := ⟨nofun, nofun, nofun⟩
    capacity := rfl
    flags := ⟨nofun, nofun, nofun, nofun, nofun, nofun, nofun, nofun, nofun, nofun, nofun, nofun,
      nofun, nofun, nofun⟩
    accounts := {
      taken := fun _ => rfl
      accounts := ⟨[], rfl, Nat.zero_le _, fun hSome => absurd rfl hSome⟩
      flight := fun _ => ⟨nofun, by rintro (hSome | hRaises | hBusy | hAck) <;> contradiction⟩
      acknowledged := nofun
      quiet := fun _ hBusy => by rcases hBusy with hBusy | hAck <;> contradiction
      raised := fun _ => nofun
      sent := fun _ _ _ => nofun
      through := nofun }
    ticks := {
      records := nofun
      expected := rfl
      ticks := nofun
      reads := Or.inl rfl
      ended := nofun }
    handed := {
      opened := ⟨[], rfl, nofun, fun _ => Or.inl rfl⟩
      read := List.nil_prefix
      closing := nofun
      terminated := rfl
      finished := nofun
      failed := nofun } }

/-- What holds of every exchange in every state of every run. -/
theorem orderly_of_run (h : run firstTick expectedFrames poolId threads events = some s) :
    Orderly s ∧ s.firstTick = firstTick ∧
      s.board.endTick = firstTick + expectedFrames.toUInt64 := by
  unfold run at h
  obtain ⟨slots, hSlots, hRest⟩ := Option.bind_eq_some_iff.mp h
  obtain ⟨channel, hChannel, hRun⟩ := Option.bind_eq_some_iff.mp hRest
  refine runEvents_invariant (I := fun s => Orderly s ∧ s.firstTick = firstTick ∧
    s.board.endTick = firstTick + expectedFrames.toUInt64) (fun {s event s'} hAll hStep => ?_)
    ⟨orderly_start (eq_ok_of_toOption hSlots) (eq_ok_of_toOption hChannel), rfl, rfl⟩ hRun
  obtain ⟨hOrderly, hFirst, hEnd⟩ := hAll
  refine ⟨hOrderly.step hStep, ?_⟩
  rcases board_of_step hOrderly.regular hStep with hSame | hNext
  · exact ⟨(congrArg Board.firstTick hSame).trans hFirst, (congrArg Board.endTick hSame).trans hEnd⟩
  · exact ⟨hNext.fixed.1.trans hFirst, hNext.fixed.2.trans hEnd⟩

/-- Every record for which `Publish` has come back was read by the consumer and passed its
checks, in the order in which the records were handed over and with the ticks from the
first one on. One record at most is on its way or lost. -/
theorem published_of_run (h : run firstTick expectedFrames poolId threads events = some s) :
    s.published <+: s.checked.map Frame.record ∧ s.checked <+: s.exchange.reads ∧
      s.exchange.reads.map Frame.record <+: s.accepted ∧
      s.accepted.length ≤ s.published.length + 1 ∧
      ∀ (i : Nat) (frame : Frame), s.checked[i]? = some frame →
        ∃ worldHash, frame.record = .ofWords (firstTick + .ofNat i) worldHash := by
  obtain ⟨hOrderly, rfl, -⟩ := orderly_of_run h
  refine ⟨hOrderly.handed.read, ?_, ?_, ?_, hOrderly.ticks.ticks⟩
  · rcases hOrderly.ticks.reads with hSame | ⟨-, -, frame, hMore⟩
    · rw [show s.exchange.reads = s.checked from hSame]
    · exact ⟨[frame], hMore.symm⟩
  · obtain ⟨lost, hAccepted, -⟩ := hOrderly.accounts.accounts
    exact ⟨_, (hAccepted.trans (List.append_assoc _ _ _)).symm⟩
  · obtain ⟨opened, hAccepted, hSome, hNone⟩ := hOrderly.handed.opened
    rw [show s.accepted = s.published ++ opened from hAccepted, List.length_append]
    cases hRecord : s.board.owner.record with
    | some record =>
      rw [hSome record hRecord]
      rfl
    | none =>
      rcases hNone hRecord with rfl | ⟨-, hOne⟩
      · exact Nat.le_succ _
      · rw [hOne]

/-- The owner publishes a record, the producer sends its frame, and the consumer reads it. -/
def passFrame (tick worldHash : UInt64) : List Event :=
  [.publish tick worldHash, .producer, .producer, .producer, .producer, .producer, .producer,
    .consumer, .consumer, .consumer, .consumer, .consumer, .owner]

/-- The owner asks both threads to stop, and they end. -/
def stopThreads : List Event := [.stop false, .owner, .owner, .producer, .producer, .consumer]

/-- One frame, before both threads stop. -/
def oneFrame : List Event := passFrame 7 99 ++ stopThreads

/-- Two frames in the same slot, before both threads stop. -/
def twoFrames : List Event := passFrame 7 99 ++ passFrame 8 100 ++ stopThreads

/-- The slot of the first frame is used again for the second, under its next generation. -/
theorem published_of_run_twoFrames : ∃ s,
    run 7 2 0 (fun role => if role = .producer then 10 else 20) twoFrames = some s ∧
    s.published = [.ofWords 7 99, .ofWords 8 100] ∧
    (s.exchange.reads.map fun frame => frame.packet.slot) =
      [some { slotId := 0, generation := 1, poolId := 0 },
        some { slotId := 0, generation := 2, poolId := 0 }] ∧
    s.published <+: s.checked.map Frame.record ∧ s.checked <+: s.exchange.reads ∧
    s.exchange.reads.map Frame.record <+: s.accepted ∧
    s.accepted.length ≤ s.published.length + 1 ∧
    ∀ (i : Nat) (frame : Frame), s.checked[i]? = some frame →
      ∃ worldHash, frame.record = .ofWords (7 + .ofNat i) worldHash := by
  obtain ⟨s, hRun, hPublished, hSlots⟩ : ∃ s,
      run 7 2 0 (fun role => if role = .producer then 10 else 20) twoFrames = some s ∧
      s.published = [.ofWords 7 99, .ofWords 8 100] ∧
      (s.exchange.reads.map fun frame => frame.packet.slot) =
        [some { slotId := 0, generation := 1, poolId := 0 },
          some { slotId := 0, generation := 2, poolId := 0 }] := ⟨_, rfl, rfl, rfl⟩
  exact ⟨s, hRun, hPublished, hSlots, published_of_run hRun⟩

/-- When `Stop` has come back, nothing that was handed over is on its way. -/
theorem Orderly.all_of_stopped (h : Orderly s) (hStopped : .stopped ∈ s.calls) :
    s.accepted = s.published ∧ s.published = s.checked.map Frame.record ∧
      s.exchange.reads = s.checked := by
  have hFinished := h.handed.finished hStopped
  have hOpen : s.board.owner.record = none := by
    cases hOwner : s.board.owner.record with
    | none => rfl
    | some record =>
      cases hFinished.stopped.symm.trans (h.flags.publishing (by rw [hOwner]; rfl))
  exact h.handed.all h.accounts h.ticks hOpen hFinished.error

/-- When `Stop` has come back, the records for which `Publish` has come back are as many as
were expected, as far as 64 bits tell, and they are all that was handed over and all that
the consumer has read. Both threads have ended and every slot is free. -/
theorem stopped_of_run (h : run firstTick expectedFrames poolId threads events = some s)
    (hStopped : .stopped ∈ s.calls) :
    UInt64.ofNat s.published.length = expectedFrames.toUInt64 ∧ s.accepted = s.published ∧
      s.exchange.reads.map Frame.record = s.published ∧ s.exchange.producer = .stopped ∧
      s.exchange.consumer = .stopped ∧ s.exchange.slots.isQuiescent = true ∧
      s.coordination.error = none := by
  obtain ⟨hOrderly, rfl, hEnd⟩ := orderly_of_run h
  have hFinished := hOrderly.handed.finished hStopped
  obtain ⟨hAccepted, hChecked, hReads⟩ := hOrderly.all_of_stopped hStopped
  have hQueued : s.exchange.queued = [] :=
    (hOrderly.accounts.through (by rw [hFinished.consumer]; rfl)).1
  refine ⟨?_, hAccepted, ?_, hFinished.producer, hFinished.consumer,
    hOrderly.regular.quiescent hFinished.producer hFinished.consumer hQueued, hFinished.error⟩
  · have hExpected := hOrderly.ticks.expected
    have hPassing : s.board.passing = false := by
      unfold Board.passing
      rw [hFinished.consumer, Bool.or_eq_false_iff]
      refine ⟨rfl, ?_⟩
      by_contra hAck
      cases hFinished.consumer.symm.trans
        (hOrderly.accounts.acknowledged (Bool.eq_true_of_not_eq_false hAck))
    rw [hPassing, hFinished.ticks, hEnd] at hExpected
    simp only [Bool.false_eq_true, if_false, UInt64.add_zero] at hExpected
    rw [hChecked, List.length_map]
    exact (UInt64.add_right_inj _).mp hExpected
  · rw [hReads]
    exact hChecked.symm

/-- `Stop` has come back after the two frames that were expected. -/
theorem stopped_of_run_twoFrames : ∃ s,
    run 7 2 0 (fun role => if role = .producer then 10 else 20) (twoFrames ++ [.owner]) = some s ∧
    s.published = [.ofWords 7 99, .ofWords 8 100] ∧ s.accepted = s.published ∧
    s.exchange.reads.map Frame.record = s.published ∧
    s.exchange.slots.isQuiescent = true ∧ s.coordination.error = none := by
  obtain ⟨s, hRun, hPublished, hStopped⟩ : ∃ s,
      run 7 2 0 (fun role => if role = .producer then 10 else 20) (twoFrames ++ [.owner]) = some s ∧
      s.published = [.ofWords 7 99, .ofWords 8 100] ∧ .stopped ∈ s.calls :=
    ⟨_, rfl, rfl, List.mem_of_getLast? rfl⟩
  obtain ⟨-, hAccepted, hReads, -, -, hQuiescent, hError⟩ := stopped_of_run hRun hStopped
  exact ⟨s, hRun, hPublished, hAccepted, hReads, hQuiescent, hError⟩

/-- `StopNoexcept` never terminates the program, and what `Stop` throws is what one of the
threads has recorded, or a call of `Publish` that has given up. -/
theorem stop_of_run (h : run firstTick expectedFrames poolId threads events = some s) :
    s.terminated = false ∧ s.exchange.terminated = false ∧
      ∀ error, .failed error ∈ s.calls → s.coordination.error = some error := by
  obtain ⟨hOrderly, -, -⟩ := orderly_of_run h
  exact ⟨hOrderly.handed.terminated, hOrderly.regular.sound.running, hOrderly.handed.failed⟩

/-- One frame where two are expected: the consumer throws at the end. -/
theorem stop_of_run_oneFrame : ∃ s,
    run 7 2 0 (fun role => if role = .producer then 10 else 20)
      (oneFrame ++ [.consumer, .consumer, .consumer, .owner]) = some s ∧
    .failed "frame consumer did not receive every integration tick" ∈ s.calls ∧
    s.coordination.error = some "frame consumer did not receive every integration tick" ∧
    s.terminated = false := by
  obtain ⟨s, hRun, hFailed⟩ : ∃ s,
      run 7 2 0 (fun role => if role = .producer then 10 else 20)
        (oneFrame ++ [.consumer, .consumer, .consumer, .owner]) = some s ∧
      .failed "frame consumer did not receive every integration tick" ∈ s.calls :=
    ⟨_, rfl, List.mem_cons_of_mem _ List.mem_cons_self⟩
  obtain ⟨hAlive, -, hErrors⟩ := stop_of_run hRun
  exact ⟨s, hRun, hFailed, hErrors _ hFailed, hAlive⟩

end Run

end CoordinatedExchange

end Ithax.Threading
