import Ithax.Threading.CoordinationHealth

/-!
# A whole session

The owner publishes as many records as are expected, tick by tick, and stops the exchange.
If no wait runs out of time, every call comes back without an exception, and the consumer
has read exactly these records, however the three threads took turns.

## Results

* `session_of_run`  — what the calls come back with, and what was read.
-/

namespace Ithax.Threading

open Ithax.Lib

namespace CoordinatedExchange

variable {s s' : CoordinatedExchange} {firstTick : UInt64} {expectedFrames : UInt32} {poolId : Nat}
  {threads : Role → ThreadId} {events : List Event} {event : Event}

/-- The event is a call of the owner. -/
def Event.isCall : Event → Bool
  | publish _ _ | stop _ => true
  | _ => false

/-- The records of a session, with a tick for each world hash. -/
def sessionRecords (firstTick : UInt64) (hashes : List UInt64) : List FrameRecord :=
  hashes.mapIdx fun i worldHash => .ofWords (firstTick + .ofNat i) worldHash

/-- The calls of a session. -/
def sessionCalls (firstTick : UInt64) (hashes : List UInt64) : List Event :=
  hashes.mapIdx (fun i worldHash => .publish (firstTick + .ofNat i) worldHash) ++ [.stop false]

/-- The record that a call hands over. -/
def Event.record : Event → Option FrameRecord
  | publish tick worldHash => some (.ofWords tick worldHash)
  | _ => none

/-- Before the first stop every record is accepted, and no call throws. -/
structure Publishing (s : CoordinatedExchange) (events : List Event) : Prop where
  stopped : s.stopped = false
  owner : s.owner.stops = false
  accepted : s.accepted = events.filterMap Event.record
  calls : s.calls = s.published.map .published

/-- After it nothing is handed over, and the call ends with one result. -/
structure Stopping (s : CoordinatedExchange) (accepted : List FrameRecord)
    (calls : List CallResult) : Prop where
  accepted : s.accepted = accepted
  owner : s.calls = calls ∧ (s.owner = .stopping false ∨ s.owner = .stoppingSlots false ∨
      s.owner = .joining false) ∨
    s.owner = .ready ∧ ∃ result, result.ofStop = true ∧ s.calls = calls ++ [result]

/-- A turn of one of the threads goes on with what the owner has called. -/
theorem stopping_step {accepted : List FrameRecord} {calls : List CallResult}
    (h : Stopping s accepted calls) (hRegular : s.exchange.Regular) (hCall : event.isCall = false)
    (hStep : s.step event = some s') : Stopping s' accepted calls := by
  unfold step at hStep
  split at hStep
  · cases hStep
  cases event with
  | publish | stop => cases hCall
  | timeOut =>
    simp only at hStep
    split at hStep
    · rename_i record hOwner
      rcases h.owner with ⟨-, hPlace | hPlace | hPlace⟩ | ⟨hPlace, -⟩ <;>
        cases hOwner.symm.trans hPlace
    · cases hStep
  | owner =>
    simp only at hStep
    rcases h.owner with ⟨hCalls, hPlace | hPlace | hPlace⟩ | ⟨hPlace, -⟩
    · unfold stepOwner at hStep
      rw [hPlace] at hStep
      obtain ⟨exchange, -, hNext⟩ := Option.bind_eq_some_iff.mp hStep
      obtain rfl := Option.some.inj hNext
      exact ⟨h.accepted, Or.inl ⟨hCalls, Or.inr (Or.inl rfl)⟩⟩
    · unfold stepOwner at hStep
      rw [hPlace] at hStep
      obtain ⟨exchange, -, hNext⟩ := Option.bind_eq_some_iff.mp hStep
      obtain rfl := Option.some.inj hNext
      exact ⟨h.accepted, Or.inl ⟨hCalls, Or.inr (Or.inr rfl)⟩⟩
    · unfold stepOwner at hStep
      rw [hPlace] at hStep
      simp only [Bool.false_eq_true, if_false] at hStep
      split at hStep
      · obtain rfl := Option.some.inj hStep
        refine ⟨h.accepted, Or.inr ⟨rfl, s.stopResult, ?_, congrArg (· ++ _) hCalls⟩⟩
        unfold stopResult
        repeat' split
        all_goals rfl
      · cases hStep
    · unfold stepOwner at hStep
      rw [hPlace] at hStep
      cases hStep
  | producer =>
    cases producerStep_of_step hRegular hStep with
    | took | gave | left | recorded | turned => exact ⟨h.accepted, h.owner⟩
  | consumer =>
    cases consumerStep_of_step hRegular hStep with
    | acknowledged | recorded | turned => exact ⟨h.accepted, h.owner⟩

/-- A step that hands over nothing. -/
theorem Publishing.still {before : List Event} (h : Publishing s before)
    (hStopped : s'.stopped = s.stopped) (hOwner : s'.owner.stops = false)
    (hAccepted : s'.accepted = s.accepted) (hCalls : s'.calls = s'.published.map .published)
    (hRecord : event.record = none) : Publishing s' (before ++ [event]) := by
  refine ⟨hStopped.trans h.stopped, hOwner, ?_, hCalls⟩
  rw [hAccepted, h.accepted, List.filterMap_append, List.filterMap_cons, hRecord,
    List.filterMap_nil, List.append_nil]

/-- Before the first stop a call of `Publish` is never refused. -/
theorem publishing_step {before : List Event} (h : Publishing s before) (hOrderly : Orderly s)
    (hHealthy : Healthy s.board) (hTime : event ≠ .timeOut)
    (hStop : ∀ noexcept, event ≠ .stop noexcept) (hStep : s.step event = some s') :
    Publishing s' (before ++ [event]) := by
  have hGoes : s.coordination.stopRequested = false := by
    by_contra hNot
    rcases hHealthy.halted (Bool.eq_true_of_not_eq_false hNot) with hStopped | hStops
    · cases h.stopped.symm.trans hStopped
    · cases h.owner.symm.trans hStops
  have hError : s.coordination.error = none := (hHealthy.live hOrderly.flags hGoes).1
  unfold step at hStep
  split at hStep
  · cases hStep
  cases event with
  | publish tick worldHash =>
    simp only at hStep
    split at hStep
    · rename_i hReady
      obtain rfl := Option.some.inj hStep
      have hPending : s.coordination.pending = none := by
        have hUnderway :=
          (hHealthy.quiet_of_ready hOrderly.flags hOrderly.accounts hReady hGoes).underway
        unfold Board.underway at hUnderway
        rw [List.append_eq_nil_iff, Option.toList_eq_nil_iff] at hUnderway
        exact hUnderway.2
      have hFlight : s.coordination.inFlight = false := by
        by_contra hFlight
        have hWaits := hOrderly.flags.inFlight (Bool.eq_true_of_not_eq_false hFlight)
        rw [show s.board.owner = .ready from hReady] at hWaits
        cases hWaits
      unfold publish
      rw [if_neg (by rw [h.stopped]; decide), hError, hPending, hFlight]
      refine ⟨h.stopped, rfl, ?_, h.calls⟩
      rw [List.filterMap_append, ← h.accepted]
      rfl
    · cases hStep
  | stop noexcept => exact absurd rfl (hStop noexcept)
  | timeOut => exact absurd rfl hTime
  | owner =>
    simp only at hStep
    unfold stepOwner at hStep
    split at hStep
    · cases hStep
    · rename_i record hOwner
      split at hStep
      · obtain rfl := Option.some.inj hStep
        unfold resume
        rw [hError]
        refine h.still rfl rfl rfl ?_ rfl
        unfold published Board.published board returned
        rw [List.filterMap_append, List.map_append]
        exact congrArg (· ++ _) h.calls
      · cases hStep
    · rename_i record error hOwner
      have hWaits := hHealthy.owner (by rw [show s.board.owner = _ from hOwner]; rfl)
      rw [show s.board.owner = _ from hOwner] at hWaits
      cases hWaits
    · rename_i record error hOwner
      have hWaits := hHealthy.owner (by rw [show s.board.owner = _ from hOwner]; rfl)
      rw [show s.board.owner = _ from hOwner] at hWaits
      cases hWaits
    · rename_i noexcept hOwner
      have hStops := h.owner
      rw [hOwner] at hStops
      cases hStops
    · rename_i noexcept hOwner
      have hStops := h.owner
      rw [hOwner] at hStops
      cases hStops
    · rename_i noexcept hOwner
      have hStops := h.owner
      rw [hOwner] at hStops
      cases hStops
  | producer =>
    cases producerStep_of_step hOrderly.regular hStep with
    | took | gave | left | recorded | turned => exact h.still rfl h.owner rfl h.calls rfl
  | consumer =>
    cases consumerStep_of_step hOrderly.regular hStep with
    | acknowledged | recorded | turned => exact h.still rfl h.owner rfl h.calls rfl

-- ---------------------------------------------------------------------------
-- Runs
-- ---------------------------------------------------------------------------

theorem run_append {before after : List Event}
    (h : run firstTick expectedFrames poolId threads (before ++ after) = some s') :
    ∃ s, run firstTick expectedFrames poolId threads before = some s ∧
      runEvents step s after = some s' := by
  unfold run at h ⊢
  obtain ⟨slots, hSlots, hRest⟩ := Option.bind_eq_some_iff.mp h
  obtain ⟨channel, hChannel, hRun⟩ := Option.bind_eq_some_iff.mp hRest
  obtain ⟨s, hBefore, hAfter⟩ := runEvents_append_eq_some.mp hRun
  refine ⟨s, ?_, hAfter⟩
  rw [hSlots, hChannel]
  exact hBefore

/-- The records carry the ticks from the first one on. -/
structure InSequence (firstTick : UInt64) (records : List FrameRecord) : Prop where
  ticks : ∀ (i : Nat) (record : FrameRecord), records[i]? = some record →
    record.tick = (firstTick + .ofNat i).toNat
  length : records.length ≤ MAX_GENERATION

theorem InSequence.before {records rest : List FrameRecord}
    (h : InSequence firstTick (records ++ rest)) : InSequence firstTick records := by
  refine ⟨fun i record hAt => h.ticks i record ?_, ?_⟩
  · rw [List.getElem?_append_left (List.getElem?_eq_some_iff.mp hAt).1]
    exact hAt
  · have hLength := h.length
    rw [List.length_append] at hLength
    omega

theorem inSequence_sessionRecords {hashes : List UInt64} (h : hashes.length ≤ MAX_GENERATION) :
    InSequence firstTick (sessionRecords firstTick hashes) := by
  refine ⟨fun i record hAt => ?_, by rw [sessionRecords, List.length_mapIdx]; exact h⟩
  rw [sessionRecords, List.getElem?_mapIdx] at hAt
  obtain ⟨worldHash, -, rfl⟩ := Option.map_eq_some_iff.mp hAt
  rfl

/-- A run without a stop has accepted all that was published. -/
theorem publishing_of_run (h : run firstTick expectedFrames poolId threads events = some s)
    (hTime : .timeOut ∉ events) (hStop : ∀ noexcept, .stop noexcept ∉ events)
    (hSequence : InSequence firstTick (events.filterMap Event.record)) :
    Publishing s events := by
  induction events using List.reverseRecOn generalizing s with
  | nil =>
    unfold run at h
    obtain ⟨slots, -, hRest⟩ := Option.bind_eq_some_iff.mp h
    obtain ⟨channel, -, hRun⟩ := Option.bind_eq_some_iff.mp hRest
    cases hRun
    exact ⟨rfl, rfl, rfl, rfl⟩
  | append_singleton before event ih =>
    obtain ⟨mid, hBefore, hLast⟩ := run_append h
    obtain ⟨next, hStep, hEnd⟩ := runEvents_cons_eq_some.mp hLast
    cases hEnd
    obtain ⟨hOrderly, hFirst, -⟩ := orderly_of_run hBefore
    have hNoTime : .timeOut ∉ before := fun hMem => hTime (List.mem_append_left _ hMem)
    have hNoStop : ∀ noexcept, .stop noexcept ∉ before := fun noexcept hMem =>
      hStop noexcept (List.mem_append_left _ hMem)
    rw [List.filterMap_append] at hSequence
    have hMid := ih hBefore hNoTime hNoStop hSequence.before
    have hInStep : mid.board.InStep := by
      have hAll := hSequence.before
      rw [← hMid.accepted, ← hFirst] at hAll
      exact ⟨hAll.ticks, hAll.length⟩
    refine publishing_step hMid hOrderly (healthy_of_run hBefore hNoTime hInStep) ?_
      (fun noexcept => ?_) hStep
    · rintro rfl
      exact hTime (List.mem_append_right _ List.mem_cons_self)
    · rintro rfl
      exact hStop noexcept (List.mem_append_right _ List.mem_cons_self)

/-- The threads go on with what the owner has called. -/
theorem stopping_of_run {accepted : List FrameRecord} {calls : List CallResult}
    (h : Stopping s accepted calls) (hOrderly : Orderly s)
    (hCalls : ∀ event ∈ events, event.isCall = false) (hRun : runEvents step s events = some s') :
    Stopping s' accepted calls := by
  induction events generalizing s with
  | nil =>
    cases hRun
    exact h
  | cons event events ih =>
    obtain ⟨mid, hStep, hRest⟩ := runEvents_cons_eq_some.mp hRun
    have hNext := stopping_step h hOrderly.regular (hCalls event List.mem_cons_self) hStep
    exact ih hNext (hOrderly.step hStep)
      (fun other hMem => hCalls other (List.mem_cons_of_mem _ hMem)) hRest

/-- What a session hands over does not depend on how its threads take turns. -/
theorem filterMap_record {hashes : List UInt64}
    (h : events.filter Event.isCall = hashes.mapIdx fun i worldHash =>
      .publish (firstTick + .ofNat i) worldHash) :
    events.filterMap Event.record = sessionRecords firstTick hashes := by
  have hCalls : events.filterMap Event.record =
      (events.filter Event.isCall).filterMap Event.record := by
    rw [List.filterMap_filter]
    refine List.filterMap_congr fun event _ => ?_
    cases event <;> rfl
  rw [hCalls, h, sessionRecords, List.mapIdx_eq_zipIdx_map, List.mapIdx_eq_zipIdx_map,
    List.filterMap_map, ← List.filterMap_eq_map]
  rfl

/-- A session publishes all its records before it stops the exchange. -/
theorem stopping_of_session {hashes : List UInt64}
    (h : run firstTick expectedFrames poolId threads events = some s) (hTime : .timeOut ∉ events)
    (hCalls : events.filter Event.isCall = sessionCalls firstTick hashes)
    (hLength : hashes.length ≤ MAX_GENERATION) :
    ∃ mid : CoordinatedExchange, mid.calls = mid.published.map .published ∧
      Stopping s (sessionRecords firstTick hashes) mid.calls := by
  obtain ⟨first, rest, rfl, hFirst, hRest⟩ := List.filter_eq_append_iff.mp hCalls
  obtain ⟨still, after, rfl, hStill, -, hAfter⟩ := List.filter_eq_cons_iff.mp hRest
  rw [← List.append_assoc] at h hTime
  obtain ⟨mid, hBefore, hLast⟩ := run_append h
  obtain ⟨next, hStep, hEnd⟩ := runEvents_cons_eq_some.mp hLast
  -- up to the stop everything is accepted
  have hFilter : (first ++ still).filter Event.isCall = hashes.mapIdx fun i worldHash =>
      .publish (firstTick + .ofNat i) worldHash := by
    rw [List.filter_append, hFirst, List.filter_eq_nil_iff.mpr hStill, List.append_nil]
  have hRecords := filterMap_record hFilter
  have hMid : Publishing mid (first ++ still) := by
    refine publishing_of_run hBefore (fun hMem => hTime (List.mem_append_left _ hMem))
      (fun noexcept hMem => ?_) (hRecords ▸ inSequence_sessionRecords hLength)
    have hCall : Event.stop noexcept ∈ (first ++ still).filter Event.isCall :=
      List.mem_filter.mpr ⟨hMem, rfl⟩
    rw [hFilter, List.mem_mapIdx] at hCall
    obtain ⟨i, hi, hEq⟩ := hCall
    cases hEq
  have hOrderly := (orderly_of_run hBefore).1
  have hAlive : mid.terminated = false := hOrderly.handed.terminated
  have hNext : Stopping next (sessionRecords firstTick hashes) mid.calls := by
    unfold step at hStep
    rw [if_neg (by rw [hAlive]; decide)] at hStep
    simp only at hStep
    split at hStep
    · cases hStep
    · rw [if_neg (by simp)] at hStep
      obtain rfl := Option.some.inj hStep
      exact ⟨hMid.accepted.trans hRecords, Or.inl ⟨rfl, Or.inl rfl⟩⟩
  refine ⟨mid, hMid.calls, stopping_of_run hNext (hOrderly.step hStep) (fun event hMem => ?_) hEnd⟩
  exact Bool.eq_false_of_not_eq_true (List.filter_eq_nil_iff.mp hAfter event hMem)

/-- `Stop` throws nothing when all the records were published, which is before it is called. -/
theorem completed_of_session {hashes : List UInt64}
    (h : run firstTick expectedFrames poolId threads events = some s) (hTime : .timeOut ∉ events)
    (hCalls : events.filter Event.isCall = sessionCalls firstTick hashes)
    (hFrames : hashes.length = expectedFrames.toNat) (hReady : s.owner = .ready) :
    s.published = sessionRecords firstTick hashes ∧
      s.calls = s.published.map .published ++ [.stopped] := by
  have hLength : hashes.length ≤ MAX_GENERATION := by
    rw [hFrames]
    exact (Nat.le_of_lt expectedFrames.toNat_lt).trans (by decide)
  obtain ⟨mid, hMid, hDone⟩ := stopping_of_session h hTime hCalls hLength
  rcases hDone.owner with ⟨-, hPlace | hPlace | hPlace⟩ | ⟨-, result, hStops, hResults⟩
  · cases hReady.symm.trans hPlace
  · cases hReady.symm.trans hPlace
  · cases hReady.symm.trans hPlace
  have hSequence : InSequence firstTick s.accepted :=
    hDone.accepted ▸ inSequence_sessionRecords hLength
  obtain ⟨hOrderly, rfl, hEnd⟩ := orderly_of_run h
  have hHealthy := healthy_of_run h hTime ⟨hSequence.ticks, hSequence.length⟩
  -- the owner is inside no call, so all that was accepted was published
  have hPublished : s.published = sessionRecords s.firstTick hashes := by
    have hHanded := hHealthy.handed (by rw [show s.board.owner = .ready from hReady]; rfl)
    exact hHanded.symm.trans hDone.accepted
  have hStopped : result = .stopped := by
    cases result with
    | stopped => rfl
    | published | refused => cases hStops
    | failed error =>
      have hFailed : .failed error ∈ s.calls :=
        hResults ▸ List.mem_append_right _ List.mem_cons_self
      refine absurd ?_ (hOrderly.short_of_failed hHealthy hFailed)
      rw [hPublished, hEnd, sessionRecords, List.length_mapIdx, hFrames]
      exact congrArg _ (UInt64.toNat_inj.mp (by simp))
  have hSame : s.published = mid.published := by
    show s.calls.filterMap CallResult.record = mid.calls.filterMap CallResult.record
    rw [hResults, hStopped, List.filterMap_append]
    exact List.append_nil _
  exact ⟨hPublished, by rw [hResults, hMid, ← hSame, hStopped]⟩

theorem reads_of_session {hashes : List UInt64}
    (h : run firstTick expectedFrames poolId threads events = some s) (hTime : .timeOut ∉ events)
    (hCalls : events.filter Event.isCall = sessionCalls firstTick hashes)
    (hFrames : hashes.length = expectedFrames.toNat) (hReady : s.owner = .ready) :
    s.exchange.reads.map Frame.record = sessionRecords firstTick hashes := by
  obtain ⟨hPublished, hResults⟩ := completed_of_session h hTime hCalls hFrames hReady
  have hMem : .stopped ∈ s.calls := hResults ▸ List.mem_append_right _ List.mem_cons_self
  obtain ⟨-, hChecked, hReads⟩ := (orderly_of_run h).1.all_of_stopped hMem
  rw [hReads, ← hChecked, hPublished]

/-- The owner publishes as many records as are expected, with the ticks from the first one on,
and stops the exchange. Unless a wait runs out of time, every call comes back and the
consumer has read exactly these records. -/
theorem session_of_run {hashes : List UInt64}
    (h : run firstTick expectedFrames poolId threads events = some s) (hTime : .timeOut ∉ events)
    (hCalls : events.filter Event.isCall = sessionCalls firstTick hashes)
    (hFrames : hashes.length = expectedFrames.toNat) (hReady : s.owner = .ready) :
    s.calls = (sessionRecords firstTick hashes).map .published ++ [.stopped] ∧
      s.exchange.reads.map Frame.record = sessionRecords firstTick hashes := by
  obtain ⟨hPublished, hResults⟩ := completed_of_session h hTime hCalls hFrames hReady
  exact ⟨hPublished ▸ hResults, reads_of_session h hTime hCalls hFrames hReady⟩

/-- A session of two records. -/
theorem session_of_run_twoFrames : ∃ s,
    run 7 2 0 (fun role => if role = .producer then 10 else 20) (twoFrames ++ [.owner]) = some s ∧
    s.calls = [.published (.ofWords 7 99), .published (.ofWords 8 100), .stopped] ∧
    s.exchange.reads.map Frame.record = [.ofWords 7 99, .ofWords 8 100] := by
  obtain ⟨s, hRun, hReady⟩ : ∃ s,
      run 7 2 0 (fun role => if role = .producer then 10 else 20) (twoFrames ++ [.owner]) = some s ∧
      s.owner = .ready := ⟨_, rfl, rfl⟩
  have hOwnerCalls : (twoFrames ++ [Event.owner]).filter Event.isCall = sessionCalls 7 [99, 100] := by
    decide
  obtain ⟨hCalls, hReads⟩ := session_of_run hRun (by decide) hOwnerCalls (by decide) hReady
  exact ⟨s, hRun, hCalls, hReads⟩

end CoordinatedExchange

end Ithax.Threading
