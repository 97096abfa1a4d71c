import Ithax.Threading.CoordinationOrder

/-!
# What the owner is told

The frames that pass the consumer's checks carry the ticks from the first one on, and a
record for which `Publish` comes back is one of them. `Stop` comes back only when they are
as many as expected and nothing else was handed over.

## Results

* `Ticks.step`   — every step of the board keeps the ticks in order.
* `Handed.step`  — and tells the owner only of records that were checked.
-/

namespace Ithax.Threading

open Ithax.Lib

/-- The consumer has checked a frame, and not told the owner. -/
def Board.passing (b : Board) : Bool := b.consumer.releases true || b.acknowledges

/-- A consumer that looks for its slot is neither at its end nor reading. -/
theorem Consumer.not_over_of_seeks {consumer : Consumer} (h : consumer.seeks = true) :
    consumer.over = false ∧ consumer.reads = false := by
  cases consumer with
  | received | waiting => exact ⟨rfl, rfl⟩
  | idle | reading | releasing | failing | failed | stopped => cases h

/-- A frame of a record and its bytes passes the checks when its tick is the expected one. -/
theorem recordFault_eq_none_iff {expectedTick tick worldHash : UInt64} {frame : Frame}
    (hRecord : frame.record = .ofWords tick worldHash) :
    recordFault expectedTick frame.packet frame.payload = none ↔ tick = expectedTick := by
  have hGeneration : frame.packet.generation = tick.toNat := congrArg FrameRecord.tick hRecord
  have hHash : frame.packet.worldHash = worldHash.toNat := congrArg FrameRecord.worldHash hRecord
  have hPayload : frame.payload = leBytes 8 tick.toNat ++ leBytes 8 worldHash.toNat :=
    congrArg FrameRecord.bytes hRecord
  have hWord : ∀ word : UInt64, leNat (leBytes 8 word.toNat) = word.toNat := fun word =>
    leNat_leBytes_of_lt word.toNat_lt
  unfold recordFault
  rw [hPayload, List.take_left' (length_leBytes 8 _), List.drop_left' (length_leBytes 8 _), hWord,
    hWord, hGeneration, hHash]
  simp only [List.length_append, length_leBytes, FRAME_PAYLOAD_BYTES, not_true_eq_false, if_false,
    ne_eq, UInt64.toNat_inj]
  by_cases hTick : tick = expectedTick <;> simp [hTick]

-- ---------------------------------------------------------------------------
-- Ticks
-- ---------------------------------------------------------------------------

/-- The consumer reads tick after tick from the first one on, and expects the next. -/
structure Ticks (b : Board) : Prop where
  records : ∀ record ∈ b.accepted, ∃ tick worldHash, record = .ofWords tick worldHash
  expected : b.firstTick + .ofNat b.checked.length =
    b.expectedTick + if b.passing then 1 else 0
  ticks : ∀ (i : Nat) (frame : Frame), b.checked[i]? = some frame →
    ∃ worldHash, frame.record = .ofWords (b.firstTick + .ofNat i) worldHash
  /-- The last frame that was read may have failed the checks. -/
  reads : b.reads = b.checked ∨ b.consumer.over = true ∧
    (b.consumer.raises = true ∨ b.coordination.error.isSome = true) ∧
      ∃ frame, b.reads = b.checked ++ [frame]
  ended : b.consumer = .stopped → b.coordination.error.isSome = true ∨ b.expectedTick = b.endTick

namespace Ticks

variable {b b' : Board}

/-- The consumer goes on without reading a frame. -/
theorem withConsumer (h : Ticks b) {consumer : Consumer} {queued : List Frame}
    {taken : Option Frame} {channelClosed slotsClosed acknowledges : Bool}
    {consumerError : Option String}
    (hPassing : (consumer.releases true || acknowledges) = b.passing)
    (hReads : b.consumer.over = true → consumer.over = true ∧
      (b.consumer.raises = true → consumer.raises = true ∨ b.coordination.error.isSome = true))
    (hEnded : consumer = .stopped →
      b.coordination.error.isSome = true ∨ b.expectedTick = b.endTick) :
    Ticks { b with
      consumer, queued, taken, channelClosed, slotsClosed, acknowledges, consumerError } := by
  refine { h with expected := ?_, reads := h.reads.imp_right ?_, ended := hEnded }
  · rw [h.expected, show Board.passing { b with
      consumer, queued, taken, channelClosed, slotsClosed, acknowledges, consumerError } =
        b.passing from hPassing]
  · rintro ⟨hOver, hWhy, hLast⟩
    obtain ⟨hStill, hRaises⟩ := hReads hOver
    exact ⟨hStill, hWhy.elim hRaises Or.inr, hLast⟩

/-- A frame in the consumer's hand was made of a record that was handed over. -/
theorem mem_of_taken (hAccounts : Accounts b) {frame : Frame} (hTaken : b.taken = some frame) :
    frame.record ∈ b.accepted := by
  obtain ⟨lost, hAccepted, -, -⟩ := hAccounts.accounts
  rw [hAccepted]
  simp [Board.underway, Outline.underway, hTaken]

/-- A turn of the consumer acknowledges the tick that it has read. -/
theorem consumerTurn (h : Ticks b) (hAccounts : Accounts b) (hFlags : Flags b) {o' : Outline}
    {checks : Bool} {fault : String} (error : Option String) (hNone : b.acknowledges = false)
    (hRecorded : b.consumer = .failing → b.consumerError = none) (hJudges : Judges b checks fault)
    (hTurn : ConsumerTurn checks b.toOutline o') :
    Ticks { b with
      toOutline := o', consumerError := error, acknowledges := b.consumer.releases true
      checked := if b.consumer.reads && checks then o'.reads else b.checked } := by
  have hPassing : b.passing = b.consumer.releases true := by
    unfold Board.passing
    rw [hNone, Bool.or_false]
  -- a section that does not read leaves what was checked
  have hKept : ∀ {consumer : Consumer}, b.consumer = consumer → consumer.reads = false →
      (if b.consumer.reads && checks then o'.reads else b.checked) = b.checked := by
    intro consumer hConsumer hNot
    rw [hConsumer, hNot]
    rfl
  have hFresh : ∀ {consumer : Consumer} {Q : Prop}, b.consumer = consumer →
      consumer.over = false → b.consumer.over = true → Q := by
    intro consumer Q hConsumer hNot hOver
    rw [hConsumer, hNot] at hOver
    cases hOver
  cases hTurn with
  | drained hConsumer hClosed hEmpty =>
    rw [hKept hConsumer rfl]
    obtain ⟨hChecks, -⟩ := hJudges.drained hConsumer hClosed hEmpty
    refine h.withConsumer ?_ (hFresh hConsumer rfl) fun hStopped => Or.inr ?_
    · rw [hPassing, show b.consumer = _ from hConsumer]
      cases checks <;> rfl
    · cases checks with
      | true => exact of_decide_eq_true hChecks.symm
      | false => cases hStopped
  | received hConsumer hQueued =>
    rw [hKept hConsumer rfl]
    refine h.withConsumer ?_ (hFresh hConsumer rfl) nofun
    rw [hPassing, show b.consumer = _ from hConsumer]
    rfl
  | asked token hTaken hConsumer =>
    rw [hKept hConsumer rfl]
    refine h.withConsumer ?_ (hFresh hConsumer rfl) nofun
    rw [hPassing, show b.consumer = _ from hConsumer]
    rfl
  | granted lease hTaken hSeeks =>
    obtain ⟨hNot, hReads⟩ := Consumer.not_over_of_seeks hSeeks
    rw [hKept rfl hReads]
    refine h.withConsumer ?_ (hFresh rfl hNot) nofun
    rw [hPassing, (Consumer.not_busy_of_seeks hSeeks).2.2]
    rfl
  | refused hTaken hSeeks hClosed =>
    obtain ⟨hNot, hReads⟩ := Consumer.not_over_of_seeks hSeeks
    rw [hKept rfl hReads]
    refine h.withConsumer ?_ (hFresh rfl hNot) nofun
    rw [hPassing, (Consumer.not_busy_of_seeks hSeeks).2.2]
    rfl
  | @read frame lease hTaken hConsumer =>
    have hConsumer : b.consumer = .reading frame.packet lease := hConsumer
    have hSame : b.reads = b.checked := h.reads.resolve_right fun hNot =>
      hFresh hConsumer rfl hNot.1
    have hExpected := h.expected
    rw [hPassing, hConsumer] at hExpected
    simp only [Consumer.releases, Bool.false_eq_true, if_false, UInt64.add_zero] at hExpected
    cases checks with
    | false =>
      rw [hConsumer]
      exact { h with
        expected := h.expected.trans (by rw [hPassing, hConsumer]; rfl)
        reads := Or.inr ⟨rfl, Or.inl rfl, frame, congrArg (· ++ [frame]) hSame⟩
        ended := nofun }
    | true =>
      obtain ⟨tick, worldHash, hRecord⟩ := h.records _ (mem_of_taken hAccounts hTaken)
      have hTick : tick = b.expectedTick :=
        (recordFault_eq_none_iff hRecord).mp ((hJudges.read frame lease hTaken hConsumer).mp rfl)
      have hNext : (if b.consumer.reads && true then b.reads ++ [frame] else b.checked) =
          b.checked ++ [frame] := by
        rw [hConsumer, hSame]
        rfl
      rw [show (if b.consumer.reads && true then
        ({ b.toOutline with
          consumer := .releasing lease true, taken := none, reads := b.reads ++ [frame] } :
          Outline).reads else b.checked) = b.checked ++ [frame] from hNext]
      refine { h with
        expected := ?_
        ticks := fun i other hAt => ?_
        reads := Or.inl (congrArg (· ++ [frame]) hSame)
        ended := nofun }
      · show b.firstTick + .ofNat (b.checked ++ [frame]).length = b.expectedTick + 1
        rw [List.length_append, List.length_singleton, UInt64.ofNat_add, ← UInt64.add_assoc,
          hExpected]
        rfl
      · rcases Nat.lt_trichotomy i b.checked.length with hLess | rfl | hMore
        · rw [List.getElem?_append_left hLess] at hAt
          exact h.ticks i other hAt
        · rw [List.getElem?_concat_length] at hAt
          obtain rfl := Option.some.inj hAt
          exact ⟨worldHash, by rw [hRecord, hTick, hExpected]⟩
        · rw [List.getElem?_eq_none (by simpa using Nat.succ_le_of_lt hMore)] at hAt
          cases hAt
  | @released lease checked hConsumer =>
    rw [hKept hConsumer rfl]
    refine h.withConsumer ?_ (fun hOver => ?_) ?_
    · rw [hPassing, show b.consumer = _ from hConsumer]
      cases checked <;> rfl
    · cases checked with
      | true => exact hFresh hConsumer rfl hOver
      | false => exact ⟨rfl, fun _ => Or.inl rfl⟩
    · cases checked <;> nofun
  | failed hConsumer =>
    rw [hKept hConsumer rfl]
    have hRaises := hFlags.consumerRaises (by rw [show b.consumer = _ from hConsumer]; rfl)
    rw [hRecorded hConsumer] at hRaises
    refine h.withConsumer ?_ (fun _ => ⟨rfl, fun _ => Or.inr (hRaises.resolve_left nofun)⟩) nofun
    rw [hPassing, show b.consumer = _ from hConsumer]
    rfl
  | ended hConsumer =>
    rw [hKept hConsumer rfl]
    have hError := hFlags.consumerFailed hConsumer
    refine h.withConsumer ?_ (fun _ => ⟨rfl, fun _ => Or.inr hError⟩) fun _ => Or.inl hError
    rw [hPassing, show b.consumer = _ from hConsumer]
    rfl

/-- The producer goes on, and the consumer stands where it stood. -/
theorem withProducer (h : Ticks b) {o' : Outline} (hConsumer : o'.consumer = b.consumer)
    (hReads : o'.reads = b.reads) (record : Option FrameRecord) (error : Option String) :
    Ticks { b with toOutline := o', record, producerError := error } := by
  refine { h with expected := h.expected.trans ?_, reads := ?_, ended := fun hStopped => ?_ }
  · unfold Board.passing
    rw [show ({ b with toOutline := o', record, producerError := error } : Board).consumer =
      b.consumer from hConsumer]
  · show o'.reads = b.checked ∨ o'.consumer.over = true ∧ (o'.consumer.raises = true ∨ _) ∧
      ∃ frame, o'.reads = b.checked ++ [frame]
    rw [hConsumer, hReads]
    exact h.reads
  · exact h.ended (hConsumer.symm.trans hStopped)

/-- A halt publishes no tick. -/
theorem halt (h : Ticks b) (error : Option String) (owner : Owner)
    (producerError consumerError : Option String) :
    Ticks { b with
      coordination := b.coordination.halt error, owner, producerError, consumerError } := by
  have hKept : b.coordination.error.isSome = true →
      (b.coordination.halt error).error.isSome = true := by
    intro hSome
    obtain ⟨e, hSome⟩ := Option.isSome_iff_exists.mp hSome
    simp [FrameCoordination.halt, hSome]
  exact { h with
    reads := h.reads.imp_right fun hLast => ⟨hLast.1, hLast.2.1.imp_right hKept, hLast.2.2⟩
    ended := fun hStopped => (h.ended hStopped).imp_left hKept }

/-- Every step of the board. -/
theorem step (h : Ticks b) (hAccounts : Accounts b) (hFlags : Flags b) (hStep : BoardStep b b') :
    Ticks b' := by
  cases hStep with
  | refused | published | rethrown | abandoned | gaveUp | stopping | stoppingSlots | joined
  | took | left =>
    exact { h with }
  | timedOut | stopRequested | producerFailed | consumerFailed => exact h.halt _ _ _ _
  | accepted tick worldHash =>
    refine { h with records := fun record hMem => ?_ }
    rcases List.mem_append.mp hMem with hOld | hNew
    · exact h.records record hOld
    · exact ⟨tick, worldHash, List.mem_singleton.mp hNew⟩
  | gave fault hIdle hRecord hTurn =>
    cases hTurn with
    | blocked => exact { h with }
    | acquired hTurn => cases hTurn <;> exact { h with }
  | produced fault hRecorded hTurn =>
    exact h.withProducer hTurn.spares.consumer hTurn.spares.reads _ _
  | acknowledged hReleased =>
    have hIdle := hAccounts.acknowledged hReleased
    have hExpected := h.expected
    rw [show b.passing = true by unfold Board.passing; rw [hReleased, Bool.or_true], if_pos rfl]
      at hExpected
    refine { h with expected := ?_, ended := fun hStopped => nomatch hIdle.symm.trans hStopped }
    refine hExpected.trans ?_
    unfold Board.passing
    rw [show ({ b with
        coordination := { b.coordination with inFlight := false }
        acknowledges := false
        expectedTick := b.expectedTick + 1 } : Board).consumer = .idle from hIdle]
    exact (UInt64.add_zero _).symm
  | consumed hNone hRecorded hJudges hTurn =>
    exact h.consumerTurn hAccounts hFlags _ hNone hRecorded hJudges hTurn

end Ticks

-- ---------------------------------------------------------------------------
-- What the calls come back with
-- ---------------------------------------------------------------------------

/-- The record for which `Publish` has come back. -/
def CallResult.record : CallResult → Option FrameRecord
  | published record => some record
  | _ => none

/-- The records that were published. -/
def Board.published (b : Board) : List FrameRecord := b.calls.filterMap CallResult.record

/-- `Stop` has ended so. -/
def CallResult.ofStop : CallResult → Bool
  | stopped | failed _ => true
  | _ => false

/-- The owner has closed the channel inside `Stop`. -/
def Owner.joins : Owner → Bool
  | stoppingSlots _ | joining _ => true
  | _ => false

/-- How a `Stop` that comes back leaves the exchange. -/
structure Board.Finished (b : Board) : Prop where
  stopped : b.stopped = true
  producer : b.producer = .stopped
  consumer : b.consumer = .stopped
  error : b.coordination.error = none
  ticks : b.expectedTick = b.endTick
  published : b.accepted = b.published

/-- A producer that has stopped makes no turn. -/
theorem ProducerTurn.not_stopped {o o' : Outline} (h : ProducerTurn o o') :
    o.producer ≠ .stopped := by
  cases h with
  | acquired hProducer | wrote hProducer | sized hProducer | oversized hProducer
  | rejected hProducer | sent hProducer | published hProducer | late hProducer | unwound hProducer
  | failed hProducer | ended hProducer | closed hProducer =>
    rw [hProducer]
    nofun

/-- Nor does a consumer. -/
theorem ConsumerTurn.not_stopped {checks : Bool} {o o' : Outline} (h : ConsumerTurn checks o o') :
    o.consumer ≠ .stopped := by
  cases h with
  | drained hConsumer | received hConsumer | asked _ _ hConsumer | read _ hConsumer
  | released hConsumer | failed hConsumer | ended hConsumer =>
    rw [hConsumer]
    nofun
  | granted _ _ hSeeks | refused _ hSeeks =>
    intro hStopped
    rw [hStopped] at hSeeks
    cases hSeeks

/-- Reads are only appended. -/
theorem ConsumerTurn.reads_prefix {checks : Bool} {o o' : Outline} (h : ConsumerTurn checks o o') :
    o.reads <+: o'.reads := by
  cases h with
  | read => exact List.prefix_append _ _
  | drained | received | asked | granted | refused | released | failed | ended =>
    exact List.prefix_refl _

/-- Nothing happens after a `Stop` that has come back, but for calls that are refused. -/
theorem Board.Finished.step {b b' : Board} (h : b.Finished) (hAccounts : Accounts b)
    (hFlags : Flags b) (hStep : BoardStep b b') (hOther : ∀ noexcept, b.owner ≠ .joining noexcept) :
    b'.Finished := by
  have hInside : ∀ {Q : Prop}, b.owner.record.isSome = true → Q := fun hRecord => by
    cases h.stopped.symm.trans (hFlags.publishing hRecord)
  cases hStep with
  | refused record error =>
    exact { h with published := h.published.trans (by simp [Board.published, CallResult.record]) }
  | accepted tick worldHash hOwner hOpen => cases h.stopped.symm.trans hOpen
  | published hOwner | rethrown hOwner | timedOut _ hOwner | abandoned hOwner | gaveUp hOwner =>
    exact hInside (by rw [hOwner]; rfl)
  | stopRequested noexcept hOwner =>
    exact { h with error := by simp [FrameCoordination.halt, h.error] }
  | stopping | stoppingSlots => exact { h with }
  | @joined noexcept terminated result hOwner => exact absurd hOwner (hOther noexcept)
  | took hIdle | gave _ hIdle | left hIdle => cases h.producer.symm.trans hIdle
  | producerFailed hFailing => cases h.producer.symm.trans hFailing
  | produced fault hRecorded hTurn => exact absurd h.producer hTurn.not_stopped
  | acknowledged hReleased => cases h.consumer.symm.trans (hAccounts.acknowledged hReleased)
  | consumerFailed hFailing => cases h.consumer.symm.trans hFailing
  | consumed hNone hRecorded hJudges hTurn => exact absurd h.consumer hTurn.not_stopped

/-- What was handed over is read before `Publish` comes back, and what the calls have left. -/
structure Handed (b : Board) : Prop where
  /-- All but the last record that was handed over were read before `Publish` came back. -/
  opened : ∃ opened, b.accepted = b.published ++ opened ∧
    (∀ record, b.owner.record = some record → opened = [record]) ∧
    (b.owner.record = none → opened = [] ∨
      b.coordination.error.isSome = true ∧ opened.length = 1)
  read : b.published <+: b.checked.map Frame.record
  closing : b.owner.joins = true → b.channelClosed = true
  terminated : b.terminated = false
  finished : .stopped ∈ b.calls → b.Finished
  failed : ∀ error, .failed error ∈ b.calls → b.coordination.error = some error

namespace Handed

variable {b b' : Board}

/-- With no error and no call of `Publish` under way all that was handed over was read. -/
theorem all (h : Handed b) (hAccounts : Accounts b) (hTicks : Ticks b)
    (hOwner : b.owner.record = none) (hError : b.coordination.error = none) :
    b.accepted = b.published ∧ b.published = b.checked.map Frame.record ∧ b.reads = b.checked := by
  obtain ⟨opened, hAccepted, -, hNone⟩ := h.opened
  have hEmpty : opened = [] := (hNone hOwner).resolve_right fun hSome => by
    rw [hError] at hSome
    cases hSome.1
  rw [hEmpty, List.append_nil] at hAccepted
  obtain ⟨lost, hAll, -⟩ := hAccounts.accounts
  have hRead : (b.reads.map Frame.record).length ≤ b.published.length := by
    rw [← hAccepted, hAll, List.append_assoc, List.length_append]
    exact Nat.le_add_right _ _
  have hChecked := h.read.length_le
  rw [List.length_map] at hRead hChecked
  rcases hTicks.reads with hSame | ⟨-, -, frame, hMore⟩
  · refine ⟨hAccepted, h.read.eq_of_length ?_, hSame⟩
    rw [List.length_map]
    rw [hSame] at hRead
    omega
  · rw [hMore, List.length_append, List.length_singleton] at hRead
    omega

/-- The owner goes on to its next section, or comes back without having published anything. -/
theorem withOwner (h : Handed b) {owner : Owner} {calls : List CallResult}
    {channelClosed slotsClosed : Bool} (hCalls : calls.filterMap CallResult.record = b.published)
    (hOwner : owner.record = b.owner.record ∨
      owner.record = none ∧ b.coordination.error.isSome = true)
    (hJoins : owner.joins = true → channelClosed = true)
    (hStops : ∀ result, result.ofStop = true → result ∈ calls → result ∈ b.calls)
    (hFinished : .stopped ∈ b.calls →
      Board.Finished { b with owner, calls, channelClosed, slotsClosed }) :
    Handed { b with owner, calls, channelClosed, slotsClosed } := by
  obtain ⟨opened, hAccepted, hSome, hNone⟩ := h.opened
  refine { h with
    opened := ⟨opened, ?_, fun record hRecord => ?_, fun hRecord => ?_⟩
    read := ?_, closing := hJoins
    finished := fun hMem => hFinished (hStops _ rfl hMem)
    failed := fun error hMem => h.failed error (hStops _ rfl hMem) }
  · exact hAccepted.trans (congrArg (· ++ opened) hCalls.symm)
  · rcases hOwner with hSame | ⟨hOther, -⟩
    · exact hSome record (hSame.symm.trans hRecord)
    · cases hOther.symm.trans hRecord
  · rcases hOwner with hSame | ⟨-, hError⟩
    · exact hNone (hSame.symm.trans hRecord)
    · cases hBefore : b.owner.record with
      | none => exact hNone hBefore
      | some record => exact Or.inr ⟨hError, by rw [hSome record hBefore]; rfl⟩
  · rw [show ({ b with owner, calls, channelClosed, slotsClosed } : Board).published = b.published
      from hCalls]
    exact h.read

/-- A halt hands nothing on. -/
theorem halt (h : Handed b) (error : Option String) {owner : Owner}
    {producerError consumerError : Option String} (hOwner : owner.record = b.owner.record)
    (hJoins : owner.joins = true → b.channelClosed = true)
    (hFinished : .stopped ∈ b.calls → Board.Finished { b with
      coordination := b.coordination.halt error, owner, producerError, consumerError }) :
    Handed { b with
      coordination := b.coordination.halt error, owner, producerError, consumerError } := by
  obtain ⟨opened, hAccepted, hSome, hNone⟩ := h.opened
  refine { h with
    opened := ⟨opened, hAccepted, fun record hRecord => hSome record (hOwner.symm.trans hRecord),
      fun hRecord => (hNone (hOwner.symm.trans hRecord)).imp_right fun hError => ⟨?_, hError.2⟩⟩
    closing := hJoins, finished := hFinished
    failed := fun e hMem => by simp [FrameCoordination.halt, h.failed e hMem] }
  obtain ⟨e, hError⟩ := Option.isSome_iff_exists.mp hError.1
  simp [FrameCoordination.halt, hError]

/-- The two threads go on. -/
theorem withOutline (h : Handed b) {o' : Outline} {record : Option FrameRecord}
    {producerError consumerError : Option String} {acknowledges : Bool} {checked : List Frame}
    (hChecked : b.checked <+: checked) (hClosed : b.channelClosed = true → o'.channelClosed = true)
    (hFinished : .stopped ∈ b.calls → Board.Finished { b with
      toOutline := o', record, producerError, consumerError, acknowledges, checked }) :
    Handed { b with
      toOutline := o', record, producerError, consumerError, acknowledges, checked } :=
  { h with
    read := h.read.trans (hChecked.map Frame.record)
    closing := fun hJoins => hClosed (h.closing hJoins), finished := hFinished }

/-- Both threads are joined, and everything is read if there was no error. -/
theorem joined (h : Handed b) (hAccounts : Accounts b) (hTicks : Ticks b)
    {noexcept terminated : Bool} {result : List CallResult} (hOwner : b.owner = .joining noexcept)
    (hProducer : b.producer = .stopped) (hConsumer : b.consumer = .stopped)
    (hQuiet : b.channelClosed = true → b.queued = [] → terminated = false ∧
      result = if noexcept then [] else [b.coordination.error.elim .stopped .failed]) :
    Handed { b with
      owner := .ready, stopped := true, terminated, calls := b.calls ++ result } := by
  have hOver : b.consumer.over = true := by
    rw [hConsumer]
    rfl
  obtain ⟨rfl, hResult⟩ := hQuiet (h.closing (by rw [hOwner]; rfl)) (hAccounts.through hOver).1
  have hNoRecord : result.filterMap CallResult.record = [] := by
    rw [hResult]
    cases noexcept with
    | true => rfl
    | false => cases b.coordination.error <;> rfl
  have hSame : ({ b with
      owner := .ready, stopped := true, terminated := false, calls := b.calls ++ result } :
      Board).published = b.published := by
    unfold Board.published
    rw [List.filterMap_append, hNoRecord, List.append_nil]
  have hFailed : ∀ error, .failed error ∈ b.calls ++ result →
      b.coordination.error = some error := by
    intro error hMem
    rcases List.mem_append.mp hMem with hOld | hNew
    · exact h.failed error hOld
    · rw [hResult] at hNew
      cases noexcept with
      | true => cases hNew
      | false =>
        cases hError : b.coordination.error with
        | none =>
          rw [hError] at hNew
          simp at hNew
        | some e =>
          rw [hError] at hNew
          exact congrArg some (CallResult.failed.inj (List.mem_singleton.mp hNew)).symm
  obtain ⟨opened, hAccepted, -, hNone⟩ := h.opened
  have hRecord : b.owner.record = none := by
    rw [hOwner]
    rfl
  refine { h with
    opened := ⟨opened, hSame ▸ hAccepted, nofun, fun _ => hNone hRecord⟩
    read := hSame ▸ h.read, closing := nofun, terminated := rfl
    finished := fun hMem => ?_, failed := hFailed }
  -- with an error `Stop` throws, and an earlier one would not have come back
  have hError : b.coordination.error = none := by
    rcases List.mem_append.mp hMem with hOld | hNew
    · exact (h.finished hOld).error
    · rw [hResult] at hNew
      cases noexcept with
      | true => cases hNew
      | false =>
        cases hError : b.coordination.error with
        | none => rfl
        | some e =>
          rw [hError] at hNew
          simp at hNew
  obtain ⟨hAll, -, -⟩ := h.all hAccounts hTicks hRecord hError
  exact {
    stopped := rfl, producer := hProducer, consumer := hConsumer, error := hError
    ticks := (hTicks.ended hConsumer).resolve_left (by rw [hError]; nofun)
    published := hAll.trans hSame.symm }

/-- Every step of the board. -/
theorem step (h : Handed b) (hAccounts : Accounts b) (hTicks : Ticks b) (hFlags : Flags b)
    (hStep : BoardStep b b') : Handed b' := by
  have hFinished : (∀ noexcept, b.owner ≠ .joining noexcept) → .stopped ∈ b.calls → b'.Finished :=
    fun hOther hMem => (h.finished hMem).step hAccounts hFlags hStep hOther
  have hRefused : ∀ record error result, result.ofStop = true →
      result ∈ b.calls ++ [.refused record error] → result ∈ b.calls := by
    intro record error result hStops hMem
    rcases List.mem_append.mp hMem with hOld | hNew
    · exact hOld
    · rw [List.mem_singleton.mp hNew] at hStops
      cases hStops
  cases hStep with
  | refused record error hOwner =>
    exact h.withOwner (by simp [Board.published, CallResult.record]) (Or.inl rfl) h.closing
      (hRefused record error) (hFinished (by rw [hOwner]; nofun))
  | accepted tick worldHash hOwner hOpen hError =>
    obtain ⟨hAccepted, -, -⟩ := h.all hAccounts hTicks (by rw [hOwner]; rfl) hError
    exact { h with
      opened := ⟨[.ofWords tick worldHash], congrArg (· ++ _) hAccepted,
        fun record hRecord => congrArg (fun r => [r]) (Option.some.inj hRecord), nofun⟩
      closing := nofun
      finished := hFinished (by rw [hOwner]; nofun) }
  | @published record hOwner hFlight hError =>
    have hOpen := hFlags.publishing (by rw [hOwner]; rfl)
    have hGoes := hFlags.not_halted (by rw [hOwner]; rfl) hOpen hError
    obtain ⟨-, -, -, -, hOver, hRead⟩ := hAccounts.rest hFlags hGoes hFlight
    have hReads : b.reads = b.checked := hTicks.reads.resolve_right fun hNot =>
      nomatch hOver.symm.trans hNot.1
    obtain ⟨opened, hAccepted, hSome, -⟩ := h.opened
    rw [hSome record (by rw [hOwner]; rfl)] at hAccepted
    have hNext : (b.calls ++ [CallResult.published record]).filterMap CallResult.record =
        b.accepted := by
      rw [hAccepted, List.filterMap_append]
      rfl
    refine { h with
      opened := ⟨[], ?_, nofun, fun _ => Or.inl rfl⟩
      read := ?_
      closing := nofun
      finished := fun hMem => hFinished (by rw [hOwner]; nofun) (by simpa using hMem)
      failed := fun error hMem => h.failed error (by simpa using hMem) }
    · exact hNext.symm.trans (List.append_nil _).symm
    · show (b.calls ++ [CallResult.published record]).filterMap CallResult.record <+: _
      rw [hNext, hRead, hReads]
  | rethrown hOwner hError =>
    exact h.withOwner (by simp [Board.published, CallResult.record])
      (Or.inr ⟨rfl, by rw [hError]; rfl⟩) nofun (hRefused _ _) (hFinished (by rw [hOwner]; nofun))
  | timedOut error hOwner =>
    exact h.halt _ (by rw [hOwner]; rfl) nofun (hFinished (by rw [hOwner]; nofun))
  | abandoned hOwner =>
    exact h.withOwner rfl (Or.inl (by rw [hOwner]; rfl)) nofun (fun _ _ hMem => hMem)
      (hFinished (by rw [hOwner]; nofun))
  | gaveUp hOwner =>
    have hError := hFlags.abandoned (by rw [hOwner]; rfl) (by rw [hOwner]; rfl)
    exact h.withOwner (by simp [Board.published, CallResult.record]) (Or.inr ⟨rfl, hError⟩) nofun
      (hRefused _ _) (hFinished (by rw [hOwner]; nofun))
  | stopRequested noexcept hOwner =>
    exact h.halt _ (by rw [hOwner]; rfl) nofun (hFinished (by rw [hOwner]; nofun))
  | stopping hOwner =>
    exact h.withOwner rfl (Or.inl (by rw [hOwner]; rfl)) (fun _ => rfl) (fun _ _ hMem => hMem)
      (hFinished (by rw [hOwner]; nofun))
  | stoppingSlots hOwner =>
    exact h.withOwner rfl (Or.inl (by rw [hOwner]; rfl))
      (fun _ => h.closing (by rw [hOwner]; rfl)) (fun _ _ hMem => hMem)
      (hFinished (by rw [hOwner]; nofun))
  | joined terminated result hOwner hProducer hConsumer hQuiet =>
    exact h.joined hAccounts hTicks hOwner hProducer hConsumer hQuiet
  | took hIdle =>
    exact { h with finished := fun hMem => nomatch (h.finished hMem).producer.symm.trans hIdle }
  | gave fault hIdle hRecord hTurn =>
    refine h.withOutline (List.prefix_refl _) ?_ fun hMem =>
      nomatch (h.finished hMem).producer.symm.trans hIdle
    cases hTurn with
    | blocked => exact fun hClosed => hClosed
    | acquired hTurn => exact hTurn.onward.2
  | left hIdle =>
    exact { h with finished := fun hMem => nomatch (h.finished hMem).producer.symm.trans hIdle }
  | producerFailed hFailing =>
    exact h.halt _ rfl h.closing fun hMem => nomatch (h.finished hMem).producer.symm.trans hFailing
  | produced fault hRecorded hTurn =>
    exact h.withOutline (List.prefix_refl _) hTurn.onward.2 fun hMem =>
      absurd (h.finished hMem).producer hTurn.not_stopped
  | acknowledged hReleased =>
    have hIdle := hAccounts.acknowledged hReleased
    exact { h with finished := fun hMem => nomatch (h.finished hMem).consumer.symm.trans hIdle }
  | consumerFailed hFailing =>
    exact h.halt _ rfl h.closing fun hMem => nomatch (h.finished hMem).consumer.symm.trans hFailing
  | @consumed o' checks fault hNone hRecorded hJudges hTurn =>
    refine h.withOutline ?_ hTurn.onward.2 fun hMem =>
      absurd (h.finished hMem).consumer hTurn.not_stopped
    have hBefore : b.checked <+: b.reads := by
      rcases hTicks.reads with hSame | ⟨-, -, frame, hMore⟩
      · rw [hSame]
      · rw [hMore]
        exact List.prefix_append _ _
    split
    · exact hBefore.trans hTurn.reads_prefix
    · exact List.prefix_refl _

end Handed

end Ithax.Threading
